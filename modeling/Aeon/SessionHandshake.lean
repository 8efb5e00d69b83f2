import Aeon.SessionModel

/-!
# The handshake comes first

A session reads, writes and notifies data only after its handshake has
completed and, on a strict client, its peer has been verified.
-/

namespace Aeon

open History

/-- The handshake of the session is done, and its peer verified where that is asked for. -/
def Event.completes (id : ℕ) : Event → Bool
  | .handshake i done strict verified _ => i = id && done && (!strict || verified)
  | _ => false

def Event.connects (id : ℕ) : Event → Bool
  | .notify session .connect => session = some id
  | _ => false

/-- What every event has to find before it. -/
def Follows (pre : List Event) (e : Event) : Prop :=
  (∀ id result directRetry, e = .sslRead id result directRetry → ∃ e' ∈ pre, e'.completes id) ∧
  (∀ id origin data result retry waiting, e = .sslWrite id origin data result retry waiting →
    ∃ e' ∈ pre, e'.completes id) ∧
  (∀ id, e = .notify (some id) .connect → ∃ e' ∈ pre, e'.completes id) ∧
  ∀ id, ((∃ bytes, e = .notify (some id) (.data bytes)) ∨ e = .notify (some id) .drain) →
    .notify (some id) .connect ∈ pre

/-- Events that need nothing before them, and that are not native reads or writes. -/
def Event.early : Event → Bool
  | .sslRead .. | .sslWrite .. | .recv _ | .send _ => false
  | .notify _ .connect | .notify _ (.data _) | .notify _ .drain => false
  | .handshake _ done strict verified _ => !done || (strict && !verified)
  | _ => true

theorem Event.early_follows {e : Event} (h : e.early = true) (pre : List Event) : Follows pre e := by
  refine ⟨?_, ?_, ?_, ?_⟩
  · rintro id result directRetry rfl
    cases h
  · rintro id origin data result retry waiting rfl
    cases h
  · rintro id rfl
    cases h
  · rintro id (⟨bytes, rfl⟩ | rfl)
    · cases h
    · cases h

theorem Event.early_counts {e : Event} (h : e.early = true) (id : ℕ) :
    e.completes id = false ∧ e.connects id = false := by
  cases e with
  | handshake i done strict verified _ =>
    refine ⟨?_, rfl⟩
    revert h
    cases done <;> cases strict <;> cases verified <;> simp [Event.early, Event.completes]
  | notify session notice => cases notice <;> first | exact ⟨rfl, rfl⟩ | cases h
  | sslRead | sslWrite | recv | send => cases h
  | _ => exact ⟨rfl, rfl⟩

theorem Event.early_native {e : Event} (h : e.native = true) : e.early = true := by
  cases e with
  | opened | closed | reopened | verifyMode | sslVerify | retryRejected => rfl
  | notify session notice => cases notice <;> first | rfl | cases h
  | _ => cases h

theorem Event.early_io {e : Event} (h : e.early = true) (fd : ℕ) : e ≠ .recv fd ∧ e ≠ .send fd := by
  refine ⟨?_, ?_⟩
  · rintro rfl
    cases h
  · rintro rfl
    cases h

namespace Session

structure HandshakeInv (v : Session) : Prop where
  order : Always Follows v.log
  once : ∀ id, v.log.countP (Event.connects id) = v.log.countP (Event.completes id)
  counted : ∀ id, v.live = some id →
    v.log.countP (Event.completes id) = if v.ready then 1 else 0
  most : ∀ id, v.log.countP (Event.completes id) ≤ 1
  sealed : ∀ fd, .recv fd ∉ v.log ∧ .send fd ∉ v.log

theorem countP_early {es : List Event} (h : ∀ e ∈ es, e.early = true) (id : ℕ) :
    es.countP (Event.completes id) = 0 ∧ es.countP (Event.connects id) = 0 := by
  simp only [List.countP_eq_zero, Bool.not_eq_true]
  exact ⟨fun e he => (Event.early_counts (h e he) id).1,
    fun e he => (Event.early_counts (h e he) id).2⟩

/-- A step that adds only early events, and readies no session. -/
theorem HandshakeInv.frame {v w : Session} (h : v.HandshakeInv) (es : List Event)
    (hlog : w.log = v.log ++ es) (hes : ∀ e ∈ es, e.early = true)
    (hlive : ∀ id, w.live = some id → w.ready = false ∧ v.log.countP (Event.completes id) = 0 ∨
      v.live = some id ∧ w.ready = v.ready) : w.HandshakeInv := by
  have hcount (id : ℕ) := countP_early hes id
  refine ⟨?_, fun id => ?_, fun id hid => ?_, fun id => ?_, fun fd => ?_⟩
  · rw [hlog]
    exact h.order.append fun e he pre => Event.early_follows (hes e he) pre
  · rw [hlog, List.countP_append, List.countP_append, (hcount id).1, (hcount id).2, h.once id]
  · rw [hlog, List.countP_append, (hcount id).1, Nat.add_zero]
    rcases hlive id hid with ⟨hready, hzero⟩ | ⟨hold, hready⟩
    · rw [hzero, hready]
      rfl
    · rw [h.counted id hold, hready]
  · rw [hlog, List.countP_append, (hcount id).1, Nat.add_zero]
    exact h.most id
  · rw [hlog, List.mem_append, List.mem_append, not_or, not_or]
    exact ⟨⟨(h.sealed fd).1, fun he => (Event.early_io (hes _ he) fd).1 rfl⟩,
      (h.sealed fd).2, fun he => (Event.early_io (hes _ he) fd).2 rfl⟩

/-- The live session is ready: its handshake is in the history, and its connect. -/
theorem HandshakeInv.before {v : Session} {id : ℕ} (h : v.HandshakeInv) (hlive : v.live = some id)
    (hready : v.ready = true) :
    (∃ e ∈ v.log, e.completes id) ∧ .notify (some id) .connect ∈ v.log := by
  have hcount := h.counted id hlive
  rw [hready, if_pos rfl] at hcount
  have hconnect : 0 < v.log.countP (Event.connects id) := by rw [h.once id, hcount]; decide
  refine ⟨List.countP_pos_iff.mp (by omega), ?_⟩
  obtain ⟨e, he, hid⟩ := List.countP_pos_iff.mp hconnect
  cases e with
  | notify session notice =>
    cases notice with
    | connect =>
      rw [show session = some id by simpa [Event.connects] using hid] at he
      exact he
    | _ => cases hid
  | _ => cases hid

/-- A read, a write or a notification of a ready session. -/
theorem HandshakeInv.use {v w : Session} {id : ℕ} (h : v.HandshakeInv) (hlive : v.live = some id)
    (hready : v.ready = true) (e : Event) (es : List Event) (hlog : w.log = v.log ++ e :: es)
    (hes : ∀ e ∈ es, e.early = true) (hid : e.session = some id)
    (hcount : ∀ i, e.completes i = false ∧ e.connects i = false)
    (hio : ∀ fd, e ≠ .recv fd ∧ e ≠ .send fd)
    (hw : w.live = v.live ∧ w.ready = v.ready) : w.HandshakeInv := by
  obtain ⟨hdone, hconnect⟩ := h.before hlive hready
  have hone : HandshakeInv (v.note [e]) := by
    refine ⟨h.order.snoc ⟨?_, ?_, ?_, ?_⟩, fun i => ?_, fun i hi => ?_, fun i => ?_, fun fd => ?_⟩
    · rintro i result directRetry rfl
      exact Option.some.inj hid ▸ hdone
    · rintro i origin data result retry waiting rfl
      exact Option.some.inj hid ▸ hdone
    · rintro i rfl
      have := (hcount i).2
      simp [Event.connects] at this
    · rintro i (⟨bytes, rfl⟩ | rfl)
      · exact Option.some.inj hid ▸ hconnect
      · exact Option.some.inj hid ▸ hconnect
    · simpa [(hcount i).1, (hcount i).2] using h.once i
    · have hadded : [e].countP (Event.completes i) = 0 := by simp [(hcount i).1]
      rw [note_log, List.countP_append, hadded]
      exact h.counted i hi
    · simpa [(hcount i).1] using h.most i
    · simpa [(hio fd).1.symm, (hio fd).2.symm] using h.sealed fd
  refine hone.frame es (by rw [hlog]; simp) hes fun i hi => .inr ⟨?_, hw.2⟩
  exact hw.1 ▸ hi

theorem HandshakeInv.complete {v : Session} {id : ℕ} {strict verified : Bool}
    {answer : Option SslResult} (h : v.HandshakeInv) (hlive : v.live = some id) (hready : v.ready = false)
    (hv : strict = true → verified = true) :
    ({ v with ready := true }.note
      [.handshake id true strict verified answer, .notify (some id) .connect]).HandshakeInv := by
  have hzero := h.counted id hlive
  rw [hready, if_neg Bool.false_ne_true] at hzero
  have hgood : (!strict || verified) = true := by
    cases strict with
    | true => simpa using hv rfl
    | false => rfl
  have hone (i : ℕ) : [Event.handshake id true strict verified answer,
      .notify (some id) .connect].countP (Event.completes i) = if id = i then 1 else 0 := by
    by_cases hi : id = i <;> simp [Event.completes, hi, hgood]
  have htwo (i : ℕ) : [Event.handshake id true strict verified answer,
      .notify (some id) .connect].countP (Event.connects i) = if id = i then 1 else 0 := by
    by_cases hi : id = i <;> simp [Event.connects, hi]
  have hlog : ({ v with ready := true }.note
      [.handshake id true strict verified answer, .notify (some id) .connect]).log =
      v.log ++ [.handshake id true strict verified answer, .notify (some id) .connect] := rfl
  refine ⟨?_, fun i => ?_, fun i hi => ?_, fun i => ?_, fun fd => ?_⟩
  · rw [hlog, show v.log ++ [.handshake id true strict verified answer, .notify (some id) .connect] =
      (v.log ++ [.handshake id true strict verified answer]) ++ [.notify (some id) .connect] by simp]
    refine (h.order.snoc (by simp [Follows])).snoc ⟨by simp, by simp, fun i hi => ?_, by simp⟩
    obtain rfl : id = i := by simpa using hi
    exact ⟨.handshake id true strict verified answer, by simp, by simp [Event.completes, hgood]⟩
  · rw [hlog, List.countP_append, List.countP_append, hone, htwo, h.once i]
  · obtain rfl : id = i := by simpa [hlive] using hi
    rw [hlog, List.countP_append, hone, hzero, if_pos rfl]
    rfl
  · rw [hlog, List.countP_append, hone]
    by_cases hi : id = i
    · rw [← hi, hzero, if_pos rfl]
    · simpa [hi] using h.most i
  · simpa [hlog] using h.sealed fd

theorem HandshakeInv.step {v v' : Session} (h : v.HandshakeInv) (hn : v.Numbered)
    (hstep : Step v v') : v'.HandshakeInv := by
  cases hstep with
  | native e he =>
    exact h.frame [e] rfl (by simpa using Event.early_native he) fun id hid => .inr ⟨hid, rfl⟩
  | setLimit | beginShutdown =>
    exact h.frame [] (by simp) (by simp) fun id hid => .inr ⟨hid, rfl⟩
  | enqueue | enqueueNothing | alert | discard | shutdown =>
    exact h.frame [_] rfl (by simp [Event.early]) fun id hid => .inr ⟨hid, rfl⟩
  | queuedRejected =>
    exact h.frame [_, _] rfl (by simp [Event.early]) fun id hid => .inr ⟨hid, rfl⟩
  | create hlive =>
    refine h.frame [.sslNew v.fresh] rfl (by simp [Event.early]) fun id hid => .inl ⟨rfl, ?_⟩
    obtain rfl : v.fresh = id := by simpa using hid
    refine List.countP_eq_zero.mpr fun e he hdone => ?_
    have hid' : e.session = some v.fresh := by
      cases e with
      | handshake i => simpa [Event.completes, Event.session, and_assoc] using
          (by simpa [Event.completes, and_assoc] using hdone : i = v.fresh ∧ _).1
      | _ => cases hdone
    exact absurd (hn.events e he _ hid') (Nat.lt_irrefl _)
  | free =>
    exact h.frame [_] rfl (by simp [Event.early]) fun id hid => by simp at hid
  | reset hlive =>
    exact h.frame [] (by simp [Session.reset, forget]) (by simp) fun id hid => by
      simp [Session.reset, forget, hlive] at hid
  | handshake id strict verified answer hlive hready hv => exact h.complete hlive hready hv
  | handshakeOpen id done strict verified answer hlive hready hv =>
    refine h.frame [.handshake id done strict verified (some answer)] rfl ?_ fun id hid => .inr ⟨hid, rfl⟩
    simp only [List.mem_singleton, forall_eq]
    cases done with
    | false => rfl
    | true => simp [Event.early, hv rfl]
  | read id answer hlive hready =>
    exact h.use hlive hready _ [] rfl (by simp) rfl (fun _ => ⟨rfl, rfl⟩) (by simp) ⟨rfl, rfl⟩
  | directWrite id data answer hlive hready =>
    exact h.use hlive hready (.sslWrite id .direct data answer (v.retryLen ≠ 0) v.queue.bytes) []
      (by simp) (by simp) rfl (fun _ => ⟨rfl, rfl⟩) (by simp) ⟨by simp, by simp⟩
  | queuedWrite id left answer hlive hready =>
    rcases afterFlush_cases (v.queue.requested left) answer
        ((v.settle (v.offered left) true answer).note
          [.sslWrite id .queued (v.offered left) answer (v.retryLen ≠ 0) 0]) with
      ⟨-, -, he⟩ | ⟨-, he⟩ | ⟨-, -, he⟩
    · rw [he]
      exact h.use hlive hready (.sslWrite id .queued (v.offered left) answer (v.retryLen ≠ 0) 0) []
        (by simp) (by simp) rfl (fun _ => ⟨rfl, rfl⟩) (by simp) ⟨by simp, by simp⟩
    · rw [he]
      exact h.use hlive hready (.sslWrite id .queued (v.offered left) answer (v.retryLen ≠ 0) 0) []
        (by simp) (by simp) rfl (fun _ => ⟨rfl, rfl⟩) (by simp) ⟨by simp, by simp⟩
    · rw [he]
      exact h.use hlive hready (.sslWrite id .queued (v.offered left) answer (v.retryLen ≠ 0) 0)
        [.discarded v.live] (by simp) (by simp [Event.early]) rfl (fun _ => ⟨rfl, rfl⟩) (by simp)
        ⟨by simp, by simp⟩
  | notify id n hlive hready hn =>
    rcases hn with ⟨bytes, rfl⟩ | rfl
    · exact h.use hlive hready _ [] rfl (by simp) rfl (fun _ => ⟨rfl, rfl⟩) (by simp) ⟨rfl, rfl⟩
    · exact h.use hlive hready _ [] rfl (by simp) rfl (fun _ => ⟨rfl, rfl⟩) (by simp) ⟨rfl, rfl⟩

theorem Reachable.handshakeInv {v : Session} (h : Reachable v) : v.HandshakeInv := by
  refine (h.induct (I := fun v => v.HandshakeInv ∧ v.Numbered) (fun v hv => ⟨?_, ?_⟩)
    fun v v' hi _ hstep => ⟨hi.1.step hi.2 hstep, hi.2.step hstep⟩).1
  · have hes (e : Event) (he : e ∈ v.log) := Event.early_native (hv.native e he)
    have hempty : HandshakeInv {} :=
      ⟨.nil, by simp, by simp, by simp, by simp⟩
    exact hempty.frame v.log (by simp) hes fun id hid => by simp [hv.live] at hid
  · exact Reachable.numbered ⟨v, hv, .refl v⟩

end Session

end Aeon
