import Aeon.SessionRetry

/-!
# The end of a session

What a graceful shutdown, asked for or entered because the peer closed, leaves
to be written: the queue is emptied first, and after the first `SSL_shutdown`
of `poll_step` nothing is written any more.
-/

namespace Aeon

open History

/-- The peer closes its direction while the caller owes OpenSSL a direct write. -/
def Event.closesInRetry : Event → Bool
  | .sslRead _ result directRetry => directRetry && result.closes
  | _ => false

/-- What `queue_write` accepted on a session. -/
def acceptedBytes (id : ℕ) (log : List Event) : List UInt8 :=
  log.flatMap fun
    | .accepted session data => if session = some id then data else []
    | _ => []

/-- The queued bytes that `SSL_write` took on a session. -/
def writtenBytes (id : ℕ) (log : List Event) : List UInt8 :=
  log.flatMap fun
    | .sslWrite i .queued data result _ _ => if i = id then data.take result.ret.toNat else []
    | _ => []

@[simp] theorem acceptedBytes_append (id : ℕ) (log es : List Event) :
    acceptedBytes id (log ++ es) = acceptedBytes id log ++ acceptedBytes id es :=
  List.flatMap_append

@[simp] theorem writtenBytes_append (id : ℕ) (log es : List Event) :
    writtenBytes id (log ++ es) = writtenBytes id log ++ writtenBytes id es :=
  List.flatMap_append

/-- Events that move no bytes of the queue of this session. -/
def Event.moves (id : ℕ) : Event → Bool
  | .accepted session _ => session = some id
  | .sslWrite i .queued .. => i = id
  | _ => false

theorem bytes_unmoved (id : ℕ) {es : List Event} (h : ∀ e ∈ es, e.moves id = false) :
    acceptedBytes id es = [] ∧ writtenBytes id es = [] := by
  simp only [acceptedBytes, writtenBytes, List.flatMap_eq_nil_iff]
  refine ⟨fun e he => ?_, fun e he => ?_⟩
  · have hm := h e he
    cases e with
    | accepted session data => exact if_neg (by simpa [Event.moves] using hm)
    | _ => rfl
  · have hm := h e he
    cases e with
    | sslWrite i origin data result retry waiting =>
      cases origin with
      | queued => exact if_neg (by simpa [Event.moves] using hm)
      | direct => rfl
    | _ => rfl

theorem Event.moves_of_session {id : ℕ} {e : Event} (h : e.session ≠ some id) :
    e.moves id = false := by
  cases e with
  | accepted session => simpa [Event.moves, Event.session] using h
  | sslWrite i origin =>
    cases origin with
    | queued => simpa [Event.moves, Event.session] using h
    | direct => rfl
  | _ => rfl

/-- Once `poll_step` has shut the session down, nothing is written or accepted on it. -/
def Quiet (pre : List Event) (e : Event) : Prop :=
  ∀ id n answer, .sslShutdown id .pollStep n answer ∈ pre →
    (∀ origin data result retry waiting, e ≠ .sslWrite id origin data result retry waiting) ∧
    ∀ data, e ≠ .accepted (some id) data

/-- Before `poll_step` shuts the session down, everything accepted on it has
been written, unless it was discarded. -/
def Drained (pre : List Event) (e : Event) : Prop :=
  ∀ id n answer, e = .sslShutdown id .pollStep n answer →
    .discarded (some id) ∈ pre ∨ acceptedBytes id pre <:+ writtenBytes id pre

/-- Events that neither condition speaks of. -/
def Event.plain : Event → Bool
  | .sslWrite .. | .accepted .. | .sslShutdown _ .pollStep _ _ => false
  | _ => true

theorem Event.plain_order {e : Event} (h : e.plain = true) (pre : List Event) :
    Quiet pre e ∧ Drained pre e := by
  refine ⟨fun id n answer _ => ⟨?_, ?_⟩, ?_⟩
  · rintro origin data result retry waiting rfl
    cases h
  · rintro data rfl
    cases h
  · rintro id n answer rfl
    cases h

theorem Event.plain_moves {id : ℕ} {e : Event} (h : e.plain = true) : e.moves id = false := by
  cases e with
  | sslWrite | accepted => cases h
  | _ => rfl

theorem Event.plain_native {e : Event} (h : e.native = true) : e.plain = true := by
  cases e with
  | opened | closed | reopened | verifyMode | sslVerify | retryRejected | notify => rfl
  | _ => cases h

namespace Session

theorem Step.log_subset {v v' : Session} (h : Step v v') : v.log ⊆ v'.log := by
  cases h.grows with
  | same es hlog => exact hlog ▸ List.subset_append_left _ _
  | opened hlog => exact hlog ▸ List.subset_append_left _ _

structure ClosingInv (v : Session) : Prop where
  retry : v.live ≠ none → v.closing = true → v.directRetry = false
  outstanding : ∀ id n answer, .sslShutdown id .pollStep n answer ∈ v.log → n = 0

/-- The queue is not empty while a queued write is owed. -/
theorem RetryInv.bytes {v : Session} {id : ℕ} (h : v.RetryInv) (hq : v.queue.Valid)
    (hlive : v.live = some id) (hl : v.retryLen ≠ 0) (hqueued : v.retryQueued = true) :
    v.queue.bytes ≠ 0 := by
  obtain ⟨origin, data, -, howes⟩ := (h.record id hlive).owes hl
  obtain ⟨-, front, rest, more, hc, hfront⟩ := howes.kept (howes.queued.mp hqueued)
  intro hzero
  have hnil := hq.tight.eq_nil (List.length_eq_zero_iff.mp (hq.bytes_eq.symm.trans hzero))
  rw [hc] at hnil
  cases hnil

theorem settle_retryQueued {v : Session} (data : List UInt8) (answer : SslResult)
    (h : v.directRetry = false) : (v.settle data true answer).directRetry = false := by
  unfold settle
  split
  · rfl
  · split
    · split
      · exact h
      · simp [directRetry]
    · rfl

theorem ClosingInv.step {v v' : Session} (h : v.ClosingInv) (hr : v.RetryInv) (hs : v.Sound)
    (hstep : Step v v') (hlog : ∀ e ∈ v'.log, e.closesInRetry = false) : v'.ClosingInv := by
  have hadd {w : Session} (es : List Event) (hlog : w.log = v.log ++ es)
      (hes : ∀ e ∈ es, ∀ id n answer, e = .sslShutdown id .pollStep n answer → n = 0)
      (hretry : w.live ≠ none → w.closing = true → w.directRetry = false) : w.ClosingInv := by
    refine ⟨hretry, fun id n answer hmem => ?_⟩
    rw [hlog, List.mem_append] at hmem
    exact hmem.elim (h.outstanding id n answer) fun hmem => hes _ hmem id n answer rfl
  cases hstep with
  | native e he =>
    refine hadd [e] rfl ?_ h.retry
    rintro e' hmem id n answer rfl
    rw [List.mem_singleton] at hmem
    subst hmem
    cases he
  | setLimit limit => exact hadd [] (by simp) (by simp) h.retry
  | enqueue data => exact hadd [_] rfl (by simp) h.retry
  | enqueueNothing | alert | handshakeOpen | notify => exact hadd [_] rfl (by simp) h.retry
  | handshake => exact hadd [_, _] rfl (by simp) h.retry
  | create | free => exact hadd [_] rfl (by simp) fun _ hc => by cases hc
  | reset => exact hadd [] (by simp [Session.reset, forget]) (by simp) fun _ hc => by cases hc
  | discard => exact hadd [_] rfl (by simp) h.retry
  | beginShutdown hlive hready hretry => exact hadd [] (by simp) (by simp) fun _ _ => hretry
  | queuedRejected hlive => exact hadd [_, _] rfl (by simp) h.retry
  | read id answer hlive =>
    refine hadd [_] rfl (by simp) fun _ hclosing => ?_
    have hevent := hlog (.sslRead id answer v.directRetry) (by simp)
    cases hcloses : answer.closes with
    | true =>
      have hfree : v.directRetry = false := by simpa [Event.closesInRetry, hcloses] using hevent
      exact hfree
    | false => exact h.retry (by simp [hlive]) (by simpa [hcloses] using hclosing)
  | directWrite id data answer hlive hready hopen =>
    exact hadd [.sslWrite id .direct data answer (v.retryLen ≠ 0) v.queue.bytes] (by simp)
      (by simp) fun _ hclosing => by simp [hopen] at hclosing
  | shutdown id answer hlive hready hclosing hempty =>
    refine hadd [_] rfl ?_ h.retry
    simp only [List.mem_singleton, forall_eq, Event.sslShutdown.injEq]
    rintro _ _ _ ⟨-, -, rfl, -⟩
    by_contra hl
    have hfree := h.retry (by simp [hlive]) hclosing
    have hqueued : v.retryQueued = true := by simpa [directRetry, hl] using hfree
    exact hr.bytes hs.queue hlive hl hqueued hempty
  | queuedWrite id left answer hlive =>
    have hretry (w : Session) (hlen : w.retryLen = (v.settle (v.offered left) true answer).retryLen)
        (hq : w.retryQueued = (v.settle (v.offered left) true answer).retryQueued)
        (hclosing : w.closing = v.closing) :
        w.live ≠ none → w.closing = true → w.directRetry = false := by
      intro _ hc
      have hsettled := settle_retryQueued (v.offered left) answer
        (h.retry (by simp [hlive]) (hclosing ▸ hc))
      simpa only [directRetry, hlen, hq] using hsettled
    rcases afterFlush_cases (v.queue.requested left) answer
        ((v.settle (v.offered left) true answer).note
          [.sslWrite id .queued (v.offered left) answer (v.retryLen ≠ 0) 0]) with
      ⟨-, -, he⟩ | ⟨-, he⟩ | ⟨-, -, he⟩
    · rw [he]
      exact hadd [.sslWrite id .queued (v.offered left) answer (v.retryLen ≠ 0) 0] (by simp)
        (by simp) (hretry _ rfl rfl (by simp))
    · rw [he]
      exact hadd [.sslWrite id .queued (v.offered left) answer (v.retryLen ≠ 0) 0] (by simp)
        (by simp) (hretry _ rfl rfl (by simp))
    · rw [he]
      exact hadd [.sslWrite id .queued (v.offered left) answer (v.retryLen ≠ 0) 0,
        .discarded v.live] (by simp) (by simp) (hretry _ rfl rfl (by simp))

/-- While the peer never closes during a direct retry, no shutdown waits on one. -/
theorem Reachable.closingInv {v : Session} (h : Reachable v)
    (hlog : ∀ e ∈ v.log, e.closesInRetry = false) : v.ClosingInv := by
  refine (h.induct (I := fun v => (v.RetryInv ∧ v.Numbered) ∧
    ((∀ e ∈ v.log, e.closesInRetry = false) → v.ClosingInv)) (fun v hv => ?_) ?_).2 hlog
  · have hr : Reachable v := ⟨v, hv, .refl v⟩
    refine ⟨⟨hr.retryInv, hr.numbered⟩, fun _ => ⟨fun hlive => absurd hv.live hlive, ?_⟩⟩
    exact fun id n answer hmem => absurd (hv.native _ hmem) (by simp [Event.native])
  · intro v v' ⟨⟨hr, hn⟩, hi⟩ hs hstep
    refine ⟨⟨hr.step hn hs hstep, hn.step hstep⟩, fun hlog' => ?_⟩
    exact (hi fun e he => hlog' e (hstep.log_subset he)).step hr hs hstep hlog'

structure DrainInv (v : Session) : Prop where
  order : Always (fun pre e => Quiet pre e ∧ Drained pre e) v.log
  shut : ∀ id n answer, v.live = some id → .sslShutdown id .pollStep n answer ∈ v.log →
    v.closing = true ∧ v.queue.bytes = 0
  account : ∀ id, v.live = some id → .discarded (some id) ∉ v.log →
    ∃ earlier, earlier ++ acceptedBytes id v.log = writtenBytes id v.log ++ v.queue.pending

/-- A step that adds no write, no accepted bytes and no shutdown, and leaves
the session and its queue alone. -/
theorem DrainInv.frame {v w : Session} (h : v.DrainInv) (es : List Event)
    (hlog : w.log = v.log ++ es) (hes : ∀ e ∈ es, e.plain = true) (hlive : w.live = v.live)
    (hclosing : v.closing = true → w.closing = true) (hqueue : w.queue.bytes = v.queue.bytes)
    (hpending : w.queue.pending = v.queue.pending) : w.DrainInv := by
  refine ⟨?_, fun id n answer hid hmem => ?_, fun id hid hkept => ?_⟩
  · rw [hlog]
    exact h.order.append fun e he pre => Event.plain_order (hes e he) pre
  · rw [hlog, List.mem_append] at hmem
    have hold := h.shut id n answer (hlive ▸ hid)
      (hmem.resolve_right fun he => by simpa [Event.plain] using hes _ he)
    exact ⟨hclosing hold.1, hqueue.trans hold.2⟩
  · rw [hlog, List.mem_append, not_or] at hkept
    obtain ⟨hacc, hwr⟩ := bytes_unmoved id fun e he => Event.plain_moves (hes e he)
    rw [hlog, acceptedBytes_append, writtenBytes_append, hacc, hwr, List.append_nil,
      List.append_nil, hpending]
    exact h.account id (hlive ▸ hid) hkept.1

/-- A step that ends the session, or discards the queue on its behalf. -/
theorem DrainInv.drop {v w : Session} (h : v.DrainInv) (es : List Event)
    (hlog : w.log = v.log ++ es) (hes : ∀ e ∈ es, e.plain = true)
    (hgone : ∀ id, w.live = some id → v.live = some id ∧ .discarded (some id) ∈ es ∧
      (v.closing = true → w.closing = true) ∧ w.queue = v.queue.clear) : w.DrainInv := by
  refine ⟨?_, fun id n answer hid hmem => ?_, fun id hid hkept => ?_⟩
  · rw [hlog]
    exact h.order.append fun e he pre => Event.plain_order (hes e he) pre
  · obtain ⟨hlive, -, hclosing, hqueue⟩ := hgone id hid
    rw [hlog, List.mem_append] at hmem
    have hold := h.shut id n answer hlive
      (hmem.resolve_right fun he => by simpa [Event.plain] using hes _ he)
    exact ⟨hclosing hold.1, by rw [hqueue]; rfl⟩
  · rw [hlog, List.mem_append, not_or] at hkept
    exact absurd (hgone id hid).2.1 hkept.2

/-- Nothing follows the shutdown of a session that does not wait for the queue. -/
theorem DrainInv.quiet {v : Session} (h : v.DrainInv) {e : Event} {id : ℕ}
    (hlive : v.live = some id) (he : e.session = some id)
    (hopen : v.closing = false ∨ v.queue.bytes ≠ 0) (hplain : e.plain = false → ∀ id n answer,
      e ≠ .sslShutdown id .pollStep n answer) : Quiet v.log e ∧ Drained v.log e := by
  cases hp : e.plain with
  | true => exact Event.plain_order hp v.log
  | false =>
    have hnone (id' n : ℕ) (answer : Option SslResult) (hid : id' = id) :
        .sslShutdown id' .pollStep n answer ∉ v.log := by
      intro hmem
      obtain ⟨hc, hb⟩ := h.shut id' n answer (hid ▸ hlive) hmem
      rcases hopen with ho | ho
      · simp [ho] at hc
      · exact ho hb
    refine ⟨fun id' n answer hmem => ⟨?_, ?_⟩,
      fun id' n answer h' => absurd h' (hplain hp id' n answer)⟩
    · rintro origin data result retry waiting rfl
      exact hnone id' n answer (Option.some.inj he) hmem
    · rintro data rfl
      exact hnone id' n answer (Option.some.inj he) hmem

theorem bytes_setLimit (limit : ℕ) (q : Outgoing) : (q.setLimit limit).2.bytes = q.bytes := by
  unfold Outgoing.setLimit
  split <;> rfl

/-- What a queued write hands to `SSL_write` comes first in the queue. -/
theorem offered_pending (v : Session) (left : ℕ) (hq : v.queue.Valid) (hb : v.queue.bytes ≠ 0) :
    v.offered left = v.queue.pending.take (v.offered left).length ∧
      (v.offered left).length ≤ v.queue.requested left := by
  obtain ⟨hreq, hlen, -⟩ := hq.request_eq left hb
  have hbegin (n : ℕ) : (v.queue.request left).take n =
      v.queue.pending.take ((v.queue.request left).take n).length ∧
      ((v.queue.request left).take n).length ≤ v.queue.requested left := by
    rw [hreq, List.take_take, List.take_eq_take_iff, List.length_take]
    omega
  unfold offered
  split
  · exact hbegin v.retryLen
  · have hall := hbegin (v.queue.request left).length
    rwa [List.take_length] at hall

/-- The bytes taken by a queued write leave the queue, and only these. -/
theorem DrainInv.taken {v w : Session} {id left : ℕ} {answer : SslResult} (h : v.DrainInv)
    (hq : v.queue.Valid) (hb : v.queue.bytes ≠ 0) (hlive : v.live = some id)
    (hfit : answer.ret ≤ (v.offered left).length) (retry : Bool)
    (hlog : w.log = v.log ++ [.sslWrite id .queued (v.offered left) answer retry 0])
    (hwlive : w.live = v.live)
    (hpending : w.queue.pending = v.queue.pending.drop answer.ret.toNat) : w.DrainInv := by
  refine ⟨?_, fun id' n answer hid hmem => ?_, fun id' hid hkept => ?_⟩
  · rw [hlog]
    exact h.order.snoc (h.quiet hlive rfl (.inr hb) (by simp))
  · rw [hlog, List.mem_append] at hmem
    exact absurd (h.shut id' n _ (hwlive ▸ hid) (hmem.resolve_right (by simp))).2 hb
  · rw [hwlive, hlive, Option.some.injEq] at hid
    subst hid
    rw [hlog, List.mem_append, not_or] at hkept
    obtain ⟨earlier, hbytes⟩ := h.account id hlive hkept.1
    obtain ⟨hbegin, -⟩ := v.offered_pending left hq hb
    have hnew : writtenBytes id [.sslWrite id .queued (v.offered left) answer retry 0] =
        v.queue.pending.take answer.ret.toNat := by
      simp only [writtenBytes, List.flatMap_cons, List.flatMap_nil, List.append_nil, if_pos]
      rw [hbegin, List.take_take, Nat.min_eq_left (by omega)]
    refine ⟨earlier, ?_⟩
    rw [hlog, acceptedBytes_append, writtenBytes_append, hnew, hpending, List.append_assoc,
      List.take_append_drop, ← hbytes]
    simp [acceptedBytes]

theorem DrainInv.accept {v : Session} (h : v.DrainInv) (hopen : v.closing = false)
    (data : List UInt8) (q : Outgoing) (hq : q.pending = v.queue.pending ++ data) :
    ((v.withQueue q).note [.accepted v.live data]).DrainInv := by
  refine ⟨?_, fun id n answer hid hmem => ?_, fun id hid hkept => ?_⟩
  · refine h.order.snoc ⟨fun id n answer hmem => ⟨by simp, fun data' he => ?_⟩, by simp [Drained]⟩
    have hlive : v.live = some id := (Event.accepted.inj he).1
    simp [(h.shut id n answer hlive hmem).1] at hopen
  · rw [note_log, withQueue_log, List.mem_append] at hmem
    have hold := h.shut id n answer hid (hmem.resolve_right (by simp))
    simp [hold.1] at hopen
  · have hlive : v.live = some id := hid
    rw [note_log, withQueue_log, List.mem_append, not_or] at hkept
    obtain ⟨earlier, hbytes⟩ := h.account id hlive hkept.1
    have hnew : acceptedBytes id [.accepted v.live data] = data := by simp [acceptedBytes, hlive]
    have hold : writtenBytes id [.accepted v.live data] = [] := rfl
    refine ⟨earlier, ?_⟩
    rw [note_log, withQueue_log, acceptedBytes_append, writtenBytes_append, hnew, hold,
      List.append_nil, note_queue, withQueue_queue, hq, ← List.append_assoc, hbytes,
      List.append_assoc]

/-- Nothing has happened yet on a session that has just been opened. -/
theorem DrainInv.opened {v w : Session} (h : v.DrainInv) (hn : v.Numbered)
    (hlog : w.log = v.log ++ [.sslNew v.fresh]) (hlive : w.live = some v.fresh) : w.DrainInv := by
  have hold (e : Event) (he : e ∈ v.log) : e.session ≠ some v.fresh :=
    fun hid => absurd (hn.events e he _ hid) (Nat.lt_irrefl _)
  refine ⟨?_, fun id n answer hid hmem => ?_, fun id hid _ => ?_⟩
  · rw [hlog]
    refine h.order.append fun e he pre => Event.plain_order ?_ pre
    rw [List.mem_singleton.mp he]
    rfl
  · rw [hlive, Option.some.injEq] at hid
    rw [hlog, List.mem_append] at hmem
    exact absurd (congr_arg some hid.symm) (hold _ (hmem.resolve_right (by simp)))
  · rw [hlive, Option.some.injEq] at hid
    subst hid
    obtain ⟨hacc, hwr⟩ := bytes_unmoved v.fresh fun e he => Event.moves_of_session (hold e he)
    refine ⟨w.queue.pending, ?_⟩
    rw [hlog, acceptedBytes_append, writtenBytes_append, hacc, hwr]
    simp [acceptedBytes, writtenBytes]

theorem DrainInv.direct {v : Session} {id : ℕ} (h : v.DrainInv) (hlive : v.live = some id)
    (hopen : v.closing = false) (data : List UInt8) (answer : SslResult) (retry : Bool) (waiting : ℕ) :
    ((v.settle data false answer).note [.sslWrite id .direct data answer retry waiting]).DrainInv := by
  refine ⟨?_, fun id' n answer hid hmem => ?_, fun id' hid hkept => ?_⟩
  · rw [note_log, settle_log]
    exact h.order.snoc (h.quiet hlive rfl (.inl hopen) (by simp))
  · rw [note_log, settle_log, List.mem_append] at hmem
    rw [note_live, settle_live] at hid
    have hold := h.shut id' n _ hid (hmem.resolve_right (by simp))
    simp [hold.1] at hopen
  · rw [note_log, settle_log, List.mem_append, not_or] at hkept
    rw [note_live, settle_live] at hid
    simpa [acceptedBytes, writtenBytes] using h.account id' hid hkept.1

theorem DrainInv.queued {v : Session} {id left : ℕ} {answer : SslResult} (h : v.DrainInv)
    (hq : v.queue.Valid) (hlive : v.live = some id) (hbytes : v.queue.bytes ≠ 0)
    (hfit : answer.ret ≤ (v.offered left).length) (retry : Bool) :
    (((v.settle (v.offered left) true answer).note
      [.sslWrite id .queued (v.offered left) answer retry 0]).afterFlush
        (v.queue.requested left) answer).DrainInv := by
  obtain ⟨-, hlen⟩ := v.offered_pending left hq hbytes
  rcases afterFlush_cases (v.queue.requested left) answer
      ((v.settle (v.offered left) true answer).note
        [.sslWrite id .queued (v.offered left) answer retry 0]) with
    ⟨hret, hmax, he⟩ | ⟨hw, he⟩ | ⟨hw, hover, he⟩
  · have hcount : answer.ret.toNat ≤ v.queue.requested left := by omega
    rw [he]
    refine h.taken hq hbytes hlive hfit retry (by simp) (by simp) ?_
    simpa using (hq.advance hbytes hcount).2
  · have hret : answer.ret.toNat = 0 := by
      simp only [SslResult.wants, Bool.and_eq_true, decide_eq_true_eq] at hw
      omega
    rw [he]
    exact h.taken hq hbytes hlive hfit retry (by simp) (by simp) (by simp [hret])
  · have horder := h.order.snoc (h.quiet hlive (e := .sslWrite id .queued (v.offered left) answer
      retry 0) rfl (.inr hbytes) (by simp))
    rw [he]
    refine ⟨?_, fun id' n answer hid hmem => ?_, fun id' hid hkept => ?_⟩
    · rw [note_log, withQueue_log, note_log, settle_log]
      refine horder.append fun e he pre => Event.plain_order ?_ pre
      rw [List.mem_singleton.mp he]
      rfl
    · have hid' : v.live = some id' := by simpa using hid
      have hmem' : .sslShutdown id' .pollStep n answer ∈ v.log := by simpa using hmem
      exact absurd (h.shut id' n answer hid' hmem').2 hbytes
    · have hid' : v.live = some id' := by simpa using hid
      exact absurd (by simp [hid']) hkept

theorem DrainInv.shutdown {v : Session} {id : ℕ} (h : v.DrainInv) (hq : v.queue.Valid)
    (hlive : v.live = some id) (hclosing : v.closing = true) (hempty : v.queue.bytes = 0) (n : ℕ)
    (answer : Option SslResult) : (v.note [.sslShutdown id .pollStep n answer]).DrainInv := by
  have hpending : v.queue.pending = [] :=
    List.length_eq_zero_iff.mp (hq.bytes_eq.symm.trans hempty)
  refine ⟨h.order.snoc ⟨fun _ _ _ _ => by simp, fun id' n' _ he => ?_⟩, fun _ _ _ _ _ =>
    ⟨hclosing, hempty⟩, fun id' hid hkept => ?_⟩
  · obtain rfl : id = id' := by
      simp only [Event.sslShutdown.injEq] at he
      exact he.1
    by_cases hkept : .discarded (some id) ∈ v.log
    · exact .inl hkept
    · obtain ⟨earlier, hbytes⟩ := h.account id hlive hkept
      exact .inr ⟨earlier, by rw [hbytes, hpending, List.append_nil]⟩
  · rw [note_log, List.mem_append, not_or] at hkept
    simpa [acceptedBytes, writtenBytes] using h.account id' hid hkept.1

theorem DrainInv.step {v v' : Session} (h : v.DrainInv) (hn : v.Numbered) (hs : v.Sound)
    (hstep : Step v v') : v'.DrainInv := by
  cases hstep with
  | native e he => exact h.frame [e] rfl (by simpa using Event.plain_native he) rfl id rfl rfl
  | setLimit limit =>
    exact h.frame [] (by simp) (by simp) rfl id (bytes_setLimit limit v.queue)
      (Outgoing.pending_setLimit v.queue limit)
  | enqueue data hopen hd hroom =>
    have hq := (hs.queue.append hd).2
    rw [hroom, if_pos rfl] at hq
    exact h.accept hopen data _ hq
  | enqueueNothing hopen => exact h.accept hopen [] v.queue (by simp)
  | create hlive => exact h.opened hn rfl rfl
  | free id hlive =>
    exact h.drop [.sslFree id] rfl (by simp [Event.plain]) fun id' hid => by simp at hid
  | reset hlive =>
    exact h.drop [] (by simp [Session.reset, forget]) (by simp) fun id hid => by
      simp [Session.reset, forget, hlive] at hid
  | discard tag hretry htag =>
    refine h.drop [.discarded tag] rfl (by simp [Event.plain]) fun id hid => ?_
    have hlive : v.live = some id := hid
    rcases htag with htag | htag
    · simp [hlive] at htag
    · exact ⟨hlive, by simp [htag, hlive], fun hc => hc, rfl⟩
  | queuedRejected hlive =>
    refine h.drop [.retryRejected .queued, .discarded v.live] rfl (by simp [Event.plain])
      fun id hid => ?_
    have hid' : v.live = some id := hid
    exact ⟨hid', by simp [hid'], fun hc => hc, rfl⟩
  | alert | handshakeOpen | notify =>
    exact h.frame [_] rfl (by simp [Event.plain]) rfl (fun hc => hc) rfl rfl
  | handshake => exact h.frame [_, _] rfl (by simp [Event.plain]) rfl (fun hc => hc) rfl rfl
  | read =>
    exact h.frame [_] rfl (by simp [Event.plain]) rfl (fun hc => by simp [hc]) rfl rfl
  | beginShutdown => exact h.frame [] (by simp) (by simp) rfl (fun _ => rfl) rfl rfl
  | directWrite id data answer hlive hready hopen =>
    exact h.direct hlive hopen data answer (v.retryLen ≠ 0) v.queue.bytes
  | queuedWrite id left answer hlive hready hbytes hpos hleft hretry hfit =>
    exact h.queued hs.queue hlive hbytes hfit (v.retryLen ≠ 0)
  | shutdown id answer hlive hready hclosing hempty =>
    exact h.shutdown hs.queue hlive hclosing hempty v.retryLen (some answer)

theorem Reachable.drainInv {v : Session} (h : Reachable v) : v.DrainInv := by
  refine (h.induct (I := fun v => v.DrainInv ∧ v.Numbered) (fun v hv => ⟨⟨?_, ?_, ?_⟩, ?_⟩)
    fun v v' hi hs hstep => ⟨hi.1.step hi.2 hs hstep, hi.2.step hstep⟩).1
  · exact fun pre e post he => Event.plain_order (Event.plain_native (hv.native e (by simp [he]))) pre
  · simp [hv.live]
  · simp [hv.live]
  · exact Reachable.numbered ⟨v, hv, .refl v⟩

end Session

end Aeon
