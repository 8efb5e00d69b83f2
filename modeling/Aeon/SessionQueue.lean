import Aeon.SessionShutdown

/-!
# What is queued on a session

The bytes that the history says are queued, and that a session which starts with
an empty queue only has bytes that were accepted on it.
-/

namespace Aeon

open History

/-- What an event does to the bytes that are queued. -/
def Event.queueAfter (queued : List UInt8) : Event → List UInt8
  | .accepted _ data => queued ++ data
  | .sslWrite _ .queued _ result _ _ => queued.drop result.ret.toNat
  | .discarded _ => []
  | _ => queued

/-- The bytes that are queued, by the history. -/
def queuedBy (log : List Event) : List UInt8 := log.foldl Event.queueAfter []

theorem queuedBy_snoc (log : List Event) (e : Event) :
    queuedBy (log ++ [e]) = e.queueAfter (queuedBy log) := by
  simp [queuedBy]

theorem queuedBy_append {log es : List Event} (h : ∀ e ∈ es, ∀ q, e.queueAfter q = q) :
    queuedBy (log ++ es) = queuedBy log := by
  rw [queuedBy, List.foldl_append, ← queuedBy]
  induction es with
  | nil => rfl
  | cons e es ih =>
    rw [List.foldl_cons, h e List.mem_cons_self]
    exact ih fun e' he' => h e' (List.mem_cons_of_mem _ he')

theorem Event.queueAfter_native {e : Event} (h : e.native = true) (q : List UInt8) :
    e.queueAfter q = q := by
  cases e with
  | accepted | sslWrite | discarded => cases h
  | _ => rfl

/-- No session starts in place of another one with bytes still queued. -/
def CleanStarts (log : List Event) : Prop :=
  ∀ pre old new post, log = pre ++ .sslFree old :: .sslNew new :: post → queuedBy pre = []

theorem CleanStarts.of_prefix {log log' : List Event} (h : CleanStarts log') (hlog : log <+: log') :
    CleanStarts log := by
  obtain ⟨es, rfl⟩ := hlog
  rintro pre old new post rfl
  exact h pre old new (post ++ es) (by simp)

namespace Session

/-- The queue holds what the history says. -/
theorem Reachable.queued {v : Session} (h : v.Reachable) : v.queue.pending = queuedBy v.log := by
  have hnone {w : Session} {q : List UInt8} {es : List Event} (hw : q = queuedBy w.log)
      (hes : ∀ e ∈ es, ∀ q, e.queueAfter q = q) : q = queuedBy (w.log ++ es) :=
    hw.trans (queuedBy_append hes).symm
  refine h.induct (I := fun v => v.queue.pending = queuedBy v.log) (fun v hv => ?_) fun v v' hv hs hstep => ?_
  · rw [hv.queue]
    have hempty : v.log = [] ++ v.log := rfl
    rw [hempty, queuedBy_append fun e he => Event.queueAfter_native (hv.native e he)]
    rfl
  · cases hstep with
    | native e he =>
      exact hnone hv fun e' he' => List.mem_singleton.mp he' ▸ Event.queueAfter_native he
    | setLimit limit => exact (Outgoing.pending_setLimit _ _).trans hv
    | enqueue data hopen hd hroom =>
      show (v.queue.append data).2.pending = queuedBy (v.log ++ [.accepted v.live data])
      rw [(hs.queue.append hd).2, if_pos hroom, queuedBy_snoc, ← hv]
      rfl
    | enqueueNothing =>
      show v.queue.pending = queuedBy (v.log ++ [.accepted v.live []])
      rw [queuedBy_snoc, ← hv]
      exact (List.append_nil _).symm
    | discard tag =>
      show v.queue.clear.pending = queuedBy (v.log ++ [.discarded tag])
      rw [queuedBy_snoc, Outgoing.pending_clear]
      rfl
    | queuedRejected =>
      show v.queue.clear.pending = queuedBy (v.log ++ [.retryRejected .queued, .discarded v.live])
      rw [show [Event.retryRejected .queued, .discarded v.live] =
        [.retryRejected .queued] ++ [.discarded v.live] from rfl, ← List.append_assoc, queuedBy_snoc,
        Outgoing.pending_clear]
      rfl
    | queuedWrite id left answer hlive hready hbytes =>
      have hwrite (w : Session) (hw : w.log = v.log ++
          [.sslWrite id .queued (v.offered left) answer (v.retryLen ≠ 0) 0]) :
          queuedBy w.log = v.queue.pending.drop answer.ret.toNat := by
        rw [hw, queuedBy_snoc, ← hv]
        rfl
      rcases afterFlush_cases (v.queue.requested left) answer
          ((v.settle (v.offered left) true answer).note
            [.sslWrite id .queued (v.offered left) answer (v.retryLen ≠ 0) 0]) with
        ⟨hret, hle, he⟩ | ⟨hw, he⟩ | ⟨-, -, he⟩
      · rw [he, withQueue_log, hwrite _ (by simp)]
        have hcount : answer.ret.toNat ≤ v.queue.requested left := by omega
        simpa using (hs.queue.advance hbytes hcount).2
      · have hret : answer.ret ≤ 0 := by
          simp only [SslResult.wants, Bool.and_eq_true, decide_eq_true_eq] at hw
          exact hw.1
        rw [he, hwrite _ (by simp), Int.toNat_of_nonpos hret]
        simp
      · rw [he, note_log, withQueue_log, queuedBy_snoc]
        exact Outgoing.pending_clear _
    | create | free | alert | handshakeOpen | read | shutdown | notify =>
      exact hnone (w := v) hv fun e' he' q => List.mem_singleton.mp he' ▸ rfl
    | directWrite id data answer =>
      rw [note_queue, settle_queue, note_log, settle_log]
      exact hnone hv fun e' he' q => List.mem_singleton.mp he' ▸ rfl
    | handshake id strict verified =>
      refine hnone hv fun e' he' q => ?_
      simp only [List.mem_cons, List.not_mem_nil, or_false] at he'
      rcases he' with rfl | rfl <;> rfl
    | reset | beginShutdown => exact hv

/-- Everything that is queued was accepted on this session. -/
def Owned (id : ℕ) (v : Session) : Prop := v.queue.pending <:+ acceptedBytes id v.log

theorem Owned.step {id : ℕ} {v v' : Session} (h : v.Owned id) (hlive : v.live = some id)
    (hs : v.Sound) (hstep : Step v v') : v'.Owned id := by
  have hless {w : Session} (es : List Event) (hlog : w.log = v.log ++ es)
      (hes : acceptedBytes id es = []) (hq : w.queue.pending <:+ v.queue.pending) : w.Owned id := by
    unfold Owned
    rw [hlog, acceptedBytes_append, hes, List.append_nil]
    exact hq.trans h
  have hclear : v.queue.clear.pending <:+ v.queue.pending := by
    rw [Outgoing.pending_clear]
    exact List.nil_suffix
  cases hstep with
  | native e he =>
    exact hless [e] rfl (bytes_unmoved id fun e' he' => Event.plain_moves
      (List.mem_singleton.mp he' ▸ Event.plain_native he)).1 List.suffix_rfl
  | setLimit limit =>
    have hsame : (v.withQueue (v.queue.setLimit limit).2).queue.pending = v.queue.pending := by
      rw [withQueue_queue, Outgoing.pending_setLimit]
    exact hless [] (by simp) rfl (hsame ▸ List.suffix_rfl)
  | enqueue data hopen hd hroom =>
    show (v.queue.append data).2.pending <:+ acceptedBytes id (v.log ++ [.accepted v.live data])
    obtain ⟨earlier, hearlier⟩ : v.queue.pending <:+ acceptedBytes id v.log := h
    rw [(hs.queue.append hd).2, if_pos hroom, acceptedBytes_append, ← hearlier]
    exact ⟨earlier, by simp [acceptedBytes, hlive]⟩
  | enqueueNothing =>
    refine hless [.accepted v.live []] rfl ?_ List.suffix_rfl
    simp [acceptedBytes]
  | discard tag => exact hless [.discarded tag] rfl rfl hclear
  | queuedRejected =>
    exact hless [.retryRejected .queued, .discarded v.live] rfl rfl hclear
  | queuedWrite i left answer hlive' hready hbytes =>
    obtain ⟨write, hwrite⟩ : ∃ write : Event, write = .sslWrite i .queued (v.offered left) answer
        (v.retryLen ≠ 0) 0 := ⟨_, rfl⟩
    rw [← hwrite]
    have hlog : ((v.settle (v.offered left) true answer).note [write]).log = v.log ++ [write] := by
      simp
    have hnone : acceptedBytes id [write] = [] := by
      rw [hwrite]
      rfl
    rcases afterFlush_cases (v.queue.requested left) answer
        ((v.settle (v.offered left) true answer).note [write]) with
      ⟨hret, hle, he⟩ | ⟨-, he⟩ | ⟨-, -, he⟩
    · have hcount : answer.ret.toNat ≤ v.queue.requested left := by omega
      rw [he]
      refine hless [write] hlog hnone ?_
      rw [withQueue_queue, note_queue, settle_queue, (hs.queue.advance hbytes hcount).2]
      exact List.drop_suffix _ _
    · rw [he]
      have hsame : ((v.settle (v.offered left) true answer).note [write]).queue = v.queue := by
        rw [note_queue, settle_queue]
      exact hless [write] hlog hnone (hsame ▸ List.suffix_rfl)
    · rw [he]
      refine hless [write, .discarded (some i)] ?_ ?_ ?_
      · simp [hlive']
      · rw [hwrite]
        rfl
      · rw [note_queue, withQueue_queue, note_queue, settle_queue]
        exact hclear
  | directWrite i data answer =>
    obtain ⟨write, hwrite⟩ : ∃ write : Event, write = .sslWrite i .direct data answer
        (v.retryLen ≠ 0) v.queue.bytes := ⟨_, rfl⟩
    rw [← hwrite]
    have hsame : ((v.settle data false answer).note [write]).queue = v.queue := by
      rw [note_queue, settle_queue]
    exact hless [write] (by simp) (hwrite ▸ rfl) (hsame ▸ List.suffix_rfl)
  | create | free | alert | handshakeOpen | read | shutdown | notify =>
    exact hless [_] rfl rfl List.suffix_rfl
  | handshake => exact hless [_, _] rfl rfl List.suffix_rfl
  | reset | beginShutdown => exact hless [] (List.append_nil _).symm rfl List.suffix_rfl

/-- A session that is live from the first to the last step keeps that. -/
theorem Steps.owned {id : ℕ} {v v' : Session} (h : Steps v v') (hs : v.Sound) (hn : id < v.fresh)
    (hv : v.live = some id → v.Owned id) (hlive : v'.live = some id) : v'.Owned id := by
  refine (h.keeps (I := fun v => id < v.fresh ∧ (v.live = some id → v.Owned id))
    (fun w w' hw hs hstep => ?_) hs ⟨hn, hv⟩).1.2 hlive
  obtain ⟨hn, hw⟩ := hw
  cases hstep.grows with
  | same es hlog hfresh hlive' =>
    exact ⟨hfresh ▸ hn, fun hid => (hw (hlive' id hid)).step (hlive' id hid) hs hstep⟩
  | opened hlog hfresh hlive' =>
    refine ⟨hfresh ▸ Nat.lt_succ_of_lt hn, fun hid => ?_⟩
    exact absurd (Option.some.inj (hlive'.symm.trans hid)) (Nat.ne_of_gt hn)

end Session

end Aeon
