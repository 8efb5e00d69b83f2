import Aeon.SessionModel

/-!
# Writing and reading are session steps
-/

namespace Aeon

open Errno Session

namespace SslEventSocket

/-- What a TLS object is to the model. -/
def view (s : SslEventSocket) : Session where
  log := s.log
  queue := s.outgoing
  live := s.session
  fresh := s.nextSession
  ready := s.tlsReady
  closing := s.shutdownRequested
  retryLen := s.pendingWriteLen
  retryQueued := s.pendingWriteQueued
  retryHash := s.pendingWriteHash

variable {e : TlsHost} {s : SslEventSocket}

@[simp] theorem view_setError (code : Int) : (s.setError code).view = s.view := rfl

@[simp] theorem view_ticked : s.ticked.view = s.view := rfl

@[simp] theorem view_clock : (s.clock e).2.view = s.view := rfl

@[simp] theorem view_record (ev : Event) : (s.record ev).view = s.view.note [ev] := rfl

/-- The function is a sequence of steps from every sound object. -/
def Refines {α : Type} (f : SslEventSocket → α × SslEventSocket) : Prop :=
  ∀ s, s.view.Sound → Steps s.view (f s).2.view

theorem queueWrite_refines (data : Option (List UInt8)) : Refines (queueWrite data) := by
  intro s hs
  cases hc : s.shutdownRequested with
  | true =>
    have he : s.toEventSocket.queueWrite (!s.shutdownRequested) data = (false, s.toEventSocket) := by
      rw [hc]
      exact if_pos (by simp)
    exact Steps.of_eq (by rw [queueWrite, he]; rfl)
  | false =>
    rcases s.toEventSocket.queueWrite_cases (!s.shutdownRequested) data with
      he | ⟨he, hd⟩ | ⟨hd, -, -, -, -, he⟩
    · exact Steps.of_eq (by rw [queueWrite, he]; rfl)
    · refine Steps.one ?_
      rw [queueWrite, he, hd]
      exact .enqueueNothing hc
    · rw [queueWrite, he]
      cases hroom : (s.outgoing.append (data.getD [])).1 with
      | false =>
        have hsame := Outgoing.append_refused hroom
        refine Steps.of_eq ?_
        simp only [EventSocket.withOutgoing, hroom, hsame]
        rfl
      | true =>
        refine Steps.one ?_
        simp only [EventSocket.withOutgoing, hroom, if_true]
        exact Step.enqueue (v := s.view) _ hc hd hroom

theorem setMaxQueuedBytes_refines (limit : UInt64) :
    Refines (setMaxQueuedBytes limit.toNat) := by
  intro s hs
  exact Steps.one (.setLimit (v := s.view) _ limit.toNat_lt)

theorem beginGracefulShutdown_refines (timeoutMs : Int) :
    Refines (beginGracefulShutdown e timeoutMs) := by
  intro s hs
  unfold beginGracefulShutdown
  split
  · exact Steps.refl _
  · rename_i hguard
    split
    · exact Steps.refl _
    · simp only [Bool.or_eq_true, not_or, Bool.not_eq_true] at hguard
      obtain ⟨⟨⟨⟨⟨⟨-, hready⟩, hlive⟩, -⟩, -⟩, -⟩, hretry⟩ := hguard
      refine Steps.one (Step.beginShutdown (v := s.view) ?_ ?_ hretry)
      · exact fun hnone => by simp [show s.session = none from hnone] at hlive
      · show s.tlsReady = true
        simpa using hready

theorem setHandshakeTimeout_refines (milliseconds : Int) :
    Refines (setHandshakeTimeout e milliseconds) := by
  intro s hs
  refine Steps.of_eq ?_
  unfold setHandshakeTimeout
  split
  · rfl
  · dsimp only
    split <;> rfl

theorem pollTimeoutMs_refines : Refines (pollTimeoutMs e) := by
  intro s hs
  refine Steps.of_eq ?_
  unfold pollTimeoutMs
  split
  · rfl
  · split
    · rfl
    · split <;> rfl

theorem pollHasBufferedInput_refines : Refines (pollHasBufferedInput e) := by
  intro s hs
  refine Steps.of_eq ?_
  unfold pollHasBufferedInput
  split <;> rfl

/-- What `poll_receive` does once it calls `SSL_read`. -/
theorem pollReceive_view {id : ℕ} (room : ℕ) (hlive : s.session = some id) (hready : s.tlsReady = true) :
    (s.pollReceive e room).2.view =
      { s.view with closing := s.shutdownRequested || (e.sslRead s.tick room).closes }.note
        [.sslRead id (e.sslRead s.tick room) s.directRetry] := by
  unfold pollReceive
  simp only [hlive, hready, Bool.not_true, Bool.false_eq_true, if_false]
  by_cases hpos : (e.sslRead s.tick room).ret > 0
  · have hcloses : (e.sslRead s.tick room).closes = false := by simp [SslResult.closes]; omega
    rw [if_pos hpos, hcloses, Bool.or_false]
    rfl
  · have hret : (e.sslRead s.tick room).ret ≤ 0 := by omega
    rw [if_neg hpos]
    by_cases hzero : (e.sslRead s.tick room).code = .zeroReturn
    · have hcloses : (e.sslRead s.tick room).closes = true := by simp [SslResult.closes, hret, hzero]
      rw [if_pos hzero, hcloses, Bool.or_true]
      cases hreq : s.shutdownRequested with
      | true => simp [hreq, record, ticked, Socket.ticked, Socket.record, wouldBlock, view,
          Session.note]
      | false => simp [hreq, record, ticked, Socket.ticked, Socket.record, wouldBlock, view,
          Session.note, clock]
    · have hcloses : (e.sslRead s.tick room).closes = false := by simp [SslResult.closes, hzero]
      rw [if_neg hzero, hcloses, Bool.or_false]
      split <;> rfl

theorem pollReceive_refines (room : ℕ) : Refines (pollReceive e room) := by
  intro s hs
  cases hlive : s.session with
  | none => exact Steps.of_eq (by rw [pollReceive, hlive]; rfl)
  | some id =>
    cases hready : s.tlsReady with
    | false =>
      refine Steps.of_eq ?_
      simp only [pollReceive, hlive, hready, Bool.not_false, if_true]
      rfl
    | true =>
      rw [pollReceive_view room hlive hready]
      exact Steps.one (.read (v := s.view) id (e.sslRead s.tick room) hlive hready)

theorem wants_iff {answer : SslResult} (h : ¬answer.ret > 0) :
    answer.wants = true ↔ answer.code = .wantRead ∨ answer.code = .wantWrite := by
  have hret : answer.ret ≤ 0 := by omega
  simp [SslResult.wants, hret]

/-- The retry after an `SSL_write`, and what the caller of the hook is told. -/
theorem afterWrite_view (data : List UInt8) (queued : Bool) (answer : SslResult)
    (s : SslEventSocket) :
    (s.afterWrite data queued answer).2.view = s.view.settle data queued answer ∧
      (s.afterWrite data queued answer).1 = if answer.ret > 0 then ⟨answer.ret, 0⟩
        else if answer.wants then ⟨-1, EWOULDBLOCK⟩ else ⟨-1, EPROTO⟩ := by
  unfold afterWrite settle
  by_cases hpos : answer.ret > 0
  · rw [if_pos hpos, if_pos hpos, if_pos hpos]
    exact ⟨rfl, rfl⟩
  · simp only [if_neg hpos]
    by_cases hw : answer.wants = true
    · have hcode := (wants_iff hpos).mp hw
      simp only [if_pos hw, if_pos hcode]
      refine ⟨?_, rfl⟩
      show SslEventSocket.view _ = if s.pendingWriteLen ≠ 0 then _ else _
      by_cases hlen : s.pendingWriteLen ≠ 0
      · simp only [if_pos hlen]
        rfl
      · simp only [if_neg hlen]
        rfl
    · have hcode := fun h => hw ((wants_iff hpos).mpr h)
      simp only [if_neg hw, if_neg hcode]
      exact ⟨rfl, rfl⟩

/-- Everything that `send_tls` can do. -/
theorem sendTls_cases (data : List UInt8) (queued : Bool) (s : SslEventSocket) :
    (s.sendTls e data queued = s.transportError ∧
      (s.session = none ∨ s.tlsReady = false ∨ data = [] ∨
        (s.shutdownRequested = true ∧ queued = false))) ∨
    (s.sendTls e data queued = s.wouldBlock ∧
      ((queued = false ∧ s.pendingWriteLen = 0 ∧ s.queuedBytes ≠ 0) ∨
        (s.pendingWriteLen ≠ 0 ∧ queued ≠ s.pendingWriteQueued))) ∨
    (s.sendTls e data queued = (s.record (.retryRejected (origin queued))).transportError ∧
      s.session ≠ none ∧ s.tlsReady = true ∧ s.pendingWriteLen ≠ 0 ∧
      queued = s.pendingWriteQueued ∧ s.retryMismatch data queued = true) ∨
    ∃ id requested, s.session = some id ∧ s.tlsReady = true ∧ data ≠ [] ∧
      (s.shutdownRequested = true → queued = true) ∧
      (queued = false → s.pendingWriteLen = 0 → s.queuedBytes = 0) ∧
      (s.pendingWriteLen ≠ 0 → queued = s.pendingWriteQueued ∧ s.retryMismatch data queued = false) ∧
      requested = (if s.pendingWriteLen ≠ 0 then data.take s.pendingWriteLen else data) ∧
      s.sendTls e data queued = (s.ticked.record (.sslWrite id (origin queued) requested
        (e.sslWrite s.tick requested.length) (s.pendingWriteLen ≠ 0)
          (if queued then 0 else s.queuedBytes))).afterWrite requested queued
            (e.sslWrite s.tick requested.length) := by
  unfold sendTls
  cases hlive : s.session with
  | none => exact Or.inl ⟨rfl, Or.inl rfl⟩
  | some id =>
    dsimp only
    by_cases hbad : (!s.tlsReady || data.isEmpty || (s.shutdownRequested && !queued)) = true
    · rw [if_pos hbad]
      refine Or.inl ⟨rfl, Or.inr ?_⟩
      simpa [or_assoc] using hbad
    · rw [if_neg hbad]
      simp only [Bool.or_eq_true, not_or, Bool.not_eq_true', Bool.and_eq_true, not_and,
        List.isEmpty_iff, Bool.not_eq_false] at hbad
      obtain ⟨⟨hready, hd⟩, hclosing⟩ := hbad
      by_cases hjump : (!queued && s.pendingWriteLen = 0 && s.queuedBytes ≠ 0) = true
      · rw [if_pos hjump]
        refine Or.inr (Or.inl ⟨rfl, Or.inl ?_⟩)
        simpa [and_assoc] using hjump
      · rw [if_neg hjump]
        by_cases hother : (s.pendingWriteLen ≠ 0 && queued ≠ s.pendingWriteQueued) = true
        · rw [if_pos hother]
          refine Or.inr (Or.inl ⟨rfl, Or.inr ?_⟩)
          simpa using hother
        · rw [if_neg hother]
          have hsame : s.pendingWriteLen ≠ 0 → queued = s.pendingWriteQueued := by
            simpa using hother
          by_cases hmis : (s.pendingWriteLen ≠ 0 && s.retryMismatch data queued) = true
          · rw [if_pos hmis]
            have hboth : s.pendingWriteLen ≠ 0 ∧ s.retryMismatch data queued = true := by
              simpa using hmis
            exact Or.inr (Or.inr (Or.inl
              ⟨rfl, by simp, hready, hboth.1, hsame hboth.1, hboth.2⟩))
          · rw [if_neg hmis]
            have hmatch : s.pendingWriteLen ≠ 0 → s.retryMismatch data queued = false := by
              simpa using hmis
            refine Or.inr (Or.inr (Or.inr ⟨id, _, rfl, hready, hd, ?_, ?_,
              fun hl => ⟨hsame hl, hmatch hl⟩, rfl, rfl⟩))
            · intro hc
              simpa using hclosing hc
            · intro hq hl
              simpa [hq, hl] using hjump

/-- A retry that is not a mismatch offers the recorded bytes. -/
theorem retryMismatch_false {data : List UInt8} {queued : Bool}
    (h : s.retryMismatch data queued = false) : s.pendingWriteLen ≤ data.length ∧
      (queued = false → data.length = s.pendingWriteLen) ∧
      bytesHash (data.take s.pendingWriteLen) = s.pendingWriteHash := by
  simpa [retryMismatch, and_assoc] using h

theorem settle_note (data : List UInt8) (queued : Bool) (answer : SslResult) (v : Session)
    (es : List Event) : (v.note es).settle data queued answer = (v.settle data queued answer).note es := by
  unfold settle
  split
  · rfl
  · split
    · by_cases hl : v.retryLen = 0 <;> simp [hl, Session.note]
    · rfl

theorem settle_withQueue (data : List UInt8) (queued : Bool) (answer : SslResult) (v : Session)
    (q : Outgoing) :
    (v.withQueue q).settle data queued answer = (v.settle data queued answer).withQueue q := by
  unfold settle
  split
  · rfl
  · split
    · by_cases hl : v.retryLen = 0 <;> simp [hl, Session.withQueue]
    · rfl

/-- A direct write. -/
theorem sendTls_direct_refines (data : List UInt8) :
    Refines fun s => s.sendTls e data false := by
  intro s hs
  dsimp only
  rcases s.sendTls_cases (e := e) data false with
    ⟨he, -⟩ | ⟨he, -⟩ | ⟨he, -⟩ | ⟨id, requested, hlive, hready, hd, hclosing, hfirst, hretry, hreq, he⟩
  · rw [he]
    exact Steps.refl _
  · rw [he]
    exact Steps.refl _
  · rw [he]
    exact Steps.one (.native (v := s.view) (.retryRejected .direct) rfl)
  · have hreq' : requested = data := by
      rw [hreq]
      split
      · rename_i hl
        rw [← ((retryMismatch_false (hretry hl).2).2.1 rfl), List.take_length]
      · rfl
    have hopen : s.shutdownRequested = false := by simpa using hclosing
    have hstep := Step.directWrite (v := s.view) id data (e.sslWrite s.tick data.length) hlive hready
      hopen hd (hfirst rfl) (fun hl => by
        obtain ⟨-, hlen, hhash⟩ := retryMismatch_false (hretry hl).2
        rw [← hlen rfl, List.take_length] at hhash
        exact ⟨(hretry hl).1.symm, hlen rfl, hhash⟩) (e.sslWrite_le _ _)
    rw [he, (afterWrite_view _ _ _ _).1, hreq', view_record, settle_note]
    exact Steps.one hstep

@[simp] theorem view_withOutgoing (q : Outgoing) :
    ({ s with outgoing := q } : SslEventSocket).view = s.view.withQueue q := rfl

section Flush

variable {requested i : ℕ} {r : FlushResult} {q : Outgoing}

theorem flushOnce_wouldBlock : flushOnce (transport e) requested ⟨-1, EWOULDBLOCK⟩ s r q i =
    .stop r q := by
  simp [flushOnce, wouldBlockError, EWOULDBLOCK, EINTR, EAGAIN]

theorem flushOnce_failed (requested : ℕ) (r : FlushResult) (q : Outgoing) (i : ℕ) :
    ∃ code : Int, code ≠ 0 ∧
    flushOnce (transport e) requested ⟨-1, EPROTO⟩ s r q i =
      .stop { r with error := code } q.clear := by
  refine ⟨(transport e).reported s EPROTO, (transport e).reported_ne _ _, ?_⟩
  simp [flushOnce, wouldBlockError, EPROTO, EWOULDBLOCK, EINTR, EAGAIN]

theorem flushOnce_over {ret : Int} (hpos : 0 < ret) (h : (requested : Int) < ret) :
    flushOnce (transport e) requested ⟨ret, 0⟩ s r q i = .stop { r with error := errSystem } q.clear := by
  have hneg : ¬ret < 0 := by omega
  have hzero : ret ≠ 0 := by omega
  simp [flushOnce, hneg, hzero, h]

theorem flushOnce_sent {ret : Int} (hpos : 0 < ret) (h : ret ≤ (requested : Int)) :
    flushOnce (transport e) requested ⟨ret, 0⟩ s r q i =
      .again { r with bytes := r.bytes + ret.toNat } (q.advance ret.toNat) 0 := by
  have hneg : ¬ret < 0 := by omega
  have hzero : ret ≠ 0 := by omega
  have hover : ¬(requested : Int) < ret := by omega
  simp [flushOnce, hneg, hzero, hover]

theorem flushed_view (r : FlushResult) (q : Outgoing) (s : SslEventSocket)
    (calls : List (List UInt8 × IoResult)) : (flushed ⟨r, q, s, calls⟩).view =
      if r.error ≠ 0 then (s.view.withQueue q).note [.discarded s.session]
      else s.view.withQueue q := by
  unfold flushed
  dsimp only
  split <;> rfl

/-- The first send of a flush in progress, and whether the flush goes on. -/
theorem flush_step (hs : (s.view.withQueue q).Sound)
    (hb : q.bytes ≠ 0 ∧ r.bytes < sendBudget) (hretry : s.pendingWriteLen ≠ 0 → r.bytes = 0) :
    let sent := s.sendTls e (q.request (sendBudget - r.bytes)) true
    (∃ r' q', flushOnce (transport e) (q.requested (sendBudget - r.bytes)) sent.1 sent.2 r q i =
        .stop r' q' ∧ (r.error = 0 → ∀ calls, Steps (s.view.withQueue q)
          (flushed ⟨r', q', sent.2, calls⟩).view)) ∨
    ∃ r' q' i', flushOnce (transport e) (q.requested (sendBudget - r.bytes)) sent.1 sent.2 r q i =
        .again r' q' i' ∧ r'.error = r.error ∧ sent.2.pendingWriteLen = 0 ∧
        Steps (s.view.withQueue q) (sent.2.view.withQueue q') := by
  have hleft : sendBudget - r.bytes ≠ 0 := by omega
  have hpos := hs.queue.requested_pos hb.1 hleft
  obtain ⟨-, hlen, -⟩ := hs.queue.request_eq (sendBudget - r.bytes) hb.1
  rw [withQueue_queue] at hpos hlen
  have hd : q.request (sendBudget - r.bytes) ≠ [] := by
    intro hnil
    rw [hnil, List.length_nil] at hlen
    omega
  dsimp only
  rcases s.sendTls_cases (e := e) (q.request (sendBudget - r.bytes)) true with
    ⟨he, hwhy⟩ | ⟨he, -⟩ | ⟨he, hlive, hready, hl, hqueued, hmis⟩ |
      ⟨id, requested, hlive, hready, -, -, -, hown, hreq, he⟩
  · obtain ⟨code, hcode, hstop⟩ := flushOnce_failed (e := e) (s := s.setError sslErrorIo)
      (q.requested (sendBudget - r.bytes)) r q i
    rw [he]
    refine Or.inl ⟨_, _, hstop, fun _ calls => ?_⟩
    rw [flushed_view, if_pos hcode]
    refine Steps.one (.discard (v := s.view.withQueue q) s.session ?_ (Or.inr rfl))
    by_contra hl
    obtain ⟨hnone, hready⟩ := hs.retry hl
    rcases hwhy with h | h | h | h
    · exact hnone h
    · exact absurd hready (by simp [view, h])
    · exact hd h
    · exact absurd h.2 (by decide)
  · rw [he]
    refine Or.inl ⟨r, q, flushOnce_wouldBlock, fun herr calls => ?_⟩
    rw [flushed_view, if_neg fun h => h herr]
    exact Steps.refl _
  · obtain ⟨code, hcode, hstop⟩ := flushOnce_failed (e := e)
      (s := (s.record (.retryRejected .queued)).setError sslErrorIo)
      (q.requested (sendBudget - r.bytes)) r q i
    rw [he]
    refine Or.inl ⟨_, _, hstop, fun _ calls => ?_⟩
    have hzero := hretry hl
    rw [hzero, Nat.sub_zero] at hmis
    have hbad : (q.request sendBudget).length < s.pendingWriteLen ∨
        bytesHash ((q.request sendBudget).take s.pendingWriteLen) ≠ s.pendingWriteHash := by
      simpa [retryMismatch] using hmis
    have hstep := Step.queuedRejected (v := s.view.withQueue q) hlive hready hb.1
      hqueued.symm hl hbad
    rw [flushed_view, if_pos hcode]
    convert Steps.one hstep using 1
    simp [transportError, origin, Session.note, view, record, Socket.record, setError, Socket.setError]
  · have hoff : (s.view.withQueue q).offered (sendBudget - r.bytes) = requested := hreq.symm
    have hstep := Step.queuedWrite (v := s.view.withQueue q) id
      (sendBudget - r.bytes) (e.sslWrite s.tick requested.length) hlive hready hb.1 (by omega)
      (by omega) (by
        intro hl
        obtain ⟨hqueued, hmatch⟩ := hown hl
        refine ⟨hqueued.symm, by rw [hretry hl]; rfl, ?_⟩
        exact (retryMismatch_false hmatch).1) (by rw [hoff]; exact e.sslWrite_le _ _)
    generalize e.sslWrite s.tick requested.length = answer at he hstep
    obtain ⟨hview, hsent⟩ := afterWrite_view requested true answer (s.ticked.record
      (.sslWrite id (origin true) requested answer (s.pendingWriteLen ≠ 0)
        (if true = true then 0 else s.queuedBytes)))
    rw [← he] at hview hsent
    rw [view_record, view_ticked, settle_note] at hview
    rw [settle_withQueue] at hstep
    rw [hoff] at hstep
    have hlive' : (s.sendTls e (q.request (sendBudget - r.bytes)) true).2.session = s.session := by
      have h := congr_arg Session.live hview
      rwa [note_live, settle_live] at h
    generalize s.sendTls e (q.request (sendBudget - r.bytes)) true = sent at hview hsent hlive' ⊢
    obtain ⟨result, s'⟩ := sent
    dsimp only at hview hsent hlive' ⊢
    by_cases hret : answer.ret > 0
    · rw [if_pos hret] at hsent
      subst hsent
      by_cases hover : answer.ret ≤ (q.requested (sendBudget - r.bytes) : ℕ)
      · refine Or.inr ⟨_, _, _, flushOnce_sent hret hover, rfl, ?_, ?_⟩
        · have h := congr_arg Session.retryLen hview
          rwa [note_retryLen, settle, if_pos hret] at h
        · rw [afterFlush, if_pos ⟨hret, hover⟩] at hstep
          rw [hview]
          exact Steps.one hstep
      · refine Or.inl ⟨_, _, flushOnce_over hret (by omega), fun _ calls => ?_⟩
        rw [afterFlush, if_neg fun h => hover h.2, SslResult.wants_of_pos hret, if_neg Bool.false_ne_true]
          at hstep
        rw [note_queue, withQueue_queue, note_live, withQueue_live, settle_live, withQueue_note,
          withQueue_withQueue] at hstep
        rw [flushed_view, if_pos (show errSystem ≠ 0 by decide), hview, hlive']
        exact Steps.one hstep
    · rw [if_neg hret] at hsent
      by_cases hw : answer.wants = true
      · rw [if_pos hw] at hsent
        subst hsent
        refine Or.inl ⟨_, _, flushOnce_wouldBlock, fun herr calls => ?_⟩
        rw [afterFlush, if_neg fun h => hret h.1, if_pos hw] at hstep
        rw [flushed_view, if_neg fun h => h herr, hview]
        exact Steps.one hstep
      · rw [if_neg hw] at hsent
        subst hsent
        obtain ⟨code, hcode, hstop⟩ := flushOnce_failed (e := e) (s := s')
          (q.requested (sendBudget - r.bytes)) r q i
        refine Or.inl ⟨_, _, hstop, fun _ calls => ?_⟩
        rw [afterFlush, if_neg fun h => hret h.1, if_neg hw] at hstep
        rw [note_queue, withQueue_queue, note_live, withQueue_live, settle_live, withQueue_note,
          withQueue_withQueue] at hstep
        rw [flushed_view, if_pos hcode, hview, hlive']
        exact Steps.one hstep

theorem flushLoop_refines (hs : (s.view.withQueue q).Sound) (herr : r.error = 0)
    (hretry : s.pendingWriteLen ≠ 0 → r.bytes = 0) :
    Steps (s.view.withQueue q) (flushed (flushLoop (transport e) sendBudget r q i s)).view := by
  induction r, q, i, s using flushLoop.induct (transport e) sendBudget with
  | case1 r q i s hb data sent r' q' hstop =>
    rw [flushLoop_stop hb hstop]
    rcases flush_step (i := i) hs hb hretry with ⟨r₁, q₁, h₁, hsteps⟩ | ⟨r₁, q₁, i₁, h₁, -⟩
    · obtain ⟨rfl, rfl⟩ := FlushStep.stop.inj (h₁.symm.trans hstop)
      exact hsteps herr _
    · cases h₁.symm.trans hstop
  | case2 r q i s hb data sent r' q' i' hagain ih =>
    rw [flushLoop_again hb hagain]
    rcases flush_step (i := i) hs hb hretry with ⟨r₁, q₁, h₁, -⟩ | ⟨r₁, q₁, i₁, h₁, herr₁, hlen, hsteps⟩
    · cases h₁.symm.trans hagain
    · obtain ⟨rfl, rfl, rfl⟩ := FlushStep.again.inj (h₁.symm.trans hagain)
      exact hsteps.trans (ih (hsteps.sound hs) (herr₁.trans herr) fun hl => absurd hlen hl)
  | case3 r q i s hb =>
    rw [flushLoop_done hb, flushed_view, if_neg fun h => h herr]
    exact Steps.refl _

theorem flushQueued_refines : Refines (flushQueued e sendBudget) := by
  intro s hs
  unfold flushQueued EventSocket.flushQueued
  split
  · exact Steps.of_eq (by rw [flushed_view, if_neg fun h => h rfl]; rfl)
  · exact flushLoop_refines (s := s) (q := s.outgoing) (r := {}) (i := 0) hs rfl fun _ => rfl

end Flush

end SslEventSocket

end Aeon
