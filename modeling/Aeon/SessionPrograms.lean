import Aeon.CallRecords
import Aeon.SessionRuns

/-!
# Writes, shutdowns and handshakes of every program

What the steps of a session keep, stated for the TLS objects of an arbitrary
program: the retries of `SSL_write`, the order of writes and `SSL_shutdown`, and
what a handshake has to precede.
-/

namespace Aeon

open EventLoop History Session

namespace EventWorld

variable {w : EventWorld} {p : SslEventSocket → Bool}

/-- The object is a TLS object in a state that satisfies `p`. -/
def tlsIs (p : SslEventSocket → Bool) (id : ℕ) (w : EventWorld) : Bool :=
  (w.find id).any fun o => match o with
    | .tls s => p s
    | _ => false

theorem exists_of_tlsIs (id : ℕ) (h : w.tlsIs p id = true) :
    ∃ s, w.find id = some (.tls s) ∧ p s = true := by
  unfold tlsIs at h
  cases ho : w.find id with
  | none =>
    rw [ho] at h
    cases h
  | some o =>
    rw [ho] at h
    cases o with
    | tls s => exact ⟨s, rfl, h⟩
    | _ => cases h

end EventWorld

open EventWorld

/-- A client whose `SSL_write` never gets through, and whose peer has closed. -/
def stalled : TlsHost where
  toHost := .steady
  sslNew _ := true
  sslSetFd _ := true
  loadVerifyLocations _ := true
  setVerifyIdentity _ := true
  setTlsextHostName _ := true
  doHandshake _ := { ret := 1 }
  verifyOk _ := true
  sslRead _ _ := { ret := 0, code := .zeroReturn }
  sslWrite _ _ := { ret := -1, code := .wantWrite }
  sslShutdown _ := { ret := 1 }
  sentShutdown _ := true
  sslPending _ := false
  sslWrite_le _ length := by
    show (-1 : Int) ≤ length
    omega

/-- The host of such clients, whose descriptors are always ready. -/
def stalledHost : LoopHost := .same ⟨stalled, .steady⟩ { pollin := true, pollout := true }

/-- A registered client that has completed its handshake. -/
def connected : List EventOp :=
  [.createTls true, .connectTls 0 (.host (some "peer") 443), .add (some 0), .poll 0]

section Retries

variable {e : TlsHost} {s : SslEventSocket}

/-- A send that calls nothing and changes nothing but the error code, and the
history by a rejected retry at most. -/
structure Refused (s : SslEventSocket) (r : IoResult × SslEventSocket) : Prop where
  ret : r.1 = ⟨-1, Errno.EPROTO⟩
  log : r.2.log = s.log ∨ r.2.log = s.log ++ [.retryRejected .direct]
  length : r.2.pendingWriteLen = s.pendingWriteLen
  queued : r.2.pendingWriteQueued = s.pendingWriteQueued
  hash : r.2.pendingWriteHash = s.pendingWriteHash
  outgoing : r.2.outgoing = s.outgoing

/-- A direct retry with other bytes than the recorded ones is refused. -/
theorem sendTls_mismatch {data : List UInt8} (hretry : s.directRetry = true)
    (hbad : data.length ≠ s.pendingWriteLen ∨ bytesHash data ≠ s.pendingWriteHash) :
    Refused s (s.sendTls e data false) := by
  have hrecord : s.pendingWriteLen ≠ 0 ∧ s.pendingWriteQueued = false := by
    simpa [SslEventSocket.directRetry] using hretry
  rcases s.sendTls_cases (e := e) data false with
    ⟨he, -⟩ | ⟨-, hblock⟩ | ⟨he, -⟩ | ⟨id, requested, -, -, -, -, -, hsame, -, -⟩
  · rw [he]
    exact ⟨rfl, .inl rfl, rfl, rfl, rfl, rfl⟩
  · rcases hblock with ⟨-, hzero, -⟩ | ⟨-, hother⟩
    · exact absurd hzero hrecord.1
    · exact absurd hrecord.2.symm hother
  · rw [he]
    exact ⟨rfl, .inr rfl, rfl, rfl, rfl, rfl⟩
  · obtain ⟨-, hmatch⟩ := hsame hrecord.1
    obtain ⟨-, hlength, hhash⟩ := SslEventSocket.retryMismatch_false hmatch
    rw [← hlength rfl, List.take_length] at hhash
    exact hbad.elim (absurd (hlength rfl)) (absurd hhash)

/-- The retries of the sessions of every program. -/
theorem writes_repeat {h : LoopHost} {fuel id : ℕ} {w : EventWorld} (hw : Reaches h fuel w)
    (hs : w.find id = some (.tls s)) :
    Always Repeats s.log ∧ .retryRejected .queued ∉ s.log ∧
      ∀ (e : TlsHost) (data : List UInt8), s.directRetry = true →
        (data.length ≠ s.pendingWriteLen ∨ bytesHash data ≠ s.pendingWriteHash) →
        Refused s (s.sendTls e data false) := by
  have hinv := (hw.modelled hs).retryInv
  exact ⟨hinv.repeats, hinv.never, fun e data hretry hbad => sendTls_mismatch hretry hbad⟩

/-- A direct write that has to be repeated. -/
theorem writes_repeat_stalled : ∃ s,
    (after stalledHost 1 (connected ++ [.write 0 (.sized (some [1, 2]))])).find 0 = some (.tls s) ∧
      s.directRetry = true ∧ Always Repeats s.log ∧ .retryRejected .queued ∉ s.log ∧
        ∀ (e : TlsHost) (data : List UInt8), s.directRetry = true →
          (data.length ≠ s.pendingWriteLen ∨ bytesHash data ≠ s.pendingWriteHash) →
          Refused s (s.sendTls e data false) := by
  obtain ⟨s, hs, hretry⟩ := exists_of_tlsIs 0 (p := fun s => s.directRetry)
    (w := after stalledHost 1 (connected ++ [.write 0 (.sized (some [1, 2]))])) (by decide +kernel)
  exact ⟨s, hs, hretry, writes_repeat (reaches_after _ _ _) hs⟩

end Retries

section Shutdowns

variable {h : LoopHost} {fuel id : ℕ} {w : EventWorld} {s : SslEventSocket}

/-- The order of accepted bytes, writes and `SSL_shutdown` in every program. -/
theorem shutdown_drains (hw : Reaches h fuel w) (hs : w.find id = some (.tls s)) :
    Always (fun pre e => Quiet pre e ∧ Drained pre e) s.log :=
  (hw.modelled hs).drainInv.order

/-- A client that shuts its session down behind a byte that is queued. -/
def closingClient : List EventOp :=
  connected ++
    [.call 0 (.queueWrite (some [1])), .call 0 (.beginGracefulShutdown 1000), .poll 0, .poll 0]

theorem shutdown_drains_once : ∃ s,
    (after (.same ⟨.steady, .steady⟩ { pollout := true }) 1 closingClient).find 0 = some (.tls s) ∧
      .accepted (some 0) [1] ∈ s.log ∧ .sslShutdown 0 .pollStep 0 (some { ret := 1 }) ∈ s.log ∧
        Always (fun pre e => Quiet pre e ∧ Drained pre e) s.log := by
  obtain ⟨s, hs, hshut⟩ := exists_of_tlsIs 0
    (p := fun s => s.log.contains (.accepted (some 0) [1]) &&
      s.log.contains (.sslShutdown 0 .pollStep 0 (some { ret := 1 })))
    (w := after (.same ⟨.steady, .steady⟩ { pollout := true }) 1 closingClient) (by decide +kernel)
  rw [Bool.and_eq_true, List.contains_iff_mem, List.contains_iff_mem] at hshut
  exact ⟨s, hs, hshut.1, hshut.2, shutdown_drains (reaches_after _ _ _) hs⟩

/-- No shutdown waits for a direct write: the queue can be flushed, and nothing
is outstanding when `poll_step` calls `SSL_shutdown`. -/
structure Flushable (s : SslEventSocket) : Prop where
  retry : s.session ≠ none → s.shutdownRequested = true →
    s.pendingWriteLen = 0 ∨ s.pendingWriteQueued = true
  ready : s.session ≠ none → s.shutdownRequested = true → ∀ flags : Flags,
    flags.pollin = true → flags.pollout = true → (s.pollQueueReady flags = true ↔ s.queuedBytes ≠ 0)
  outstanding : ∀ id n answer, .sslShutdown id .pollStep n answer ∈ s.log → n = 0

/-- Unless the peer closes while a direct write is outstanding, a pending
shutdown never waits for one. -/
theorem shutdown_flushable (hw : Reaches h fuel w) (hs : w.find id = some (.tls s))
    (hpeer : ∀ ev ∈ s.log, ev.closesInRetry = false) : Flushable s := by
  have hinv := (hw.modelled hs).closingInv hpeer
  have hretry (hlive : s.session ≠ none) (hclosing : s.shutdownRequested = true) :
      s.directRetry = false := hinv.retry hlive hclosing
  refine ⟨fun hlive hclosing => ?_, fun hlive hclosing flags hin hout => ?_, hinv.outstanding⟩
  · simpa [SslEventSocket.directRetry, Classical.or_iff_not_imp_left] using hretry hlive hclosing
  · simp [SslEventSocket.pollQueueReady, hretry hlive hclosing, hin, hout]

theorem shutdown_flushable_local : ∃ s, (after stalledHost 1
    (connected ++ [.call 0 (.beginGracefulShutdown 1000)])).find 0 = some (.tls s) ∧
      s.shutdownRequested = true ∧ Flushable s := by
  obtain ⟨s, hs, hp⟩ := exists_of_tlsIs 0
    (p := fun s => s.shutdownRequested && s.log.all fun ev => !ev.closesInRetry)
    (w := after stalledHost 1 (connected ++ [.call 0 (.beginGracefulShutdown 1000)]))
    (by decide +kernel)
  rw [Bool.and_eq_true, List.all_eq_true] at hp
  exact ⟨s, hs, hp.1, shutdown_flushable (reaches_after _ _ _) hs fun ev hev => by
    simpa using hp.2 ev hev⟩

/-- The peer closes while a direct write waits, and more is queued behind it. -/
theorem shutdown_not_flushable : ¬ ∀ (h : LoopHost) (fuel id : ℕ) (w : EventWorld)
    (s : SslEventSocket), Reaches h fuel w → w.find id = some (.tls s) → Flushable s := by
  intro hall
  obtain ⟨s, hs, hp⟩ := exists_of_tlsIs 0
    (p := fun s => s.session.isSome && s.shutdownRequested && s.directRetry)
    (w := after stalledHost 1 (connected ++
      [.write 0 (.sized (some [1, 2])), .call 0 (.queueWrite (some [3])), .poll 0])) (by decide +kernel)
  simp only [Bool.and_eq_true] at hp
  obtain ⟨⟨hlive, hclosing⟩, hretry⟩ := hp
  have hflush := hall _ _ _ _ s (reaches_after _ _ _) hs
  have hnone := hflush.retry (Option.isSome_iff_ne_none.mp hlive) hclosing
  simp [SslEventSocket.directRetry] at hretry
  exact hnone.elim hretry.1 fun h => by simp [hretry.2] at h

end Shutdowns

section Handshakes

variable {h : LoopHost} {fuel id : ℕ} {w : EventWorld} {s : SslEventSocket}

/-- What a completed handshake precedes in every program, what no TLS object does, and
that the handlers are called with what the history tells. -/
theorem handshake_first (hw : Reaches h fuel w) (hs : w.find id = some (.tls s)) :
    Always Follows s.log ∧
      (∀ i, s.log.countP (Event.connects i) = s.log.countP (Event.completes i) ∧
        s.log.countP (Event.completes i) ≤ 1) ∧
      s.told = callsOn id w.calls ∧ ∀ fd, .recv fd ∉ s.log ∧ .send fd ∉ s.log := by
  have hinv := (hw.modelled hs).handshakeInv
  exact ⟨hinv.order, fun i => ⟨hinv.once i, hinv.most i⟩, SslEventSocket.told_calls hw hs, hinv.sealed⟩

theorem handshake_first_client : ∃ s,
    (after stalledHost 1 (connected ++ [.call 0 (.read .internal)])).find 0 = some (.tls s) ∧
      s.log.countP (Event.completes 0) = 1 ∧ Always Follows s.log ∧
        (∀ i, s.log.countP (Event.connects i) = s.log.countP (Event.completes i) ∧
          s.log.countP (Event.completes i) ≤ 1) ∧
        s.told = callsOn 0 (after stalledHost 1 (connected ++ [.call 0 (.read .internal)])).calls ∧
          ∀ fd, .recv fd ∉ s.log ∧ .send fd ∉ s.log := by
  obtain ⟨s, hs, hone⟩ := exists_of_tlsIs 0
    (p := fun s => s.log.countP (Event.completes 0) = 1)
    (w := after stalledHost 1 (connected ++ [.call 0 (.read .internal)])) (by decide +kernel)
  exact ⟨s, hs, by simpa using hone, handshake_first (reaches_after _ _ _) hs⟩

end Handshakes

end Aeon
