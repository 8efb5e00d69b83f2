import Aeon.EventOps
import Aeon.QueueBounds
import Aeon.SessionRefinement

/-!
# The error codes of the event objects

Every function of an event object that fails leaves, or lets `poll` and `write`
choose, one of the public codes of the library.
-/

namespace Aeon

open Errno

/-- The public error codes.  `err_none` and `socket_error` are not among them. -/
def libraryCodes : List Int :=
  [errNoHost, errNoSocket, errInvalidArgument, errTimeout, errWouldBlock, errInterrupted,
    errConnectionRefused, errConnectionReset, errConnectionAborted, errNotConnected,
    errAddressInUse, errNetworkUnreachable, errHostUnreachable, errPermissionDenied,
    errMessageTooLarge, errAddressNotAvailable, errAlreadyConnected, errInProgress,
    errBrokenPipe, errNetworkDown, errNetworkReset, errNoBuffers, errResourceLimit,
    errUnsupported, errProtocol, errSystem, sslError, sslErrorInit, sslErrorCert, sslErrorKey,
    sslErrorHandshake, sslErrorIo]

theorem ite_mem {p : Prop} [Decidable p] {a b : Int} {cs : List Int} (ha : a ∈ cs) (hb : b ∈ cs) :
    (if p then a else b) ∈ cs := by
  split <;> assumption

/-- A native error is reported by a public code. -/
theorem translateNativeError_mem {e : ℕ} (h : e ≠ 0) : translateNativeError e ∈ libraryCodes := by
  unfold translateNativeError
  rw [if_neg h]
  repeat refine ite_mem (by decide) ?_
  decide

/-- Native calls of an object that fail give a reason. -/
structure Host.Reports (h : Host) : Prop where
  recv : ∀ tick room, (h.recv tick room).1.ret < 0 → (h.recv tick room).1.errno ≠ 0
  send : ∀ tick, (h.send tick).ret < 0 → (h.send tick).errno ≠ 0

structure LoopHost.Reports (h : LoopHost) : Prop where
  objects : ∀ id, (h.objects id).tls.toHost.Reports
  recvfrom : ∀ tick room, (h.recvfrom tick room).1.ret < 0 → (h.recvfrom tick room).1.errno ≠ 0
  getsockopt : ∀ tick, (h.getsockopt tick).ret ≠ 0 → (h.getsockopt tick).errno ≠ 0

/-- `SO_ERROR` may read back zero. -/
theorem socketPendingError_mem {answer : IoResult} (h : answer.ret ≠ 0 → answer.errno ≠ 0) :
    socketPendingError answer ∈ libraryCodes := by
  unfold socketPendingError
  split
  · rename_i hret
    exact translateNativeError_mem (h hret)
  · split
    · rename_i herrno
      exact translateNativeError_mem herrno
    · decide

section Native

variable {h : Host} {s : Socket}

theorem nativeRecv_errno (hrep : h.Reports) (room : ℕ) (hret : (s.nativeRecv h room).1.1.ret < 0) :
    (s.nativeRecv h room).1.1.errno ≠ 0 := by
  unfold Socket.nativeRecv at hret ⊢
  split at hret
  · exact show EBADF ≠ 0 by decide
  · exact hrep.recv _ _ hret

theorem nativeSend_errno (hrep : h.Reports) (hret : (s.nativeSend h).1.ret < 0) :
    (s.nativeSend h).1.errno ≠ 0 := by
  unfold Socket.nativeSend at hret ⊢
  split at hret
  · exact show EBADF ≠ 0 by decide
  · exact hrep.send _ hret

end Native

namespace SslEventSocket

variable {e : TlsHost} {flags : Flags} {id : ℕ} {s : SslEventSocket}

/-- An answer below zero comes with a public code on the object. -/
def Coded (r : Int × SslEventSocket) : Prop := r.1 < 0 → r.2.errorCode ∈ libraryCodes

theorem Coded.set {code : Int} (n : Int) (s : SslEventSocket) (hcode : code ∈ libraryCodes) :
    Coded (n, s.setError code) := fun _ => hcode

theorem Coded.fine {n : Int} {s : SslEventSocket} (h : 0 ≤ n) : Coded (n, s) :=
  fun hlt => absurd hlt (Int.not_lt.mpr h)

theorem failStep_coded (s : SslEventSocket) : Coded s.failStep := .set _ _ (by decide)

theorem callShutdown_coded (s : SslEventSocket) : Coded (s.callShutdown e id flags) := by
  unfold callShutdown
  dsimp only
  split
  · exact .fine (by decide)
  · split
    · exact .fine (by decide)
    · split
      · split <;> exact .fine (by decide)
      · split
        · exact .fine (by decide)
        · exact failStep_coded _

theorem shutdownStep_coded (s : SslEventSocket) : Coded (s.shutdownStep e id flags) := by
  unfold shutdownStep
  dsimp only
  split
  · exact .set _ _ (by decide)
  · split
    · split
      · exact .fine (by decide)
      · exact failStep_coded _
    · split
      · exact .fine (by decide)
      · split
        · exact .fine (by decide)
        · split
          · exact .fine (by decide)
          · exact callShutdown_coded _

theorem handshakeStep_coded (s : SslEventSocket) : Coded (s.handshakeStep e id flags) := by
  unfold handshakeStep
  dsimp only
  split
  · exact .set _ _ (by decide)
  · split
    · exact .fine (by decide)
    · split
      · split
        · exact .set _ _ (by decide)
        · exact .fine (by decide)
      · split
        · exact .fine (by decide)
        · split
          · exact .fine (by decide)
          · split <;> exact .set _ _ (by decide)

/-- A terminal result of `poll_step` has set the error that `poll` reads. -/
theorem pollStep_coded (s : SslEventSocket) : Coded (s.pollStep e flags) := by
  unfold pollStep
  split
  · exact .set _ _ (by decide)
  · split
    · split
      · exact shutdownStep_coded s
      · split
        · exact failStep_coded s
        · exact .fine (by decide)
    · dsimp only
      split
      · exact .set _ _ (by decide)
      · exact handshakeStep_coded _

/-- A call of OpenSSL that has failed for good has set the error of the object. -/
structure Refused (r : IoResult) (s : SslEventSocket) : Prop where
  errno : r.errno = EWOULDBLOCK ∨ r.errno = EPROTO
  code : r.errno = EPROTO → s.errorCode = sslErrorIo

theorem Refused.transportError (s : SslEventSocket) : Refused s.transportError.1 s.transportError.2 :=
  ⟨.inr rfl, fun _ => rfl⟩

theorem Refused.wouldBlock (s : SslEventSocket) : Refused s.wouldBlock.1 s.wouldBlock.2 :=
  ⟨.inl rfl, fun h => nomatch h⟩

theorem pollReceive_refused (room : ℕ) (s : SslEventSocket)
    (hret : (s.pollReceive e room).1.1.ret < 0) :
    Refused (s.pollReceive e room).1.1 (s.pollReceive e room).2 := by
  unfold pollReceive at hret ⊢
  dsimp only at hret ⊢
  split
  · exact .transportError s
  · split
    · exact .transportError s
    · rename_i id hlive hready
      rw [hlive] at hret
      dsimp only at hret
      rw [if_neg hready] at hret
      split
      · rename_i hpos
        rw [if_pos hpos] at hret
        exact absurd hret (Int.not_lt.mpr (Int.le_of_lt hpos))
      · split
        · split <;> exact .wouldBlock _
        · split
          · exact .wouldBlock _
          · exact .transportError _

theorem sendTls_refused (data : List UInt8) (queued : Bool) (s : SslEventSocket)
    (hret : (s.sendTls e data queued).1.ret < 0) :
    Refused (s.sendTls e data queued).1 (s.sendTls e data queued).2 := by
  rcases s.sendTls_cases (e := e) data queued with
    ⟨he, -⟩ | ⟨he, -⟩ | ⟨he, -⟩ | ⟨id, requested, -, -, -, -, -, -, -, he⟩
  · exact he ▸ .transportError s
  · exact he ▸ .wouldBlock s
  · exact he ▸ .transportError _
  · rw [he] at hret ⊢
    unfold afterWrite at hret ⊢
    split at hret
    · rename_i hpos
      exact absurd hret (Int.not_lt.mpr (Int.le_of_lt hpos))
    · rename_i hpos
      rw [if_neg hpos]
      split
      · exact .wouldBlock _
      · exact .transportError _

end SslEventSocket

/-- What a failed send lets the flush report is a public code. -/
theorem flushLoop_coded {σ : Type} {t : Transport σ} (hsend : ∀ data s, (t.send data s).1.ret < 0 →
      wouldBlockError (t.send data s).1.errno = false →
      t.reported (t.send data s).2 (t.send data s).1.errno ∈ libraryCodes)
    (budget : ℕ) (r : FlushResult) (q : Outgoing) (i : ℕ) (s : σ)
    (hr : r.error ≠ 0 → r.error ∈ libraryCodes) :
    (flushLoop t budget r q i s).result.error ≠ 0 →
      (flushLoop t budget r q i s).result.error ∈ libraryCodes := by
  induction r, q, i, s using flushLoop.induct t budget with
  | case1 r q i s hb data sent r' q' hstop =>
    rw [flushLoop_stop hb hstop]
    dsimp only
    unfold flushOnce at hstop
    split at hstop
    · rename_i hneg
      split at hstop
      · cases hstop
      · split at hstop
        · obtain ⟨rfl, rfl⟩ := FlushStep.stop.inj hstop
          exact hr
        · rename_i hblocked
          obtain ⟨rfl, rfl⟩ := FlushStep.stop.inj hstop
          rw [not_or, Bool.not_eq_true] at hblocked
          exact fun _ => hsend _ _ hneg hblocked.2
    · split at hstop
      · obtain ⟨rfl, rfl⟩ := FlushStep.stop.inj hstop
        exact hr
      · split at hstop
        · obtain ⟨rfl, rfl⟩ := FlushStep.stop.inj hstop
          exact fun _ => show errSystem ∈ libraryCodes by decide
        · cases hstop
  | case2 r q i s hb data sent r' q' i' hagain ih =>
    rw [flushLoop_again hb hagain]
    refine ih ?_
    rcases flushOnce_again hagain with ⟨rfl, -⟩ | ⟨-, -, -, -, rfl⟩ <;> exact hr
  | case3 r q i s hb =>
    rw [flushLoop_done hb]
    exact hr

theorem flushQueued_coded {σ : Type} {t : Transport σ} (hsend : ∀ data s, (t.send data s).1.ret < 0 →
      wouldBlockError (t.send data s).1.errno = false →
      t.reported (t.send data s).2 (t.send data s).1.errno ∈ libraryCodes)
    (budget : ℕ) (s : EventSocket) (net : σ) (herror : (s.flushQueued t budget net).result.error ≠ 0) :
    (s.flushQueued t budget net).result.error ∈ libraryCodes := by
  unfold EventSocket.flushQueued at herror ⊢
  split at herror
  · exact absurd rfl herror
  · rename_i hopen
    rw [if_neg hopen]
    exact flushLoop_coded hsend _ _ _ _ _ (fun h => absurd rfl h) herror

theorem flushQueued_bytes {σ : Type} {t : Transport σ} (budget : ℕ) (s : EventSocket) (net : σ) :
    (s.flushQueued t budget net).result.bytes ≤ budget := by
  unfold EventSocket.flushQueued
  split
  · exact Nat.zero_le _
  · exact flushLoop_bytes_le budget {} s.outgoing 0 net (Nat.zero_le _)

namespace EventObject

variable {e : NetHost} {o : EventObject}

/-- Where an object says what went wrong, what is reported is a public code. -/
theorem reported_coded {errno : ℕ} (o : EventObject) (herrno : errno ≠ 0)
    (hcode : o.pollErrorTerminal = true → errno = EPROTO → o.base.errorCode = sslErrorIo)
    (hwhich : o.pollErrorTerminal = true → errno = EPROTO) : o.reported errno ∈ libraryCodes := by
  unfold reported
  split
  · rename_i h
    rw [hcode h.1 (hwhich h.1)]
    decide
  · exact translateNativeError_mem herrno

theorem errno_of_refused {r : IoResult} {s : SslEventSocket} (h : SslEventSocket.Refused r s)
    (hblocked : wouldBlockError r.errno = false) : r.errno = EPROTO := by
  refine h.errno.resolve_left fun hwould => ?_
  rw [hwould] at hblocked
  cases hblocked

/-- The error of a failed `poll_receive`, as `poll` chooses it. -/
theorem pollReceive_coded (hrep : e.tls.toHost.Reports) (o : EventObject)
    (hret : (o.pollReceive e).1.1.ret < 0)
    (hblocked : wouldBlockError (o.pollReceive e).1.1.errno = false) :
    (o.pollReceive e).2.reported (o.pollReceive e).1.1.errno ∈ libraryCodes := by
  have hplain (s : Socket) (o' : EventObject) (ho' : o'.pollErrorTerminal = false)
      (hneg : (s.nativeRecv e.tls.toHost Socket.maxBufferSize).1.1.ret < 0) :
      o'.reported (s.nativeRecv e.tls.toHost Socket.maxBufferSize).1.1.errno ∈ libraryCodes :=
    reported_coded o' (nativeRecv_errno hrep _ hneg) (fun h => absurd (ho'.symm.trans h) (by decide))
      fun h => absurd (ho'.symm.trans h) (by decide)
  unfold pollReceive at hret hblocked ⊢
  dsimp only at hret hblocked ⊢
  rw [if_neg (Int.not_lt.mpr (Int.le_of_lt hret))]
  cases o with
  | tls s =>
    have hrefused := s.pollReceive_refused (e := e.tls) Socket.maxBufferSize hret
    have herrno := errno_of_refused hrefused hblocked
    refine reported_coded _ ?_ (fun _ => hrefused.code) fun _ => herrno
    exact fun h => absurd (herrno.symm.trans h) (by decide)
  | tcp s | listener s => exact hplain s.toSocket _ rfl hret
  | udp server s => exact hplain s.toSocket _ rfl hret

/-- The error of a failed `poll_send`, as `write` chooses it. -/
theorem directWrite_coded (hrep : e.tls.toHost.Reports) (data : List UInt8) (o : EventObject)
    (hret : (o.directWrite e data).1.1 < 0) :
    (o.directWrite e data).1.2 ∈ libraryCodes ∧
      (o.directWrite e data).2.base.errorCode = (o.directWrite e data).1.2 := by
  have hset (code : Int) (o : EventObject) :
      ((o.setError code).notify (.error code)).base.errorCode = code := by
    cases o <;> rfl
  have hneg : (o.pollSend e data).1.ret < 0 := by
    unfold directWrite at hret
    dsimp only at hret
    split at hret <;> exact hret
  unfold directWrite
  dsimp only
  rw [if_pos hneg]
  refine ⟨?_, hset _ _⟩
  dsimp only
  have hplain (s : Socket) (o' : EventObject) (ho' : o'.pollErrorTerminal = false)
      (hneg : (s.nativeSend e.tls.toHost).1.ret < 0) :
      (if wouldBlockError (s.nativeSend e.tls.toHost).1.errno then
        translateNativeError (s.nativeSend e.tls.toHost).1.errno
        else o'.reported (s.nativeSend e.tls.toHost).1.errno) ∈ libraryCodes := by
    have herrno := nativeSend_errno hrep hneg
    exact ite_mem (translateNativeError_mem herrno) (reported_coded o' herrno
      (fun h => absurd (ho'.symm.trans h) (by decide)) fun h => absurd (ho'.symm.trans h) (by decide))
  cases o with
  | tls s =>
    have hrefused := s.sendTls_refused (e := e.tls) data false hneg
    show (if wouldBlockError (s.sendTls e.tls data false).1.errno then
      translateNativeError (s.sendTls e.tls data false).1.errno
      else (EventObject.tls (s.sendTls e.tls data false).2).reported
        (s.sendTls e.tls data false).1.errno) ∈ libraryCodes
    split
    · refine translateNativeError_mem fun h => ?_
      rcases hrefused.errno with he | he <;> exact absurd (he.symm.trans h) (by decide)
    · rename_i hblocked
      have herrno := errno_of_refused hrefused (by simpa using hblocked)
      refine reported_coded _ (fun h => absurd (herrno.symm.trans h) (by decide))
        (fun _ => hrefused.code) fun _ => herrno
  | tcp s | listener s => exact hplain s.toSocket _ rfl hneg
  | udp server s => exact hplain s.toSocket _ rfl hneg

/-- What a flush keeps to its budget, and what it reports when it fails. -/
theorem flushQueued_reports (o : EventObject) :
    ((o.flushQueued e).1.error ≠ 0 → (o.flushQueued e).1.error ∈ libraryCodes) ∧
      (o.flushQueued e).1.bytes ≤ sendBudget := by
  have hplain (s : EventSocket) :=
    flushQueued_coded (t := EventSocket.transport e.tls.toHost) (fun data t hret _ => by
      unfold Transport.reported
      rw [if_neg fun h => Bool.false_ne_true h.1]
      split
      · rename_i herrno
        exact translateNativeError_mem herrno
      · decide) sendBudget s s.toSocket
  cases o with
  | tcp s | listener s => exact ⟨hplain s, flushQueued_bytes sendBudget s s.toSocket⟩
  | tls s =>
    refine ⟨flushQueued_coded (t := SslEventSocket.transport e.tls) (fun data t hret hblocked => ?_)
      sendBudget s.toEventSocket s, flushQueued_bytes sendBudget s.toEventSocket s⟩
    have hrefused := t.sendTls_refused (e := e.tls) data true hret
    have herrno := errno_of_refused hrefused hblocked
    have hcode : (t.sendTls e.tls data true).2.errorCode = sslErrorIo := hrefused.code herrno
    show (SslEventSocket.transport e.tls).reported (t.sendTls e.tls data true).2 _ ∈ libraryCodes
    unfold Transport.reported
    rw [show (SslEventSocket.transport e.tls).getError (t.sendTls e.tls data true).2 = sslErrorIo
      from hcode, if_pos ⟨rfl, by decide⟩]
    decide
  | udp server s => exact ⟨fun h => absurd rfl h, Nat.zero_le _⟩

end EventObject

end Aeon
