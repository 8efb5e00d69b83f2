import Aeon.EventSocket

/-!
# The nonblocking TLS socket

`ssl_event_socket`, function by function.  A session is known by a number: the
object numbers the sessions it creates.  The functions that end in a call of a
handler record the notification and leave the call to their caller.
-/

namespace Aeon

open Errno

inductive SslVerifyMode
  | strict | off
  deriving DecidableEq, Repr

/-- The answers of OpenSSL as well, numbered like those of the system.  An
`SSL_write` never reports more bytes than it was given. -/
structure TlsHost extends Host where
  sslNew : ℕ → Bool
  sslSetFd : ℕ → Bool
  loadVerifyLocations : ℕ → Bool
  setVerifyIdentity : ℕ → Bool
  setTlsextHostName : ℕ → Bool
  doHandshake : ℕ → SslResult
  verifyOk : ℕ → Bool
  sslRead : ℕ → ℕ → SslResult
  sslWrite : ℕ → ℕ → SslResult
  sslShutdown : ℕ → SslResult
  sentShutdown : ℕ → Bool
  sslPending : ℕ → Bool
  sslWrite_le : ∀ tick length, (sslWrite tick length).ret ≤ length

/-- A host on which every OpenSSL call succeeds at once, and nothing is received. -/
def TlsHost.steady : TlsHost where
  toHost := .steady
  sslNew _ := true
  sslSetFd _ := true
  loadVerifyLocations _ := true
  setVerifyIdentity _ := true
  setTlsextHostName _ := true
  doHandshake _ := { ret := 1 }
  verifyOk _ := true
  sslRead _ _ := { ret := -1, code := .wantRead }
  sslWrite _ length := { ret := length }
  sslShutdown _ := { ret := 1 }
  sentShutdown _ := true
  sslPending _ := false
  sslWrite_le _ _ := Int.le_refl _

/-- The clock is read in nanoseconds. -/
def nsPerMs : ℕ := 1000000

def bytesHash (data : List UInt8) : UInt64 :=
  data.foldl (fun hash byte => (hash ^^^ byte.toUInt64) * 1099511628211) 14695981039346656037

def isNumericIp (h : Host) (text : String) : Bool := h.inetPton .inet text || h.inetPton .inet6 text

structure SslEventSocket extends EventSocket where
  hasCtx : Bool := true
  session : Option ℕ := none
  nextSession : ℕ := 0
  serverSide : Bool := false
  tlsReady : Bool := false
  needWrite : Bool := false
  sendNeedRead : Bool := false
  recvNeedWrite : Bool := false
  pendingWriteLen : ℕ := 0
  sslFailed : Bool := false
  peerNotifiedClose : Bool := false
  shutdownRequested : Bool := false
  shutdownNotifySent : Bool := false
  shutdownNeedWrite : Bool := false
  shutdownNeedRead : Bool := false
  shutdownDeadline : ℕ := 0
  pendingWriteQueued : Bool := false
  pendingWriteHash : UInt64 := 0
  handshakeTimeoutMs : ℕ := 5000
  handshakeDeadline : ℕ := 0
  verifyMode : SslVerifyMode := .strict
  allowSelfSigned : Bool := false
  expectedIdentity : String := ""
  deriving DecidableEq, Repr

namespace SslEventSocket

variable (e : TlsHost)

def setError (code : Int) (s : SslEventSocket) : SslEventSocket :=
  { s with toSocket := s.toSocket.setError code }

def record (ev : Event) (s : SslEventSocket) : SslEventSocket :=
  { s with toSocket := s.toSocket.record ev }

def ticked (s : SslEventSocket) : SslEventSocket := { s with toSocket := s.toSocket.ticked }

/-- `steady_clock::now()`. -/
def clock (s : SslEventSocket) : ℕ × SslEventSocket := (e.now s.tick, s.ticked)

/-- The caller of `SSL_write` has a retry to make, and it is not the queue. -/
def directRetry (s : SslEventSocket) : Bool := s.pendingWriteLen ≠ 0 && !s.pendingWriteQueued

def wouldBlock (s : SslEventSocket) : IoResult × SslEventSocket := (⟨-1, EWOULDBLOCK⟩, s)

/-- `set_error` and `set_transport_error`. -/
def transportError (s : SslEventSocket) : IoResult × SslEventSocket :=
  (⟨-1, EPROTO⟩, s.setError sslErrorIo)

def freeSession (s : SslEventSocket) : SslEventSocket :=
  match s.session with
  | none => s
  | some id => { s with session := none }.record (.sslFree id)

/-- The fields that both a new session and `close` reset. -/
def clearFlags (needWrite : Bool) (s : SslEventSocket) : SslEventSocket :=
  { s with
    tlsReady := false
    needWrite := needWrite
    sendNeedRead := false
    recvNeedWrite := false
    pendingWriteLen := 0
    pendingWriteQueued := false
    pendingWriteHash := 0
    sslFailed := false
    peerNotifiedClose := false
    shutdownRequested := false
    shutdownNotifySent := false
    shutdownNeedWrite := false
    shutdownNeedRead := false }

def newSession (s : SslEventSocket) : SslEventSocket :=
  { s with session := some s.nextSession, nextSession := s.nextSession + 1 }.record
    (.sslNew s.nextSession)

def initSession (server : Bool) (s : SslEventSocket) : Bool × SslEventSocket :=
  if !s.hasCtx || !s.isValidSocket then (false, s)
  else
    let s := s.freeSession
    let made := e.sslNew s.tick
    let s := s.ticked
    if !made then (false, s)
    else
      let s := s.newSession
      let attached := e.sslSetFd s.tick
      let s := s.ticked
      if !attached then (false, s)
      else
        let now := (s.clearFlags (!server)).clock e
        (true, { now.2 with handshakeDeadline := now.1 + s.handshakeTimeoutMs * nsPerMs })

/-- `ssl_event_socket(fd, server_ctx)`, from the object its base constructor
made; `retained` is the answer of `SSL_CTX_up_ref`. -/
def adoptAccepted (retained : Bool) (base : EventSocket) : SslEventSocket :=
  let s : SslEventSocket :=
    { toEventSocket := base, serverSide := true, verifyMode := .off, hasCtx := retained }
  if !retained then s.setError sslErrorInit
  else
    let r := s.initSession e true
    if r.1 then r.2 else r.2.setError sslErrorInit

def setCaFile (path : Option String) (s : SslEventSocket) : Int × SslEventSocket :=
  if !s.hasCtx || (path.getD "").isEmpty then (sslErrorCert, s.setError sslErrorCert)
  else
    let loaded := e.loadVerifyLocations s.tick
    if !loaded then (sslErrorCert, s.ticked.setError sslErrorCert)
    else (errNone, s.ticked.setError errNone)

def setPeerVerification (mode : SslVerifyMode) (s : SslEventSocket) : SslEventSocket :=
  let s := { s with verifyMode := mode }
  s.record (.verifyMode s.session (mode == .strict))

def setAllowSelfSigned (enabled : Bool) (s : SslEventSocket) : SslEventSocket :=
  { s with allowSelfSigned := enabled }

/-- The one `SSL_shutdown` of `close`, whose answer is not looked at. -/
def sendAlert (s : SslEventSocket) : SslEventSocket :=
  match s.session with
  | none => s
  | some id =>
    if s.tlsReady && !s.sslFailed && !s.peerNotifiedClose && !s.shutdownNotifySent &&
        s.isValidSocket then
      s.ticked.record (.sslShutdown id .close s.pendingWriteLen none)
    else s

/-- `close`, up to the handler call that is due when it returns true.  The
notification belongs to the session that was open. -/
def close (s : SslEventSocket) : Bool × SslEventSocket :=
  let closing := s.session
  let s := (s.sendAlert.freeSession).clearFlags false
  let r := s.toEventSocket.close e.toHost
  let s := { s with toEventSocket := r.2 }.record (.discarded closing)
  (r.1, if r.1 then s.record (.notify closing .close) else s)

/-- What a failing `start_client` returns, and whether a handler call for the
close is due. -/
def refuseClient (code : Int) (s : SslEventSocket) : (Bool × Bool) × SslEventSocket :=
  let r := (s.setError code).close e
  ((false, r.1), r.2)

/-- The verification parameters of the session: a strict client asks for
`SSL_VERIFY_PEER` and the expected identity. -/
def requireIdentity (s : SslEventSocket) : Bool × SslEventSocket :=
  if s.verifyMode == .strict then
    let set := e.setVerifyIdentity s.tick
    (set, if set then s.ticked.record (.sslVerify s.session (some s.expectedIdentity)) else s.ticked)
  else (true, s.record (.sslVerify s.session none))

def requestServerName (identity : String) (s : SslEventSocket) : Bool × SslEventSocket :=
  if isNumericIp e.toHost identity then (true, s) else (e.setTlsextHostName s.tick, s.ticked)

/-- `start_client`: its result, and whether a handler call for the close is due. -/
def startClient (identity : String) (s : SslEventSocket) : (Bool × Bool) × SslEventSocket :=
  let s := { s with expectedIdentity := identity }
  if !s.isValidSocket then s.refuseClient e sslErrorInit
  else
    let mode := s.toSocket.setBlocking e.toHost false
    let s := { s with toSocket := mode.2 }
    if !mode.1 then s.refuseClient e sslErrorInit
    else
      let made := s.initSession e false
      if !made.1 then made.2.refuseClient e sslErrorInit
      else
        let named := made.2.requireIdentity e
        if !named.1 then named.2.refuseClient e sslErrorCert
        else
          let sni := named.2.requestServerName e identity
          if !sni.1 then sni.2.refuseClient e sslErrorInit
          else ((true, false), sni.2.setError errNone)

def handshakeComplete (s : SslEventSocket) : Bool := s.tlsReady

def beginGracefulShutdown (timeoutMs : Int) (s : SslEventSocket) : Bool × SslEventSocket :=
  if timeoutMs < 100 || timeoutMs > 60000 || !s.tlsReady || s.session.isNone ||
      !s.isValidSocket || s.sslFailed || s.peerNotifiedClose || s.directRetry then
    (false, s.setError sslErrorIo)
  else if s.shutdownRequested then (false, s)
  else
    let now := s.clock e
    (true, { now.2 with
      shutdownRequested := true
      shutdownNotifySent := false
      shutdownNeedWrite := false
      shutdownNeedRead := false
      shutdownDeadline := now.1 + timeoutMs.toNat * nsPerMs }.setError errNone)

def setHandshakeTimeout (milliseconds : Int) (s : SslEventSocket) : Int × SslEventSocket :=
  if milliseconds < 100 || milliseconds > 60000 then (sslError, s.setError sslError)
  else
    let s := { s with handshakeTimeoutMs := milliseconds.toNat }
    let s := if s.session.isSome && !s.tlsReady then
        let now := s.clock e
        { now.2 with handshakeDeadline := now.1 + milliseconds.toNat * nsPerMs }
      else s
    (errNone, s.setError errNone)

/-- The milliseconds until a deadline, rounded up, and `0` once it is due. -/
def remainingMs (deadline now : ℕ) : Int :=
  if deadline ≤ now then 0 else ((deadline - now) / nsPerMs : ℕ) + 1

def pollTimeoutMs (s : SslEventSocket) : Int × SslEventSocket :=
  if s.session.isNone || !s.isValidSocket then (-1, s)
  else if s.tlsReady && s.shutdownRequested then
    let now := s.clock e
    (remainingMs s.shutdownDeadline now.1, now.2)
  else if s.tlsReady then (-1, s)
  else
    let now := s.clock e
    (remainingMs s.handshakeDeadline now.1, now.2)

/-- `ssl_failed_ = true; set_error(ssl_error_io); return -1;` -/
def failStep (s : SslEventSocket) : Int × SslEventSocket :=
  (-1, { s with sslFailed := true }.setError sslErrorIo)

/-- The call of `SSL_shutdown` in `poll_step`, and what follows from its answer. -/
def callShutdown (id : ℕ) (flags : Flags) (s : SslEventSocket) : Int × SslEventSocket :=
  let answer := e.sslShutdown s.tick
  let s := s.ticked.record (.sslShutdown id .pollStep s.pendingWriteLen (some answer))
  if answer.ret = 1 then (3, s)
  else if answer.ret = 0 then
    (0, { s with shutdownNotifySent := true, shutdownNeedWrite := false, shutdownNeedRead := true })
  else if answer.code = .wantRead ∨ answer.code = .wantWrite then
    let sent := e.sentShutdown s.tick
    let s := { s.ticked with
      shutdownNotifySent := sent
      shutdownNeedWrite := answer.code == .wantWrite
      shutdownNeedRead := answer.code == SslCode.wantRead }
    if s.peerNotifiedClose && sent && flags.pollhup then (3, s) else (0, s)
  else if s.peerNotifiedClose then (3, s)
  else s.failStep

/-- The readiness that the shutdown waits for has not been reported. -/
def shutdownWaits (flags : Flags) (s : SslEventSocket) : Bool :=
  (s.shutdownNeedRead && !(flags.pollin || flags.pollhup)) ||
  (s.shutdownNeedWrite && !flags.pollout) ||
  (!s.shutdownNeedRead && !s.shutdownNeedWrite && s.shutdownNotifySent && !flags.pollin) ||
  (!s.shutdownNeedRead && !s.shutdownNeedWrite && !s.shutdownNotifySent && !flags.pollout)

/-- `poll_step` while a graceful shutdown is pending. -/
def shutdownStep (id : ℕ) (flags : Flags) (s : SslEventSocket) : Int × SslEventSocket :=
  let now := s.clock e
  let s := now.2
  if now.1 ≥ s.shutdownDeadline then (-1, s.setError sslErrorIo)
  else if flags.pollerr || flags.pollnval then
    if s.peerNotifiedClose then (3, s) else s.failStep
  else if s.peerNotifiedClose && flags.pollhup then (3, s)
  else if s.queuedBytes ≠ 0 then (1, s)
  else if s.shutdownWaits flags then (0, s)
  else s.callShutdown e id flags

/-- `poll_step` before the session is ready.  A result of 2 calls for the
connect handler. -/
def handshakeStep (id : ℕ) (flags : Flags) (s : SslEventSocket) : Int × SslEventSocket :=
  if flags.pollerr || flags.pollnval || flags.pollhup then (-1, s.setError sslErrorHandshake)
  else if (s.needWrite && !flags.pollout) ||
      (!s.needWrite && !(flags.pollin || flags.pollhup)) then (0, s)
  else
    let answer := e.doHandshake s.tick
    let verified := e.verifyOk s.tick
    let strict := !s.serverSide && s.verifyMode == .strict
    let s := s.ticked.record (.handshake id (answer.ret = 1) strict verified (some answer))
    if answer.ret = 1 then
      if strict && !verified then (-1, s.setError sslErrorCert)
      else
        let s := { s with tlsReady := true, needWrite := false }.setError errNone
        (2, s.record (.notify s.session .connect))
    else if answer.code = .wantRead then (0, { s with needWrite := false })
    else if answer.code = .wantWrite then (0, { s with needWrite := true })
    else if strict && !verified then (-1, s.setError sslErrorCert)
    else (-1, s.setError sslErrorHandshake)

/-- -1 for a terminal error, 0 while pending, 1 when application data may
move, 2 when the handshake has just completed, 3 for an orderly end. -/
def pollStep (flags : Flags) (s : SslEventSocket) : Int × SslEventSocket :=
  match s.session with
  | none => (-1, s.setError sslErrorInit)
  | some id =>
    if s.tlsReady then
      if s.shutdownRequested then s.shutdownStep e id flags
      else if flags.pollerr || flags.pollnval then s.failStep
      else (1, s)
    else
      let now := s.clock e
      if now.1 ≥ s.handshakeDeadline then (-1, now.2.setError sslErrorHandshake)
      else now.2.handshakeStep e id flags

def pollReceive (room : ℕ) (s : SslEventSocket) : (IoResult × List UInt8) × SslEventSocket :=
  let failed (r : IoResult × SslEventSocket) : (IoResult × List UInt8) × SslEventSocket :=
    ((r.1, []), r.2)
  match s.session with
  | none => failed s.transportError
  | some id =>
    if !s.tlsReady then failed s.transportError
    else
      let answer := e.sslRead s.tick room
      let s := s.ticked.record (.sslRead id answer s.directRetry)
      if answer.ret > 0 then
        ((⟨answer.ret, 0⟩, answer.data), { s with recvNeedWrite := false }.setError errNone)
      else if answer.code = .zeroReturn then
        let s := { s with peerNotifiedClose := true }
        if s.shutdownRequested then failed s.wouldBlock
        else
          let now := s.clock e
          failed { now.2 with
            shutdownRequested := true
            shutdownNotifySent := false
            shutdownNeedWrite := false
            shutdownNeedRead := false
            shutdownDeadline := now.1 + 5000 * nsPerMs }.wouldBlock
      else if answer.code = .wantRead ∨ answer.code = .wantWrite then
        failed { s with recvNeedWrite := answer.code == SslCode.wantWrite }.wouldBlock
      else failed { s with sslFailed := true }.transportError

def forgetRetry (s : SslEventSocket) : SslEventSocket :=
  { s with
    pendingWriteLen := 0
    pendingWriteQueued := false
    pendingWriteHash := 0
    sendNeedRead := false }

/-- What `send_tls` does with the answer of `SSL_write`. -/
def afterWrite (data : List UInt8) (queued : Bool) (answer : SslResult) (s : SslEventSocket) :
    IoResult × SslEventSocket :=
  if answer.ret > 0 then (⟨answer.ret, 0⟩, s.forgetRetry.setError errNone)
  else if answer.code = .wantRead ∨ answer.code = .wantWrite then
    let s := if s.pendingWriteLen ≠ 0 then s else { s with
      pendingWriteLen := data.length
      pendingWriteQueued := queued
      pendingWriteHash := bytesHash data }
    { s with sendNeedRead := answer.code == SslCode.wantRead }.wouldBlock
  else { s.forgetRetry with sslFailed := true }.transportError

/-- A retry must offer the recorded bytes again: a direct one these bytes
alone, and a queued one may have more behind them. -/
def retryMismatch (data : List UInt8) (queued : Bool) (s : SslEventSocket) : Bool :=
  data.length < s.pendingWriteLen || (!queued && data.length ≠ s.pendingWriteLen) ||
    bytesHash (data.take s.pendingWriteLen) ≠ s.pendingWriteHash

def origin (queued : Bool) : Origin := if queued then .queued else .direct

def sendTls (data : List UInt8) (queued : Bool) (s : SslEventSocket) : IoResult × SslEventSocket :=
  match s.session with
  | none => s.transportError
  | some id =>
    if !s.tlsReady || data.isEmpty || (s.shutdownRequested && !queued) then s.transportError
    else if !queued && s.pendingWriteLen = 0 && s.queuedBytes ≠ 0 then s.wouldBlock
    else if s.pendingWriteLen ≠ 0 && queued ≠ s.pendingWriteQueued then s.wouldBlock
    else if s.pendingWriteLen ≠ 0 && s.retryMismatch data queued then
      (s.record (.retryRejected (origin queued))).transportError
    else
      let requested := if s.pendingWriteLen ≠ 0 then data.take s.pendingWriteLen else data
      let answer := e.sslWrite s.tick requested.length
      let waiting := if queued then 0 else s.queuedBytes
      (s.ticked.record (.sslWrite id (origin queued) requested answer (s.pendingWriteLen ≠ 0)
        waiting)).afterWrite requested queued answer

def pollWantsWrite (s : SslEventSocket) : Bool :=
  if !s.tlsReady then s.needWrite
  else if s.shutdownRequested && s.queuedBytes = 0 then
    s.shutdownNeedWrite || (!s.shutdownNotifySent && !s.shutdownNeedRead)
  else s.recvNeedWrite || (!s.sendNeedRead && !s.directRetry && s.queuedBytes ≠ 0)

def pollReadReady (flags : Flags) (s : SslEventSocket) : Bool :=
  (!s.sendNeedRead && (flags.pollin || flags.pollhup)) || (s.recvNeedWrite && flags.pollout)

def pollQueueReady (flags : Flags) (s : SslEventSocket) : Bool :=
  if s.directRetry then false
  else s.queuedBytes ≠ 0 && (if s.sendNeedRead then flags.pollin else flags.pollout)

def pollHasBufferedInput (s : SslEventSocket) : Bool × SslEventSocket :=
  if s.tlsReady && s.session.isSome then (e.sslPending s.tick, s.ticked) else (false, s)

/-- `queue_write`; the hook refuses while a shutdown is pending. -/
def queueWrite (data : Option (List UInt8)) (s : SslEventSocket) : Bool × SslEventSocket :=
  let r := s.toEventSocket.queueWrite (!s.shutdownRequested) data
  let s := { s with toEventSocket := r.2 }
  (r.1, if r.1 then s.record (.accepted s.session (data.getD [])) else s)

def setMaxQueuedBytes (limit : ℕ) (s : SslEventSocket) : Bool × SslEventSocket :=
  let r := s.toEventSocket.setMaxQueuedBytes limit
  (r.1, { s with toEventSocket := r.2 })

def transport : Transport SslEventSocket where
  send data s := s.sendTls e data true
  errorTerminal := true
  getError s := s.errorCode

/-- The object after a flush: an error has discarded what was queued. -/
def flushed (f : Flushed SslEventSocket) : SslEventSocket :=
  let s := { f.state with outgoing := f.queue }
  if f.result.error ≠ 0 then s.record (.discarded s.session) else s

/-- The queue is locked during the flush, and no hook of a queued send reads it. -/
def flushQueued (budget : ℕ) (s : SslEventSocket) : FlushResult × SslEventSocket :=
  let f := s.toEventSocket.flushQueued (transport e) budget s
  (f.result, flushed f)

/-- `read(buffer, size)`; a null buffer is `false`. -/
def readBuffer (buffer : Bool) (size : Int) (s : SslEventSocket) :
    (Int × List UInt8) × SslEventSocket :=
  if !buffer || size ≤ 0 || !s.tlsReady then
    let r := s.transportError
    ((-1, []), r.2)
  else
    let r := s.pollReceive e size.toNat
    ((r.1.1.ret, r.1.2), { r.2 with n := r.1.1.ret })

/-- One turn of the loop of `read_line` for each place left in the buffer. -/
def readLineLoop : ℕ → List UInt8 → SslEventSocket → (Int × List UInt8) × SslEventSocket
  | 0, line, s => ((line.length, line), s)
  | room + 1, line, s =>
    let r := s.readBuffer e true 1
    if r.1.1 ≤ 0 then ((if line.length ≠ 0 then line.length else r.1.1, line), r.2)
    else
      let byte := r.1.2.headD 0
      if byte = 10 then ((line.length + 1, line ++ [byte]), r.2)
      else readLineLoop room (line ++ [byte]) r.2

def readLine (buffer : Bool) (size : Int) (s : SslEventSocket) :
    (Int × List UInt8) × SslEventSocket :=
  if !buffer || size < 1 then ((-1, []), s.setError sslErrorIo)
  else s.readLineLoop e (size - 1).toNat []

def readUntil (buffer : Bool) (size : Int) (s : SslEventSocket) :
    (Int × List UInt8) × SslEventSocket := s.readLine e buffer size

/-- `read(size)`, which gives a string. -/
def readString (size : Int) (s : SslEventSocket) : List UInt8 × SslEventSocket :=
  if size ≤ 0 then ([], s)
  else
    let r := s.readBuffer e true size
    (if r.1.1 ≤ 0 then [] else r.1.2.take r.1.1.toNat, r.2)

end SslEventSocket

end Aeon
