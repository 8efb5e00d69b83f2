import Aeon.Listener

/-!
# Accepting a TLS peer

`ssl_server_socket::accept` runs the handshake of a new peer before it returns.
`SSL_accept` reads and writes the accepted descriptor itself, so each of its
waits ends only with the descriptor's own timeout.
-/

namespace Aeon

inductive Direction
  | receive | send
  deriving DecidableEq, Repr

/-- The native state of a descriptor that decides how a read or write on it
waits: its mode, and `SO_RCVTIMEO` and `SO_SNDTIMEO` in milliseconds. -/
structure Descriptor where
  nonblocking : Bool := false
  timeout : Direction → Option ℕ := fun _ => none

/-- A wait for a descriptor, and the time after which it ends by itself. -/
structure Wait where
  direction : Direction
  bound : Option ℕ
  deriving DecidableEq, Repr

def Descriptor.waits (d : Descriptor) (directions : List Direction) : List Wait :=
  if d.nonblocking then [] else directions.map fun dir => ⟨dir, d.timeout dir⟩

/-- What a handshake meets: the answers of OpenSSL, and the directions in which
the remote peer makes `SSL_accept` wait. -/
structure Remote where
  sslNew : Bool := true
  sslSetFd : Bool := true
  waits : List Direction
  sslAccept : Int := 1

/-- An `ssl_socket` that has adopted an accepted descriptor. -/
structure SslPeer extends Socket where
  hasCtx : Bool
  hasSession : Bool := false
  descriptor : Descriptor := {}

namespace SslPeer

/-- `ssl_socket(fd, server_ctx)`. -/
def adopt (fd : ℕ) (hasCtx : Bool) (descriptor : Descriptor) : SslPeer where
  sockfd := some fd
  connected := true
  hasCtx := hasCtx
  descriptor := descriptor

def setBlocking (h : Host) (flag : Bool) (p : SslPeer) : Bool × SslPeer :=
  let r := p.toSocket.setBlocking h flag
  (r.1, { p with
    toSocket := r.2
    descriptor := if r.1 then { p.descriptor with nonblocking := !flag } else p.descriptor })

/-- `set_read_timeout` and `set_write_timeout`: they change the object alone. -/
def setTimeouts (timeoutMs : Int) (p : SslPeer) : Bool × SslPeer :=
  let r := p.toSocket.setReadTimeout timeoutMs
  if !r.1 then (false, { p with toSocket := r.2 })
  else
    let w := r.2.setWriteTimeout timeoutMs
    (w.1, { p with toSocket := w.2 })

def performServerHandshake (remote : Remote) (p : SslPeer) : Int × SslPeer × List Wait :=
  let fail (code : Int) (p : SslPeer) : Int × SslPeer :=
    (code, { p with toSocket := p.toSocket.setError code })
  if !p.hasCtx || !p.isValidSocket then
    let r := fail sslErrorInit p
    (r.1, r.2, [])
  else if !remote.sslNew || !remote.sslSetFd then
    let r := fail sslErrorInit { p with hasSession := remote.sslNew }
    (r.1, r.2, [])
  else
    let p := { p with hasSession := true }
    let r := if remote.sslAccept ≠ 1 then fail sslErrorHandshake p else fail errNone p
    (r.1, r.2, p.descriptor.waits remote.waits)

end SslPeer

structure SslServerSocket extends Listener where
  hasCtx : Bool := true
  handshakeTimeoutMs : Int := 5000
  timeout_low : 100 ≤ handshakeTimeoutMs := by decide
  timeout_high : handshakeTimeoutMs ≤ 60000 := by decide

namespace SslServerSocket

def setError (code : Int) (s : SslServerSocket) : SslServerSocket :=
  { s with toSocket := s.toSocket.setError code }

def setHandshakeTimeout (milliseconds : Int) (s : SslServerSocket) : Int × SslServerSocket :=
  if h : 100 ≤ milliseconds ∧ milliseconds ≤ 60000 then
    (errNone, { s with
      handshakeTimeoutMs := milliseconds, timeout_low := h.1, timeout_high := h.2 }.setError errNone)
  else (sslError, s.setError sslError)

/-- `create_accepted_socket`: the peer if its handshake succeeded, and the
waits of `SSL_accept`. -/
def createAcceptedSocket (h : Host) (remote : Remote) (descriptor : Descriptor) (fd : ℕ)
    (s : SslServerSocket) : Option SslPeer × SslServerSocket × List Wait :=
  let refuse (code : Int) := (s.setError code).toSocket.record (.closed fd)
  let mode := (SslPeer.adopt fd s.hasCtx descriptor).setBlocking h true
  let timed := mode.2.setTimeouts s.handshakeTimeoutMs
  if !mode.1 || !timed.1 then (none, { s with toSocket := refuse sslErrorIo }, [])
  else
    let shaken := timed.2.performServerHandshake remote
    if shaken.1 ≠ errNone then
      (none, { s with toSocket := refuse shaken.2.1.errorCode }, shaken.2.2)
    else
      let restored := shaken.2.1.setTimeouts 0
      if !restored.1 then (none, { s with toSocket := refuse sslErrorIo }, shaken.2.2)
      else (some restored.2, s.setError errNone, shaken.2.2)

/-- What `server_socket::accept` does with the object that the factory made. -/
def adoptPeer (peerHost : Host) (blocking : Bool) (peer : Peer) (fd : ℕ) (made : Option SslPeer)
    (s : SslServerSocket) : Bool × SslServerSocket :=
  match made with
  | none => (false, s)
  | some p =>
    if !(p.setBlocking peerHost blocking).1 then
      (false, { s with toSocket := s.toSocket.record (.closed fd) })
    else
      let r := s.peers.addPeer peer
      (r.1, { s with peers := r.2 })

/-- `accept(blocking)`: whether there is a peer, and the waits of `SSL_accept`.
The host of the peer answers the native calls on its descriptor. -/
def accept (h peerHost : Host) (remote : Remote) (descriptor : Descriptor) (blocking : Bool)
    (peer : Peer) (s : SslServerSocket) : Bool × SslServerSocket × List Wait :=
  let accepted := s.toSocket.tcpAccept h s.acceptTimeoutMs
  let s := { s with toSocket := accepted.2 }
  match accepted.1 with
  | none => (false, s, [])
  | some fd =>
    let made := s.createAcceptedSocket peerHost remote { descriptor with nonblocking := !blocking } fd
    let r := made.2.1.adoptPeer peerHost blocking peer fd made.1
    (r.1, r.2, made.2.2)

/-- Every call before `SSL_accept` succeeds. -/
def reachesHandshake (h peerHost : Host) (remote : Remote) (s : SslServerSocket) : Bool :=
  (s.toSocket.tcpAccept h s.acceptTimeoutMs).1.isSome && peerHost.fcntl 0 == 0 && s.hasCtx &&
    remote.sslNew && remote.sslSetFd

/-- The object timeouts that are set before the handshake are in range, and do
not reach the descriptor. -/
theorem setTimeouts_handshake (s : SslServerSocket) (p : SslPeer) :
    (p.setTimeouts s.handshakeTimeoutMs).1 = true ∧
      (p.setTimeouts s.handshakeTimeoutMs).2.descriptor = p.descriptor ∧
      (p.setTimeouts s.handshakeTimeoutMs).2.hasCtx = p.hasCtx ∧
      (p.setTimeouts s.handshakeTimeoutMs).2.isValidSocket = p.isValidSocket := by
  have hlow := s.timeout_low
  have hnot : ¬s.handshakeTimeoutMs < 0 := by omega
  simp [SslPeer.setTimeouts, Socket.setReadTimeout, Socket.setWriteTimeout, hnot,
    Socket.isValidSocket]

theorem performServerHandshake_waits (remote : Remote) (p : SslPeer) :
    (p.performServerHandshake remote).2.2 =
      if p.hasCtx && p.isValidSocket && remote.sslNew && remote.sslSetFd then
        p.descriptor.waits remote.waits
      else [] := by
  unfold SslPeer.performServerHandshake
  cases p.hasCtx <;> cases p.isValidSocket <;> cases remote.sslNew <;> cases remote.sslSetFd <;> rfl

/-- The adopted peer is blocking when its handshake starts. -/
theorem adopt_setBlocking (h : Host) (fd : ℕ) (hasCtx : Bool) (descriptor : Descriptor)
    (hf : h.fcntl 0 = 0) : ∃ p, (SslPeer.adopt fd hasCtx descriptor).setBlocking h true = (true, p) ∧
      p.descriptor = { descriptor with nonblocking := false } ∧ p.hasCtx = hasCtx ∧
      p.isValidSocket = true := by
  simp [SslPeer.setBlocking, SslPeer.adopt, Socket.setBlocking, Socket.isValidSocket, hf,
    Socket.ticked]

theorem createAcceptedSocket_waits (h : Host) (remote : Remote) (descriptor : Descriptor) (fd : ℕ)
    (s : SslServerSocket) : (s.createAcceptedSocket h remote descriptor fd).2.2 =
      if h.fcntl 0 == 0 && s.hasCtx && remote.sslNew && remote.sslSetFd then
        remote.waits.map fun dir => ⟨dir, descriptor.timeout dir⟩
      else [] := by
  unfold createAcceptedSocket
  dsimp only
  by_cases hf : h.fcntl 0 = 0
  · obtain ⟨p, hmode, hdesc, hctx, hvalid⟩ := adopt_setBlocking h fd s.hasCtx descriptor hf
    obtain ⟨htimed, htd, htc, htv⟩ := setTimeouts_handshake s p
    have hwaits := performServerHandshake_waits remote (p.setTimeouts s.handshakeTimeoutMs).2
    rw [htc, hctx, htv, hvalid, htd, hdesc] at hwaits
    simp only [hmode, htimed, Bool.not_true, Bool.or_self, Bool.false_eq_true, if_false, hf,
      beq_self_eq_true, Bool.true_and]
    rw [Bool.and_true] at hwaits
    split
    · exact hwaits
    · split <;> exact hwaits
  · have hmode : ((SslPeer.adopt fd s.hasCtx descriptor).setBlocking h true).1 = false := by
      simp [SslPeer.setBlocking, SslPeer.adopt, Socket.setBlocking, Socket.isValidSocket, hf]
    simp [hmode, hf]

/-- The waits of `SSL_accept` have the bounds of the accepted descriptor and
no others. -/
theorem accept_waits (h peerHost : Host) (remote : Remote) (descriptor : Descriptor)
    (blocking : Bool) (peer : Peer) (s : SslServerSocket) :
    (s.accept h peerHost remote descriptor blocking peer).2.2 =
      if s.reachesHandshake h peerHost remote then
        remote.waits.map fun dir => ⟨dir, descriptor.timeout dir⟩
      else [] := by
  unfold accept reachesHandshake
  dsimp only
  generalize s.toSocket.tcpAccept h s.acceptTimeoutMs = accepted
  rcases accepted with ⟨_ | fd, t⟩
  · rfl
  · dsimp only
    rw [createAcceptedSocket_waits]
    rfl

/-- Every wait ends by itself within the configured time. -/
def WaitsBounded (milliseconds : Int) (waits : List Wait) : Prop :=
  ∀ w ∈ waits, ∃ b : ℕ, w.bound = some b ∧ (b : Int) ≤ milliseconds

/-- The handshake timeout bounds the waits of `SSL_accept` exactly when it does
not get to wait, or the accepted descriptor came with native timeouts as short. -/
theorem accept_bounded_iff (h peerHost : Host) (remote : Remote) (descriptor : Descriptor)
    (blocking : Bool) (peer : Peer) (s : SslServerSocket) :
    WaitsBounded s.handshakeTimeoutMs
        (s.accept h peerHost remote descriptor blocking peer).2.2 ↔
      (s.reachesHandshake h peerHost remote = true → ∀ dir ∈ remote.waits,
        ∃ b : ℕ, descriptor.timeout dir = some b ∧ (b : Int) ≤ s.handshakeTimeoutMs) := by
  rw [accept_waits]
  cases s.reachesHandshake h peerHost remote with
  | false => exact ⟨fun _ hr => absurd hr (by decide), fun _ w hw => absurd hw (by simp)⟩
  | true => simp [WaitsBounded]

/-- A peer that never sends a byte makes `SSL_accept` wait to receive. -/
def silent : Remote where
  waits := [.receive]
  sslAccept := -1

theorem accept_unbounded : ¬ ∀ (h peerHost : Host) (remote : Remote) (descriptor : Descriptor)
    (blocking : Bool) (peer : Peer) (s : SslServerSocket), WaitsBounded s.handshakeTimeoutMs
      (s.accept h peerHost remote descriptor blocking peer).2.2 := by
  intro hall
  have hw := hall .steady .steady silent {} true 1 { sockfd := some 3, connected := true }
    ⟨.receive, none⟩ (by decide)
  obtain ⟨b, hb, -⟩ := hw
  cases hb

end SslServerSocket

end Aeon
