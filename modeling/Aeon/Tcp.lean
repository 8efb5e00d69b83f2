import Aeon.Socket
import Aeon.Library.Program

/-!
# Connecting, listening and accepting

The TCP functions of the base class.  They close the old descriptor through the
virtual `close` of the whole object, so they are written over any state that
has a base object in it.
-/

namespace Aeon

open Program Errno

def isValidPort (port : Int) : Bool := 0 ≤ port && port ≤ 65535

namespace Socket

/-- What the `close` before a new descriptor has left open, if a handler has
opened the object again. -/
def noteReopened (s : Socket) : Socket := s.sockfd.elim s fun fd => s.record (.reopened fd)

/-- `sockfd = ::socket(family, SOCK_STREAM, 0)` and the check after it. -/
def create (h : Host) (family : Family) (s : Socket) : Bool × Socket :=
  let s := { s.noteReopened with sockfd := h.socket s.tick }.ticked
  match s.sockfd with
  | none => (false, s.fail errNoSocket stateCreate)
  | some fd => (true, { s.record (.opened fd) with netFamily := family })

def tcpBind (h : Host) (s : Socket) : Bool × Socket :=
  if !s.isValidSocket then (false, s.fail errNoSocket stateBind)
  else
    let err := h.bind s.tick
    if err ≠ 0 then (false, s.ticked.fail (translateNativeError err) stateBind)
    else (true, s.ticked.setError errNone)

/-- The options of a new listening descriptor; their failures are not looked at. -/
def prepareListen (h : Host) (family : Family) (port : Int) (s : Socket) : Socket :=
  let s := ({ s with port := port }.setOption h).2
  if family = .inet6 then (s.setOption h).2 else s

def nativeListen (h : Host) (s : Socket) : Bool × Socket :=
  let err := h.listen s.tick
  if err ≠ 0 then (false, s.ticked.fail (translateNativeError err) stateAccept)
  else (true, { s.ticked with connected := true, errorState := 0, errorCode := errNone })

/-- A connect that may be pending: wait for writability, then ask for its outcome. -/
def pendingConnect (h : Host) (s : Socket) : Bool × Socket :=
  let err := h.connect s.tick
  let s := s.ticked
  if err = 0 then (true, s)
  else if err = EINPROGRESS ∨ err = EWOULDBLOCK then
    let ready := h.select s.tick
    let s := s.ticked
    if ready.ret > 0 then
      let answer := h.getsockopt s.tick
      let s := s.ticked
      if answer.ret = 0 ∧ answer.errno = 0 then (true, s)
      else (false, s.fail (translateNativeError answer.errno) stateConnect)
    else if ready.ret = 0 then (false, s.fail errTimeout stateConnect)
    else (false, s.fail (translateNativeError ready.errno) stateConnect)
  else (false, s.fail (translateNativeError err) stateConnect)

/-- The connect of `connect_timeout_ms > 0`, under a `blocking_mode_guard`. -/
def guardedConnect (h : Host) (s : Socket) : Bool × Socket :=
  let original := s.blocking
  let guarded := s.setBlocking h false
  if !guarded.1 then (false, guarded.2.fail guarded.2.errorCode stateConnect)
  else
    let r := guarded.2.pendingConnect h
    let restored := r.2.setBlocking h original
    (r.1, if restored.1 && r.2.errorCode != errNone then restored.2.setError r.2.errorCode
      else restored.2)

def plainConnect (h : Host) (s : Socket) : Bool × Socket :=
  let err := h.connect s.tick
  if err = 0 then (true, s.ticked)
  else (false, s.ticked.fail (translateNativeError err) stateConnect)

def nativeConnect (h : Host) (s : Socket) : Bool × Socket :=
  if s.connectTimeoutMs > 0 then s.guardedConnect h else s.plainConnect h

def connectDone (s : Socket) : Socket :=
  { s with connected := true, errorCode := errNone, errorState := 0 }

/-- `tcp_accept`: the accepted descriptor, if any.  A descriptor whose mode
cannot be set is closed again. -/
def tcpAccept (h : Host) (timeoutMs : Int) (s : Socket) : Option ℕ × Socket :=
  if !s.isValidSocket then (none, s.fail errNoSocket stateAccept)
  else
    let ready := if timeoutMs > 0 then h.select s.tick else ⟨1, 0⟩
    let s := if timeoutMs > 0 then s.ticked else s
    if ready.ret = 0 then (none, s)
    else if ready.ret < 0 then (none, s.fail (translateNativeError ready.errno) stateAccept)
    else
      let answer := h.accept s.tick
      let s := s.ticked
      match answer.1 with
      | none =>
        if answer.2 = EAGAIN ∨ answer.2 = EWOULDBLOCK ∨ answer.2 = ECONNRESET then (none, s)
        else (none, s.fail (translateNativeError answer.2) stateAccept)
      | some fd =>
        let s := s.record (.opened fd)
        let err := h.fcntl s.tick
        let s := s.ticked
        if err ≠ 0 then
          (none, (s.fail (translateNativeError err) stateAccept).record (.closed fd))
        else (some fd, s.fail errNone 0)

end Socket

/-- What a function of the base class sees of the object it is called on: how a
change of the base object changes the whole, and the virtual `close`. -/
structure This (σ : Type) where
  run : {α : Type} → (Socket → α × Socket) → Code σ α
  close : Code σ Bool

section Virtual

variable {σ : Type} (h : Host) (this : This σ)

def tcpConnectAddress (family : Family) : Code σ Bool := do
  if family = .other then
    this.run fun s => ((), s.fail errNoSocket stateConnect)
    return false
  else
    let _ ← this.close
    let made ← this.run fun s =>
      let r := s.create h family
      (r.1, { r.2 with connected := false })
    if !made then return false
    else
      let succeeded ← this.run fun s => s.nativeConnect h
      if !succeeded then
        let _ ← this.close
        return false
      else
        this.run fun s => ((), s.connectDone)
        return true

/-- The resolved addresses in order, until one connects. -/
def tcpConnectEntries : List Family → Code σ Bool
  | [] => return false
  | .other :: entries => tcpConnectEntries entries
  | family :: entries => do
    let success ← tcpConnectAddress h this family
    if success then return true else tcpConnectEntries entries

/-- `tcp_connect()`, with the host name and port the object holds. -/
def tcpConnectStored : Code σ Bool := do
  let entries ← this.run fun s =>
    if s.hostname.isEmpty || !isValidPort s.port then (none, s.fail errNoHost stateResolve)
    else match h.getaddrinfo s.tick with
      | none => (none, s.ticked.fail errNoHost stateResolve)
      | some entries => (some entries, s.ticked)
  match entries with
  | none => return false
  | some entries => do
    let success ← tcpConnectEntries h this entries
    this.run fun s => ((), { s with connected := success })
    return success

/-- A null pointer is `none`. -/
def tcpConnectHost (hostname : Option String) (port : Int) : Code σ Bool := do
  let hostname := hostname.getD ""
  if hostname.isEmpty || !isValidPort port then
    this.run fun s => ((), s.fail errNoSocket stateConnect)
    return false
  else
    this.run fun s => ((), { s with hostname := hostname, port := port })
    tcpConnectStored h this

/-- Which of `inet_pton(AF_INET6)` and `inet_pton(AF_INET)` reads the text. -/
def listenFamily (ip : String) : Option Family :=
  if h.inetPton .inet6 ip then some .inet6
  else if h.inetPton .inet ip then some .inet
  else none

/-- The arguments that `tcp_listen` accepts, as the family to listen on. -/
def listenTarget (ip : Option String) (port : Int) : Option Family :=
  if isValidPort port then ip.bind (listenFamily h) else none

def tcpListen (ip : Option String) (port : Int) : Code σ Bool := do
  match listenTarget h ip port with
  | none =>
    this.run fun s => ((), s.fail errNoSocket stateBind)
    return false
  | some family => do
    let _ ← this.close
    let made ← this.run fun s => s.create h family
    if !made then return false
    else
      this.run fun s => ((), s.prepareListen h family port)
      let bound ← this.run fun s => s.tcpBind h
      if !bound then
        let _ ← this.close
        return false
      else
        let listening ← this.run fun s => s.nativeListen h
        if !listening then
          let _ ← this.close
          return false
        else return true

end Virtual

end Aeon
