import Aeon.Tcp

/-!
# Connectionless sockets

`udp_socket`.  A destination or a port is selected on a new descriptor, which
replaces the old one once it is ready.
-/

namespace Aeon

open Errno

/-- The answers that only the datagram functions ask for.  `recvfrom` is also given the
room there is for what it receives.  `lastError` is what `errno` holds after a call whose
other answers do not carry it. -/
structure UdpHost extends Host where
  getaddrinfoDgram : ℕ → Option (List Sockaddr)
  recvfrom : ℕ → ℕ → IoResult × List UInt8 × Sockaddr
  lastError : ℕ → ℕ

def UdpHost.steady : UdpHost where
  toHost := .steady
  getaddrinfoDgram _ := some [.other]
  recvfrom _ _ := (⟨0, 0⟩, [], .other)
  lastError _ := 0

/-- A call of `sendto`. -/
structure SendCall where
  fd : ℕ
  target : Sockaddr
  data : List UInt8
  deriving DecidableEq, Repr

/-- What `send_datagram` returns and leaves on its object, with the native call if it
has made one. -/
structure Sent where
  ret : Int
  errorCode : Int
  call : Option SendCall := none
  deriving DecidableEq, Repr

/-- `send_datagram` on the descriptor `fd`, to which the native call answers `answer`. -/
def sendDatagram (valid : Bool) (fd : ℕ) (family : Family) (remote : Sockaddr) (answer : IoResult)
    (data : Option (List UInt8)) (size : Int) : Sent :=
  if !valid || size < 0 || (0 < size && data.isNone) then
    ⟨-1, if valid then errInvalidArgument else errNoSocket, none⟩
  else match remote.native family with
    | none => ⟨-1, errAddressNotAvailable, none⟩
    | some target =>
      ⟨answer.ret, if answer.ret < 0 then translateNativeError answer.errno else errNone,
        some ⟨fd, target, (data.getD []).take size.toNat⟩⟩

/-- A `native_bind_fn`: what it returns at a tick for a descriptor and an address. -/
abbrev NativeBindFn := ℕ → ℕ → Sockaddr → Int

structure UdpSocket extends Socket where
  remoteAddr : Sockaddr := .other
  deriving DecidableEq, Repr

namespace UdpSocket

variable (h : UdpHost)

def fail (code : Int) (state : ℕ) (s : UdpSocket) : UdpSocket :=
  { s with toSocket := s.toSocket.fail code state }

def record (ev : Event) (s : UdpSocket) : UdpSocket := { s with toSocket := s.toSocket.record ev }

def ticked (s : UdpSocket) : UdpSocket := { s with toSocket := s.toSocket.ticked }

/-- `udp_socket()`; the answer of `set_socket_reuseaddr` is not looked at. -/
def construct (tick : ℕ) : UdpSocket :=
  let s : UdpSocket := { toSocket := Socket.construct h.toHost tick }
  if s.isValidSocket then s.ticked else s

/-- `close_candidate`, whose answer is not looked at. -/
def closeCandidate (fd : ℕ) (s : UdpSocket) : UdpSocket := s.ticked.record (.closed fd)

def closePrior (prior : Option ℕ) (s : UdpSocket) : UdpSocket :=
  match prior with
  | none => s
  | some fd => s.closeCandidate fd

/-- A new descriptor of the family, in the given mode. -/
def selectFamily (family : Family) (blocking : Bool) (s : UdpSocket) : Option ℕ × UdpSocket :=
  if family = .other then (none, s)
  else match h.socket s.tick with
    | none => (none, s.ticked)
    | some candidate =>
      let s := s.ticked.record (.opened candidate)
      let err := h.fcntl s.tick
      let s := s.ticked
      if err ≠ 0 then (none, s.closeCandidate candidate)
      else (some candidate, s.record (.configured candidate family blocking))

/-- The fields that both ways of success set. -/
def settled (s : UdpSocket) : UdpSocket := s.fail errNone 0

def udpConnectAddress (target : Sockaddr) (s : UdpSocket) : Bool × UdpSocket :=
  let selected (s : UdpSocket) : Bool × UdpSocket :=
    (true, { s with
      remoteAddr := target, port := target.getPort.toNat, connected := true }.settled)
  if target.family = .other then (false, s.fail errNoHost stateConnect)
  else if s.sockfd.isNone || target.family ≠ s.netFamily then
    let made := s.selectFamily h target.family s.blocking
    match made.1 with
    | none => (false, made.2.fail errNoSocket stateCreate)
    | some candidate =>
      selected ({ made.2 with sockfd := some candidate, netFamily := target.family }.closePrior
        made.2.sockfd)
  else selected s

/-- The resolved addresses in order; those of other families are skipped. -/
def udpConnectEntries : List Sockaddr → UdpSocket → Bool × UdpSocket
  | [], s => (false, s)
  | .other :: entries, s => udpConnectEntries entries s
  | target :: entries, s =>
    let r := s.udpConnectAddress h target
    if r.1 then r else udpConnectEntries entries r.2

def udpConnectHost (hostname : Option String) (port : Int) (s : UdpSocket) : Bool × UdpSocket :=
  let hostname := hostname.getD ""
  if hostname.isEmpty || !isValidPort port then (false, s.fail errNoHost stateConnect)
  else match h.getaddrinfoDgram s.tick with
    | none => (false, s.ticked.fail errNoHost stateConnect)
    | some entries =>
      let r := udpConnectEntries h entries s.ticked
      if r.1 then (true, { r.2 with hostname := hostname })
      else (false, r.2.fail errNoHost stateConnect)

/-- `udp_connect()`, with the destination the object holds. -/
def udpConnectStored (s : UdpSocket) : Bool × UdpSocket := s.udpConnectAddress h s.remoteAddr

/-- `in6addr_any` or `INADDR_ANY`, with the port. -/
def wildcard (family : Family) (port : Int) : Sockaddr :=
  match family with
  | .inet6 => .inet6 (.ofNat port.toNat) 0 (.replicate 16 0) 0
  | _ => .inet (.ofNat port.toNat) (.replicate 4 0)

/-- One family of `udp_listen`: nothing when it is bound, or else the error. -/
def listenFamily (bind : NativeBindFn) (port : Int) (family : Family) (s : UdpSocket) :
    Option Int × UdpSocket :=
  let made := s.selectFamily h family s.blocking
  match made.1 with
  | none => (some (translateNativeError (h.lastError made.2.tick)), made.2.ticked)
  | some candidate =>
    let dual := if family = .inet6 then h.setsockopt made.2.tick else 0
    let s := if family = .inet6 then made.2.ticked else made.2
    if dual ≠ 0 then (some (translateNativeError dual), s.closeCandidate candidate)
    else
      let answer := bind s.tick candidate (wildcard family port)
      let s := s.ticked.record (.bound candidate)
      if answer = 0 then
        (none, ({ s with
          sockfd := some candidate
          netFamily := family
          port := port
          connected := false
          remoteAddr := .other }.settled).closePrior s.sockfd)
      else (some (translateNativeError (h.lastError s.tick)), s.ticked.closeCandidate candidate)

/-- The families in order, until one is bound; `lastError` is that of the one before. -/
def listenFamilies (bind : NativeBindFn) (port : Int) :
    List Family → Int → UdpSocket → Bool × UdpSocket
  | [], lastError, s => (false, s.fail lastError stateBind)
  | family :: families, _, s =>
    match s.listenFamily h bind port family with
    | (none, s) => (true, s)
    | (some error, s) => listenFamilies bind port families error s

def udpListenWith (port : Int) (bind : Option NativeBindFn) (s : UdpSocket) : Bool × UdpSocket :=
  match bind with
  | none => (false, s.fail errNoSocket stateBind)
  | some bind =>
    if !isValidPort port then (false, s.fail errNoSocket stateBind)
    else listenFamilies h bind port [.inet6, .inet] errNoSocket s

def nativeBind : NativeBindFn := fun tick _ _ => if h.bind tick = 0 then 0 else -1

def udpListen (port : Int) (s : UdpSocket) : Bool × UdpSocket :=
  s.udpListenWith h port (some (nativeBind h))

/-- `write(data, size)` of a socket that is not a logical peer. -/
def write (answer : IoResult) (data : Option (List UInt8)) (size : Int) (s : UdpSocket) :
    Sent × UdpSocket :=
  let sent := sendDatagram s.isValidSocket (s.sockfd.getD 0) s.netFamily s.remoteAddr answer data size
  (sent, { s with errorCode := sent.errorCode, n := if sent.call.isSome then sent.ret else s.n })

/-- `read(buffer, size)` of a socket that is not a logical peer. -/
def read (buffer : Bool) (size : Int) (s : UdpSocket) : (Int × List UInt8) × UdpSocket :=
  if !buffer || !s.isValidSocket || size ≤ 0 then
    ((-1, []), { s with
      errorCode := if s.isValidSocket then errInvalidArgument else errNoSocket, n := -1 })
  else
    let waits := s.readTimeoutMs > 0
    let ready := if waits then h.select s.tick else ⟨1, 0⟩
    let s := if waits then s.ticked else s
    if ready.ret = 0 then ((0, []), { s with errorCode := errTimeout, n := 0 })
    else if ready.ret < 0 then
      ((-1, []), { s.fail (translateNativeError ready.errno) stateAccept with n := -1 })
    else
      let answer := h.recvfrom s.tick size.toNat
      let s := { s.ticked with n := answer.1.ret }
      if answer.1.ret < 0 then
        ((answer.1.ret, []), s.fail (translateNativeError answer.1.errno) stateAccept)
      else
        ((answer.1.ret, answer.2.1), { s with
          remoteAddr := answer.2.2, errorCode := errNone }.record
            (.received (s.sockfd.getD 0) answer.2.2))

end UdpSocket

end Aeon
