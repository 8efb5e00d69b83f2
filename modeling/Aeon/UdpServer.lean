import Aeon.Library.Reentrant
import Aeon.Udp

/-!
# UDP servers and their logical peers

`udp_server_socket` and `udp_server_event_socket`.  A logical peer is an
endpoint that the server has heard of or was asked for.  It has no descriptor
and no handlers: closing one calls nothing back.
-/

namespace Aeon

open Program

/-- A `udp_socket` with a parent, known by the address of its object. -/
structure UdpPeer where
  address : ℕ
  remoteAddr : Sockaddr
  peerActive : Bool := true
  connected : Bool := true
  errorCode : Int := errNone
  n : Int := 0
  deriving DecidableEq, Repr

namespace UdpPeer

/-- `udp_socket::close` of a logical peer. -/
def close (p : UdpPeer) : Bool × UdpPeer :=
  (p.peerActive, { p with peerActive := false, connected := false })

def isValidSocket (parent : UdpSocket) (p : UdpPeer) : Bool := p.peerActive && parent.isValidSocket

/-- `write(data, size)` of a logical peer, on the descriptor of its parent. -/
def write (parent : UdpSocket) (answer : IoResult) (data : Option (List UInt8)) (size : Int)
    (p : UdpPeer) : Sent × UdpPeer :=
  let sent := sendDatagram (p.isValidSocket parent) (parent.sockfd.getD 0) parent.netFamily
    p.remoteAddr answer data size
  (sent, { p with errorCode := sent.errorCode, n := if sent.call.isSome then sent.ret else p.n })

end UdpPeer

/-- `fresh` numbers the peer objects that the server makes. -/
structure UdpServer extends UdpSocket where
  owned : List UdpPeer := []
  members : List ℕ := []
  closingPeers : Bool := false
  fresh : ℕ := 0
  deriving DecidableEq, Repr

/-- The two server classes.  Only the event class has handlers. -/
inductive UdpServerClass
  | udpServerSocket | udpServerEventSocket
  deriving DecidableEq, Repr

inductive UdpNote
  | listening
  | closed
  | datagram (bytes : List UInt8) (sender : Sockaddr)
  | error (code : Int)
  deriving DecidableEq, Repr

namespace UdpServer

variable (h : UdpHost)

def socketPart : Part UdpServer UdpSocket where
  get s := s.toUdpSocket
  set u s := { s with toUdpSocket := u }
  get_set _ _ := rfl
  set_get _ := rfl

def record (ev : Event) (s : UdpServer) : UdpServer :=
  { s with toUdpSocket := s.toUdpSocket.record ev }

/-- The constructor of the event class makes the descriptor nonblocking, or gives it up. -/
def construct (c : UdpServerClass) (tick : ℕ) : UdpServer :=
  let base := UdpSocket.construct h tick
  match c with
  | .udpServerSocket => { toUdpSocket := base }
  | .udpServerEventSocket =>
    if !base.isValidSocket then { toUdpSocket := base }
    else
      let mode := base.toSocket.setBlocking h.toHost false
      let closed := if mode.1 then mode.2 else (mode.2.close h.toHost).2
      { toUdpSocket := { base with toSocket := closed } }

/-- The peer that an entry of the member set points to. -/
def peerAt (address : ℕ) (s : UdpServer) : Option UdpPeer :=
  s.owned.find? (·.address = address)

def findUdpPeer (remote : Sockaddr) (s : UdpServer) : Option UdpPeer :=
  s.members.findSome? fun address =>
    (s.peerAt address).filter fun p => p.remoteAddr.sameUdpAddress remote

/-- A null pointer is `none`.  The peer is detached, closed and destroyed. -/
def removeOwnedPeer (peer : Option ℕ) (s : UdpServer) : Bool × UdpServer :=
  match peer.bind s.peerAt with
  | none => (false, s)
  | some p =>
    (true, { s with
      owned := s.owned.eraseP (·.address = p.address), members := s.members.erase p.address })

/-- `add_peer(new udp_socket(server, remote))`. -/
def addPeer (remote : Sockaddr) (s : UdpServer) : ℕ × UdpServer :=
  (s.fresh, { s with
    owned := s.owned ++ [{ address := s.fresh, remoteAddr := remote }]
    members := s.members ++ [s.fresh]
    fresh := s.fresh + 1 })

def createPeer (remote : Sockaddr) (s : UdpServer) : Option ℕ × UdpServer :=
  if remote.family = .other then (none, s)
  else
    let r := s.addPeer remote
    (some r.1, r.2)

/-- `get_or_create_udp_peer`, which is `get_peer`. -/
def getPeer (remote : Sockaddr) (s : UdpServer) : Option ℕ × UdpServer :=
  if !s.isValidSocket then (none, s)
  else match s.findUdpPeer remote with
    | none => s.createPeer remote
    | some existing =>
      if existing.peerActive then (some existing.address, s)
      else (s.removeOwnedPeer (some existing.address)).2.createPeer remote

@[simp] theorem removeOwnedPeer_base (peer : Option ℕ) (s : UdpServer) :
    (s.removeOwnedPeer peer).2.toUdpSocket = s.toUdpSocket := by
  unfold removeOwnedPeer
  split <;> rfl

@[simp] theorem createPeer_base (remote : Sockaddr) (s : UdpServer) :
    (s.createPeer remote).2.toUdpSocket = s.toUdpSocket := by
  unfold createPeer
  split <;> rfl

@[simp] theorem getPeer_base (remote : Sockaddr) (s : UdpServer) :
    (s.getPeer remote).2.toUdpSocket = s.toUdpSocket := by
  unfold getPeer
  split
  · rfl
  · split
    · exact createPeer_base remote s
    · split
      · rfl
      · rw [createPeer_base, removeOwnedPeer_base]

/-- No handler runs in between, so every slot is visited once. -/
def closeOwnedPeers (s : UdpServer) : Bool × UdpServer :=
  if s.closingPeers then (false, s)
  else (s.owned.any (·.peerActive), { s with owned := s.owned.map fun p => p.close.2 })

/-- The application closes a peer that it has a pointer to. -/
def closePeer (address : ℕ) (s : UdpServer) : Bool × UdpServer :=
  ((s.peerAt address).elim false (·.peerActive), { s with
    owned := s.owned.map fun p => if p.address = address then p.close.2 else p })

/-- The application writes through a peer that it has a pointer to. -/
def writePeer (address : ℕ) (answer : IoResult) (data : Option (List UInt8)) (size : Int)
    (s : UdpServer) : Option Sent × UdpServer :=
  ((s.peerAt address).map fun p => (p.write s.toUdpSocket answer data size).1, { s with
    owned := s.owned.map fun p =>
      if p.address = address then (p.write s.toUdpSocket answer data size).2 else p })

/-- `write` of the server itself. -/
def write (answer : IoResult) (data : Option (List UInt8)) (size : Int) (s : UdpServer) :
    Sent × UdpServer :=
  let r := s.toUdpSocket.write answer data size
  (r.1, { s with toUdpSocket := r.2 })

def read (buffer : Bool) (size : Int) (s : UdpServer) : (Int × List UInt8) × UdpServer :=
  let r := s.toUdpSocket.read h buffer size
  let s := { s with toUdpSocket := r.2 }
  (r.1, if r.1.1 ≥ 0 then (s.getPeer s.remoteAddr).2 else s)

/-- `read(size)`, which gives a string. -/
def readString (size : Int) (s : UdpServer) : List UInt8 × UdpServer :=
  if !s.isValidSocket || size ≤ 0 then ([], s)
  else
    let r := s.read h true size
    (if r.1.1 ≤ 0 then [] else r.1.2.take r.1.1.toNat, r.2)

def maxBufferSize : ℕ := 256

/-- `read()`, into the buffer of the object. -/
def readInternal (s : UdpServer) : (Int × List UInt8) × UdpServer :=
  s.read h true (maxBufferSize - 1)

section Callbacks

variable (c : UdpServerClass) (cb : UdpNote → Code UdpServer Unit)

/-- A handler call, which only the event class makes. -/
def fire (note : UdpNote) : Code UdpServer Unit :=
  Code.whenever (c == .udpServerEventSocket) (cb note)

def listen (port : Int) : Code UdpServer Bool := do
  let ok ← socketPart.run fun s => s.udpListen h port
  if ok then
    let _ ← Code.update closeOwnedPeers
    fire c cb .listening
    return true
  else return false

/-- `listen()`, with the port the object holds. -/
def listenStored : Code UdpServer Bool := do
  let port ← Code.read fun s => s.port
  listen h c cb port

def close : Code UdpServer Bool := do
  let changed ← socketPart.run fun s =>
    let r := s.toSocket.close h.toHost
    (r.1, { s with toSocket := r.2 })
  Code.whenever changed (fire c cb .closed)
  let closed ← Code.update closeOwnedPeers
  return closed || changed

/-- `fire_on_datagram`, which registers the sender first. -/
def fireOnDatagram (bytes : List UInt8) (sender : Sockaddr) : Code UdpServer Unit := do
  let _ ← Code.update (getPeer sender)
  cb (.datagram bytes sender)

/-- `fire_on_error` of the poll loop, with the error set before it. -/
def reportError (code : Int) : Code UdpServer Unit := do
  Code.modify fun s => { s with errorCode := code, n := -1 }
  cb (.error code)

/-- The datagram branch of the poll loop on the descriptor of the server. -/
def dispatch (flags : Flags) : Code UdpServer Unit := do
  let s ← Code.read id
  if s.isValidSocket then
    if flags.pollin then
      let answer := h.recvfrom s.tick maxBufferSize
      Code.modify fun s => { s with toSocket := s.ticked.toSocket }
      if answer.1.ret ≥ 0 then
        Code.modify fun s => { s.record (.received (s.sockfd.getD 0) answer.2.2) with
          n := answer.1.ret, remoteAddr := answer.2.2 }
        fireOnDatagram cb answer.2.1 answer.2.2
      else if !wouldBlockError answer.1.errno then
        reportError cb (translateNativeError answer.1.errno)
    else if flags.pollnval then reportError cb errNoSocket
    else if flags.pollerr then
      let pending := h.getsockopt s.tick
      Code.modify fun s => { s with toSocket := s.ticked.toSocket }
      reportError cb (socketPendingError pending)

end Callbacks

end UdpServer

/-- What an application can do with a server and its peers. -/
inductive UdpOp
  | listen (port : Int)
  | listenStored
  | close
  | read (buffer : Bool) (size : Int)
  | readString (size : Int)
  | readInternal
  | getPeer (remote : Sockaddr)
  | removePeer (peer : Option ℕ)
  | closePeer (address : ℕ)
  | writePeer (address : ℕ) (answer : IoResult) (data : Option (List UInt8)) (size : Int)
  | write (answer : IoResult) (data : Option (List UInt8)) (size : Int)
  | setReadTimeout (timeoutMs : Int)
  | setBlocking (flag : Bool)
  | dispatch (flags : Flags)

namespace UdpServer

variable (h : UdpHost) (c : UdpServerClass)

/-- A function of the base object, on the whole object. -/
def onSocket {α : Type} (f : Socket → α × Socket) (s : UdpServer) : α × UdpServer :=
  ((f s.toSocket).1, { s with toSocket := (f s.toSocket).2 })

def exec (cb : UdpNote → Code UdpServer Unit) : UdpOp → Code UdpServer Unit
  | .listen port => do let _ ← listen h c cb port
  | .listenStored => do let _ ← listenStored h c cb
  | .close => do let _ ← close h c cb
  | .read buffer size => do let _ ← Code.update (read h buffer size)
  | .readString size => do let _ ← Code.update (readString h size)
  | .readInternal => do let _ ← Code.update (readInternal h)
  | .getPeer remote => do let _ ← Code.update (getPeer remote)
  | .removePeer peer => do let _ ← Code.update (removeOwnedPeer peer)
  | .closePeer address => do let _ ← Code.update (closePeer address)
  | .writePeer address answer data size => do
    let _ ← Code.update (writePeer address answer data size)
  | .write answer data size => do let _ ← Code.update (write answer data size)
  | .setReadTimeout timeoutMs => do let _ ← Code.update (onSocket (Socket.setReadTimeout timeoutMs))
  | .setBlocking flag => do let _ ← Code.update (onSocket (Socket.setBlocking h.toHost flag))
  | .dispatch flags => Code.whenever (c == .udpServerEventSocket) (dispatch h cb flags)

def system : Reentrant.System UdpServer UdpNote UdpOp := ⟨exec h c⟩

/-- The states that an application can bring a server to, with handlers that do
anything to the same server and may throw. -/
def Reaches (s : UdpServer) : Prop :=
  ∃ tick, Reentrant.Run (system h c) (fun _ _ => True) (fun _ _ => True) (fun _ _ => True)
    (construct h c tick) s

/-- One operation more, with handlers that do nothing. -/
theorem Reaches.next {h : UdpHost} {c : UdpServerClass} {s : UdpServer} (hs : Reaches h c s)
    (o : UdpOp) : Reaches h c (exec h c (fun _ => pure ()) o s).2 :=
  let ⟨tick, hrun⟩ := hs
  ⟨tick, .next o _ hrun trivial (.idle _ _ _)⟩

end UdpServer

end Aeon
