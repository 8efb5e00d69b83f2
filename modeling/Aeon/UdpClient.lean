import Aeon.EventSocket
import Aeon.SocketIo
import Aeon.UdpServer

/-!
# UDP clients

`udp_client_socket` and `udp_client_event_socket`.  The address that a client sends to
is also the one where a read, or the poll loop, leaves the sender of a datagram.
-/

namespace Aeon

open Program

namespace UdpSocket

variable (h : UdpHost)

/-- `read(size)`, which gives a string. -/
def readString (size : Int) (s : UdpSocket) : List UInt8 × UdpSocket :=
  if !s.isValidSocket || size ≤ 0 then ([], s)
  else
    let r := s.read h true size
    (if r.1.1 ≤ 0 then [] else r.1.2.take r.1.1.toNat, r.2)

/-- `read()`, into the buffer of the object. -/
def readInternal (s : UdpSocket) : (Int × List UInt8) × UdpSocket :=
  s.read h true (Socket.maxBufferSize - 1)

/-- The loop of `read_until`, with `left` bytes to go. -/
def readUntilLoop : ℕ → ℕ → List UInt8 → UdpSocket → (Int × List UInt8) × UdpSocket
  | 0, _, got, s => ((got.length, got), s)
  | turns + 1, left, got, s =>
    if left = 0 then ((got.length, got), s)
    else
      let r := s.read h true left
      if r.1.1 ≤ 0 then ((got.length, got), r.2)
      else readUntilLoop turns (left - r.1.1.toNat) (got ++ r.1.2) r.2

/-- `read_until(buffer, size)`, which calls the `read` of the class. -/
def readUntil (buffer : Bool) (size : Int) (s : UdpSocket) : (Int × List UInt8) × UdpSocket :=
  if !buffer || !s.isValidSocket || size ≤ 0 then
    ((-1, []), { s with
      errorCode := if s.isValidSocket then errInvalidArgument else errNoSocket, n := -1 })
  else s.readUntilLoop h size.toNat size.toNat []

/-- `write(data)` of a string, which has a length of its own. -/
def writeString (answer : IoResult) (data : List UInt8) (s : UdpSocket) : Sent × UdpSocket :=
  if data.length > intMax then (⟨-1, s.errorCode, none⟩, s)
  else s.write answer (some data) data.length

/-- `write(data)` of a C string without its terminator. -/
def writeText (answer : IoResult) (data : Option (List UInt8)) (s : UdpSocket) :
    Sent × UdpSocket :=
  match data with
  | none => (⟨-1, s.errorCode, none⟩, s)
  | some data => s.writeString answer data

end UdpSocket

/-- A destination that has been selected, the sender of a datagram, or a call of `sendto`. -/
inductive Traffic
  | selected (target : Sockaddr)
  | received (sender : Sockaddr)
  | sent (call : SendCall)
  deriving DecidableEq, Repr

structure UdpClient extends UdpSocket where
  traffic : List Traffic := []
  deriving DecidableEq, Repr

/-- The two client classes.  Only the event class has handlers. -/
inductive UdpClientClass
  | udpClientSocket | udpClientEventSocket
  deriving DecidableEq, Repr

inductive UdpClientNote
  | connected
  | closed
  | datagram (bytes : List UInt8) (sender : Sockaddr)
  | error (code : Int)
  deriving DecidableEq, Repr

/-- The overloads of `read`, and what else reads from a socket. -/
inductive UdpRecv
  | buffer (buffer : Bool) (size : Int)
  | string (size : Int)
  | internal
  | readUntil (buffer : Bool) (size : Int)
  | readLine (buffer : Bool) (size : Int)
  deriving DecidableEq, Repr

inductive UdpSend
  | sized (data : Option (List UInt8)) (size : Int)
  | text (data : Option (List UInt8))
  | string (data : List UInt8)
  deriving DecidableEq, Repr

def UdpRecv.run (h : UdpHost) : UdpRecv → UdpSocket → UdpSocket
  | buffer b size, s => (s.read h b size).2
  | string size, s => (s.readString h size).2
  | internal, s => (s.readInternal h).2
  | readUntil b size, s => (s.readUntil h b size).2
  | readLine b size, s => { s with toSocket := (s.toSocket.readLine h.toHost b size).2 }

def UdpSend.run (answer : IoResult) : UdpSend → UdpSocket → Sent × UdpSocket
  | sized data size => UdpSocket.write answer data size
  | text data => UdpSocket.writeText answer data
  | string data => UdpSocket.writeString answer data

namespace UdpClient

variable (h : UdpHost)

/-- `udp_event_socket()` makes the descriptor nonblocking, or gives it up. -/
def construct (c : UdpClientClass) (tick : ℕ) : UdpClient where
  toUdpSocket := match c with
    | .udpClientSocket => .construct h tick
    | .udpClientEventSocket => (UdpServer.construct h .udpServerEventSocket tick).toUdpSocket

def note (e : Traffic) : Code UdpClient Unit :=
  Code.modify fun s => { s with traffic := s.traffic ++ [e] }

def socketPart : Part UdpClient UdpSocket where
  get s := s.toUdpSocket
  set u s := { s with toUdpSocket := u }
  get_set _ _ := rfl
  set_get _ := rfl

/-- The senders whose datagrams have been received in between. -/
def heard (before after : UdpSocket) : List Traffic :=
  (after.log.drop before.log.length).filterMap fun
    | .received _ sender => some (.received sender)
    | _ => none

def receive (r : UdpRecv) (s : UdpClient) : UdpClient :=
  let after := r.run h s.toUdpSocket
  { s with toUdpSocket := after, traffic := s.traffic ++ heard s.toUdpSocket after }

/-- What the poll loop does with the address of a sender. -/
def hear (n : Int) (sender : Sockaddr) (s : UdpClient) : UdpClient where
  toUdpSocket := { s.toUdpSocket.record (.received (s.sockfd.getD 0) sender) with
    n := n, remoteAddr := sender }
  traffic := s.traffic ++ [.received sender]

def write (answer : IoResult) (d : UdpSend) (s : UdpClient) : Sent × UdpClient :=
  let r := d.run answer s.toUdpSocket
  (r.1, { s with toUdpSocket := r.2, traffic := s.traffic ++ (r.1.call.map .sent).toList })

section Callbacks

variable (c : UdpClientClass) (cb : UdpClientNote → Code UdpClient Unit)

/-- A handler call, which only the event class makes. -/
def fire (note : UdpClientNote) : Code UdpClient Unit :=
  Code.whenever (c == .udpClientEventSocket) (cb note)

def connectAddress (target : Sockaddr) : Code UdpClient Bool := do
  let ok ← socketPart.run (UdpSocket.udpConnectAddress h target)
  if ok then
    note (.selected target)
    fire c cb .connected
    return true
  else return false

/-- `connect()`, with the destination the object holds. -/
def connectStored : Code UdpClient Bool := do
  let target ← Code.read fun s => s.remoteAddr
  connectAddress h c cb target

/-- `connect(hostname, port)`, which selects one of the resolved addresses. -/
def connectHost (hostname : Option String) (port : Int) : Code UdpClient Bool := do
  let ok ← socketPart.run (UdpSocket.udpConnectHost h hostname port)
  if ok then
    let target ← Code.read fun s => s.remoteAddr
    note (.selected target)
    fire c cb .connected
    return true
  else return false

def close : Code UdpClient Bool := do
  let closed ← socketPart.run fun s =>
    let r := s.toSocket.close h.toHost
    (r.1, { s with toSocket := r.2 })
  Code.whenever closed (fire c cb .closed)
  return closed

/-- `fire_on_error` of the poll loop, with the error set before it. -/
def reportError (code : Int) : Code UdpClient Unit := do
  Code.modify fun s => { s with errorCode := code, n := -1 }
  cb (.error code)

/-- The datagram branch of the poll loop on the descriptor of the client. -/
def dispatch (flags : Flags) : Code UdpClient Unit := do
  let s ← Code.read id
  if s.isValidSocket then
    if flags.pollin then
      let answer := h.recvfrom s.tick Socket.maxBufferSize
      Code.modify fun s => { s with toSocket := s.ticked.toSocket }
      if answer.1.ret ≥ 0 then
        Code.modify (hear answer.1.ret answer.2.2)
        cb (.datagram answer.2.1 answer.2.2)
      else if !wouldBlockError answer.1.errno then
        reportError cb (translateNativeError answer.1.errno)
    else if flags.pollnval then reportError cb errNoSocket
    else if flags.pollerr then
      let pending := h.getsockopt s.tick
      Code.modify fun s => { s with toSocket := s.ticked.toSocket }
      reportError cb (socketPendingError pending)

end Callbacks

end UdpClient

/-- What an application can do with a client. -/
inductive UdpClientOp
  | connectAddress (target : Sockaddr)
  | connectStored
  | connectHost (hostname : Option String) (port : Int)
  | close
  | receive (r : UdpRecv)
  | write (answer : IoResult) (d : UdpSend)
  | set (f : PlainSetter)
  | dispatch (flags : Flags)

namespace UdpClient

variable (h : UdpHost) (c : UdpClientClass)

def exec (cb : UdpClientNote → Code UdpClient Unit) : UdpClientOp → Code UdpClient Unit
  | .connectAddress target => do let _ ← connectAddress h c cb target
  | .connectStored => do let _ ← connectStored h c cb
  | .connectHost hostname port => do let _ ← connectHost h c cb hostname port
  | .close => do let _ ← close h c cb
  | .receive r => Code.modify (receive h r)
  | .write answer d => do let _ ← Code.update (write answer d)
  | .set f => Code.modify fun s => { s with toSocket := (f.run h.toHost s.toSocket).2 }
  | .dispatch flags => Code.whenever (c == .udpClientEventSocket) (dispatch h cb flags)

def system : Reentrant.System UdpClient UdpClientNote UdpClientOp := ⟨exec h c⟩

/-- The states that an application can bring a client to, with handlers that do
anything to the same client and may throw. -/
def Reaches (s : UdpClient) : Prop :=
  ∃ tick, Reentrant.Run (system h c) (fun _ _ => True) (fun _ _ => True) (fun _ _ => True)
    (construct h c tick) s

/-- Operations one after the other, with handlers that do nothing. -/
def after (os : List UdpClientOp) : UdpClient :=
  (Reentrant.script (system h c) os (construct h c 0)).2

theorem reaches_after (os : List UdpClientOp) : Reaches h c (after h c os) :=
  ⟨0, Reentrant.Run.start.script os fun _ _ _ => trivial⟩

end UdpClient

end Aeon
