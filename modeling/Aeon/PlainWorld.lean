import Aeon.Accept
import Aeon.UdpReplacement
import Aeon.UdpServer

/-!
# The socket classes without handlers

All objects of one program: `socket`, `client_socket`, `server_socket` and the
peers it owns, `udp_client_socket` and `udp_server_socket`.  An object is known
by its place in the list of all objects, which it leaves empty when it is
destroyed.  The native calls of all objects are numbered by one counter and
written to one history; an object borrows both while one of its functions runs.
-/

namespace Aeon

open Program

/-- `server_socket`: the peers that it owns are objects of their own. -/
structure PlainServer extends Socket where
  acceptTimeoutMs : Int := 0
  owned : List ℕ := []
  deriving DecidableEq, Repr

inductive PlainObject
  | socket (s : Socket)
  | clientSocket (s : Socket)
  | serverSocket (s : PlainServer)
  | udpClientSocket (s : UdpSocket)
  | udpServerSocket (s : UdpServer)
  deriving DecidableEq, Repr

inductive PlainClass
  | socket | clientSocket | serverSocket | udpClientSocket | udpServerSocket
  deriving DecidableEq, Repr

namespace PlainObject

variable {α : Type}

def cls : PlainObject → PlainClass
  | .socket _ => .socket
  | .clientSocket _ => .clientSocket
  | .serverSocket _ => .serverSocket
  | .udpClientSocket _ => .udpClientSocket
  | .udpServerSocket _ => .udpServerSocket

def base : PlainObject → Socket
  | .socket s => s
  | .clientSocket s => s
  | .serverSocket s => s.toSocket
  | .udpClientSocket s => s.toSocket
  | .udpServerSocket s => s.toSocket

def withBase (t : Socket) : PlainObject → PlainObject
  | .socket _ => .socket t
  | .clientSocket _ => .clientSocket t
  | .serverSocket s => .serverSocket { s with toSocket := t }
  | .udpClientSocket s => .udpClientSocket { s with toSocket := t }
  | .udpServerSocket s => .udpServerSocket { s with toSocket := t }

/-- The objects that an object owns. -/
def owned : PlainObject → List ℕ
  | .serverSocket s => s.owned
  | _ => []

def onSocket (f : Socket → α × Socket) (o : PlainObject) : Option (α × PlainObject) :=
  some ((f o.base).1, o.withBase (f o.base).2)

def onServer (f : PlainServer → α × PlainServer) : PlainObject → Option (α × PlainObject)
  | .serverSocket s => some ((f s).1, .serverSocket (f s).2)
  | _ => none

def onUdpClient (f : UdpSocket → α × UdpSocket) : PlainObject → Option (α × PlainObject)
  | .udpClientSocket s => some ((f s).1, .udpClientSocket (f s).2)
  | _ => none

def onUdpServer (f : UdpServer → α × UdpServer) : PlainObject → Option (α × PlainObject)
  | .udpServerSocket s => some ((f s).1, .udpServerSocket (f s).2)
  | _ => none

end PlainObject

structure PlainWorld where
  objects : List (Option PlainObject) := []
  tick : ℕ := 0
  log : List Event := []
  deriving DecidableEq, Repr

namespace PlainWorld

variable {α : Type}

def find (id : ℕ) (w : PlainWorld) : Option PlainObject := w.objects.getD id none

/-- The object with the counter and the history of the world. -/
def lend (w : PlainWorld) (o : PlainObject) : PlainObject :=
  o.withBase { o.base with tick := w.tick, log := w.log }

def store (id : ℕ) (o : PlainObject) (w : PlainWorld) : PlainWorld where
  objects := w.objects.set id (some o)
  tick := o.base.tick
  log := o.base.log

/-- Run a function of an object.  There is none to run when the object does not
exist or is of another class. -/
def call (id : ℕ) (f : PlainObject → Option (α × PlainObject)) : Code PlainWorld α := fun w =>
  match (w.find id).bind fun o => f (w.lend o) with
  | none => (.error .undefined, w)
  | some r => (.ok r.1, w.store id r.2)

/-- A new object, made from the counter of the world. -/
def spawn (make : ℕ → PlainObject) : Code PlainWorld ℕ := fun w =>
  let o := make w.tick
  (.ok w.objects.length,
    { objects := w.objects ++ [some o], tick := o.base.tick, log := w.log ++ o.base.log })

/-- The memory of an object goes away. -/
def forget (id : ℕ) : Code PlainWorld Unit :=
  Code.modify fun w => { w with objects := w.objects.set id none }

def ownedBy (id : ℕ) (w : PlainWorld) : List ℕ := (w.find id).elim [] (·.owned)

variable (h : UdpHost)

/-- `socket::close`. -/
def closeSocket (id : ℕ) : Code PlainWorld Bool :=
  call id (PlainObject.onSocket (Socket.close h.toHost))

/-- Peers without handlers close one after the other. -/
def closePeers : List ℕ → Code PlainWorld Bool
  | [] => return false
  | peer :: peers => do
    let closed ← closeSocket h peer
    let others ← closePeers peers
    return closed || others

/-- `close_owned_peers` of the object, if it has peers. -/
def closeOwnedPeers (id : ℕ) : Code PlainWorld Bool := do
  let object ← Code.read (find id)
  match object with
  | some (.serverSocket s) => closePeers h s.owned
  | some (.udpServerSocket _) => call id (PlainObject.onUdpServer UdpServer.closeOwnedPeers)
  | _ => return false

/-- The virtual `close`. -/
def close (id : ℕ) : Code PlainWorld Bool := do
  let changed ← closeSocket h id
  let closed ← closeOwnedPeers h id
  return closed || changed

def this (id : ℕ) : This PlainWorld := ⟨fun f => call id (PlainObject.onSocket f), close h id⟩

/-- `~socket`. -/
def destroySocket (id : ℕ) : Code PlainWorld Unit := do
  let _ ← closeSocket h id
  forget id

def destroyPeers : List ℕ → Code PlainWorld Unit
  | [] => return ()
  | peer :: peers => do
    destroySocket h peer
    destroyPeers peers

/-- The destructor of the class, after which its members and its base object
are destroyed. -/
def destroy (id : ℕ) : Code PlainWorld Unit := do
  let _ ← close h id
  let peers ← Code.read (ownedBy id)
  destroyPeers h peers
  destroySocket h id

/-- `listen` of `server_socket`. -/
def listen (id : ℕ) (ip : Option String) (port : Int) : Code PlainWorld Bool := do
  let ok ← tcpListen h.toHost (this h id) ip port
  if ok then
    let _ ← closeOwnedPeers h id
    return true
  else return false

/-- `listen()`, with the port the object holds. -/
def listenStored (id : ℕ) : Code PlainWorld Bool := do
  let port ← Code.read fun w => (w.find id).elim 0 fun o => o.base.port
  listen h id (some "0.0.0.0") port

/-- `accept(blocking)` of `server_socket`. -/
def accept (id : ℕ) (blocking : Bool) : Code PlainWorld (Option ℕ) := do
  let native ← call id (PlainObject.onServer fun s =>
    let r := s.toSocket.tcpAccept h.toHost s.acceptTimeoutMs
    (r.1, { s with toSocket := r.2 }))
  match native with
  | none => return none
  | some fd => do
    let peer ← spawn fun tick => .socket (Socket.adopt h.toHost tick fd)
    let set ← call peer (PlainObject.onSocket fun s => s.setBlocking h.toHost blocking)
    if !set then
      destroySocket h peer
      return none
    else
      call id (PlainObject.onServer fun s => ((), { s with owned := s.owned ++ [peer] }))
      return some peer

/-- A null pointer is `none`. -/
def removePeer (id : ℕ) : Option ℕ → Code PlainWorld Bool
  | none => return false
  | some peer => do
    let found ← call id (PlainObject.onServer fun s =>
      (s.owned.contains peer, { s with owned := s.owned.erase peer }))
    if found then
      let _ ← closeSocket h peer
      destroySocket h peer
      return true
    else return false

def setAcceptTimeout (id : ℕ) (timeoutMs : Int) : Code PlainWorld Bool :=
  call id (PlainObject.onServer fun s =>
    if timeoutMs < 0 ∨ timeoutMs > 60000 then
      (false, { s with toSocket := s.toSocket.setError errNoSocket })
    else (true, { s with
      acceptTimeoutMs := timeoutMs, toSocket := s.toSocket.setError errNone }))

end PlainWorld

/-- `connect` of the two client classes. -/
inductive PlainConnect
  | host (hostname : Option String) (port : Int)
  | address (target : Sockaddr)
  | stored

inductive PlainOp
  | construct (c : PlainClass)
  | destroy (id : ℕ)
  | close (id : ℕ)
  | set (id : ℕ) (setter : PlainSetter)
  | connect (id : ℕ) (target : PlainConnect)
  | bind (id : ℕ)
  | listen (id : ℕ) (ip : Option String) (port : Int)
  | listenStored (id : ℕ)
  | setAcceptTimeout (id : ℕ) (timeoutMs : Int)
  | accept (id : ℕ) (blocking : Bool)
  | removePeer (id : ℕ) (peer : Option ℕ)
  | udpConnect (id : ℕ) (target : PlainConnect)
  | udpRead (id : ℕ) (buffer : Bool) (size : Int)
  | udpServer (id : ℕ) (o : UdpOp)

namespace PlainWorld

variable (h : UdpHost)

def construct (c : PlainClass) : Code PlainWorld ℕ :=
  spawn fun tick => match c with
    | .socket => .socket (Socket.construct h.toHost tick)
    | .clientSocket => .clientSocket (Socket.construct h.toHost tick)
    | .serverSocket => .serverSocket { toSocket := Socket.construct h.toHost tick }
    | .udpClientSocket => .udpClientSocket (UdpSocket.construct h tick)
    | .udpServerSocket => .udpServerSocket (UdpServer.construct h .udpServerSocket tick)

/-- The functions of one class alone are there for its objects only. -/
def only (c : PlainClass) (id : ℕ) (m : Code PlainWorld Unit) : Code PlainWorld Unit := do
  let object ← Code.read (find id)
  if (object.map (·.cls)) = some c then m else Code.halt .undefined

def connect (id : ℕ) : PlainConnect → Code PlainWorld Bool
  | .host hostname port => tcpConnectHost h.toHost (this h id) hostname port
  | .address target => tcpConnectAddress h.toHost (this h id) target.family
  | .stored => tcpConnectStored h.toHost (this h id)

def udpConnect (id : ℕ) (target : PlainConnect) : Code PlainWorld Bool :=
  call id (PlainObject.onUdpClient fun s => match target with
    | .host hostname port => s.udpConnectHost h hostname port
    | .address target => s.udpConnectAddress h target
    | .stored => s.udpConnectStored h)

/-- A function of `udp_server_socket`, which has no handlers. -/
def udpServer (id : ℕ) (o : UdpOp) : Code PlainWorld Unit :=
  call id (PlainObject.onUdpServer fun s =>
    ((), (UdpServer.exec h .udpServerSocket (fun _ => pure ()) o s).2))

def exec : PlainOp → Code PlainWorld Unit
  | .construct c => do let _ ← construct h c
  | .destroy id => destroy h id
  | .close id => do let _ ← close h id
  | .set id setter => do let _ ← call id (PlainObject.onSocket (setter.run h.toHost))
  | .connect id target => only .clientSocket id do let _ ← connect h id target
  | .bind id => only .serverSocket id do
    let _ ← call id (PlainObject.onSocket (Socket.tcpBind h.toHost))
  | .listen id ip port => only .serverSocket id do let _ ← listen h id ip port
  | .listenStored id => only .serverSocket id do let _ ← listenStored h id
  | .setAcceptTimeout id timeoutMs => do let _ ← setAcceptTimeout id timeoutMs
  | .accept id blocking => do let _ ← accept h id blocking
  | .removePeer id peer => only .serverSocket id do let _ ← removePeer h id peer
  | .udpConnect id target => do let _ ← udpConnect h id target
  | .udpRead id buffer size => do
    let _ ← call id (PlainObject.onUdpClient (UdpSocket.read h buffer size))
  | .udpServer id o => udpServer h id o

/-- A program destroys what it owns itself: no peer of a server. -/
def Allowed (w : PlainWorld) : PlainOp → Prop
  | .destroy id => ∀ o ∈ w.objects, id ∉ o.elim [] (·.owned)
  | _ => True

/-- The states of a program that makes its objects and works on them. -/
inductive Reaches : PlainWorld → Prop
  | start : Reaches {}
  | next {w : PlainWorld} (o : PlainOp) (prior : Reaches w) (allowed : w.Allowed o) :
      Reaches (exec h o w).2

end PlainWorld

end Aeon
