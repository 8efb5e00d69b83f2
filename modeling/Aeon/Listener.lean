import Aeon.EventSocket
import Aeon.PeerCollection
import Aeon.Tcp

/-!
# TCP listeners

`server_socket` and `server_event_socket`: a base object together with the peers
it owns.  `tcp_listen` reaches the `close` of the class through virtual
dispatch, and that `close` closes the owned peers.
-/

namespace Aeon

open Program

/-- Both listener classes.  The queue belongs to the event class alone. -/
structure Listener extends EventSocket where
  peers : Peers := {}
  acceptTimeoutMs : Int := 0
  deriving DecidableEq

/-- The handlers that the functions of a listener may call. -/
inductive ListenerNote
  | closed
  | listening
  | peerClosed (peer : Peer)
  deriving DecidableEq, Repr

/-- The class of a listener, which decides what its virtual functions are. -/
inductive ListenerClass
  | serverSocket | serverEventSocket
  deriving DecidableEq, Repr

namespace Listener

def socketPart : Part Listener Socket where
  get l := l.toSocket
  set s l := { l with toSocket := s }
  get_set _ _ := rfl
  set_get _ := rfl

def eventPart : Part Listener EventSocket where
  get l := l.toEventSocket
  set s l := { l with toEventSocket := s }
  get_set _ _ := rfl
  set_get _ := rfl

def peersPart : Part Listener Peers where
  get l := l.peers
  set p l := { l with peers := p }
  get_set _ _ := rfl
  set_get _ := rfl

@[simp] theorem peersPart_get (l : Listener) : peersPart.get l = l.peers := rfl

@[simp] theorem peersPart_set (p : Peers) (l : Listener) :
    (peersPart.set p l).peers = p := rfl

@[simp] theorem socketPart_set_peers (s : Socket) (l : Listener) :
    (socketPart.set s l).peers = l.peers := rfl

@[simp] theorem eventPart_set_peers (s : EventSocket) (l : Listener) :
    (eventPart.set s l).peers = l.peers := rfl

variable (h : Host) (cb : ListenerNote → Code Listener Unit) (fuel : ℕ)

/-- `close_owned_peers` of the listener. -/
def closePeers : Code Listener Bool :=
  closeOwnedPeers h peersPart (fun p => cb (.peerClosed p)) fuel

end Listener

namespace ServerSocket

open Listener

variable (h : Host) (cb : ListenerNote → Code Listener Unit) (fuel : ℕ)

def close : Code Listener Bool := do
  let changed ← socketPart.run (Socket.close h)
  let closed ← closePeers h cb fuel
  return closed || changed

def listen (ip : Option String) (port : Int) : Code Listener Bool := do
  let ok ← tcpListen h ⟨socketPart.run, close h cb fuel⟩ ip port
  if ok then
    let _ ← closePeers h cb fuel
    return true
  else return false

end ServerSocket

namespace ServerEventSocket

open Listener

variable (h : Host) (cb : ListenerNote → Code Listener Unit) (fuel : ℕ)

/-- `event_socket::close` with its notification. -/
def closeEvent : Code Listener Bool := do
  let closed ← eventPart.run (EventSocket.close h)
  Code.whenever closed (cb .closed)
  return closed

def close : Code Listener Bool := do
  let changed ← closeEvent h cb
  let closed ← closePeers h cb fuel
  return closed || changed

def listen (ip : Option String) (port : Int) : Code Listener Bool := do
  let ok ← tcpListen h ⟨socketPart.run, close h cb fuel⟩ ip port
  if !ok then return false
  else
    let _ ← closePeers h cb fuel
    let set ← socketPart.run fun s => s.setBlocking h false
    if !set then
      let _ ← socketPart.run (Socket.close h)
      return false
    else
      cb .listening
      return true

end ServerEventSocket

def ListenerClass.listen (c : ListenerClass) (h : Host) (cb : ListenerNote → Code Listener Unit)
    (fuel : ℕ) (ip : Option String) (port : Int) : Code Listener Bool :=
  match c with
  | .serverSocket => ServerSocket.listen h cb fuel ip port
  | .serverEventSocket => ServerEventSocket.listen h cb fuel ip port

end Aeon
