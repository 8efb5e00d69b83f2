import Aeon.SessionModel
import Aeon.SocketIo
import Aeon.UdpServer

/-!
# The objects that an event set works on

`event_socket` and its classes and `udp_event_socket` and its classes, each
with the virtual functions that its class gives it.
-/

namespace Aeon

/-- The answers to the native calls of one object, of whatever class it is. -/
structure NetHost where
  tls : TlsHost
  udp : UdpHost

/-- `tcp` is a client or an accepted peer, and `udp` a server or a client. -/
inductive EventObject
  | tcp (s : EventSocket)
  | listener (s : EventSocket)
  | tls (s : SslEventSocket)
  | udp (server : Bool) (s : UdpServer)
  deriving DecidableEq

/-- The transport hooks of `event_socket` itself. -/
def EventSocket.transport (h : Host) : Transport Socket where
  send _ s := s.nativeSend h
  errorTerminal := false
  getError s := s.errorCode

def Event.opens : Event → Bool
  | .opened _ => true
  | _ => false

namespace EventObject

variable {α : Type}

def base : EventObject → Socket
  | .tcp s | .listener s => s.toSocket
  | .tls s => s.toSocket
  | .udp _ s => s.toSocket

def withBase (t : Socket) : EventObject → EventObject
  | .tcp s => .tcp { s with toSocket := t }
  | .listener s => .listener { s with toSocket := t }
  | .tls s => .tls { s with toSocket := t }
  | .udp server s => .udp server { s with toSocket := t }

/-- A function of the base object, on the whole object. -/
def onSocket (f : Socket → α × Socket) (o : EventObject) : α × EventObject :=
  ((f o.base).1, o.withBase (f o.base).2)

def ofTls (r : α × SslEventSocket) : α × EventObject := (r.1, .tls r.2)

/-- A function of the TLS class, and what the other classes answer. -/
def onTls (f : SslEventSocket → α × SslEventSocket) (other : α) : EventObject → α × EventObject
  | .tls s => ofTls (f s)
  | o => (other, o)

def isUdp : EventObject → Bool
  | .udp .. => true
  | _ => false

/-- `dynamic_cast<server_event_socket*>`. -/
def isListener : EventObject → Bool
  | .listener _ => true
  | _ => false

/-- A handler call of a TLS object is part of its history. -/
def notify (n : Notice) : EventObject → EventObject
  | .tls s => .tls (s.record (.notify s.session n))
  | o => o

def setError (code : Int) (o : EventObject) : EventObject := o.withBase (o.base.setError code)

/-- How many native connections the object has opened.  A datagram socket has none. -/
def connection : EventObject → ℕ
  | .udp .. => 0
  | o => o.base.log.countP Event.opens

section Hooks

variable (e : NetHost)

def pollWantsWrite : EventObject → Bool
  | .tcp s | .listener s => s.queuedBytes ≠ 0
  | .tls s => s.pollWantsWrite
  | .udp .. => false

def pollHasBufferedInput : EventObject → Bool × EventObject :=
  onTls (SslEventSocket.pollHasBufferedInput e.tls) false

def pollTimeoutMs : EventObject → Int × EventObject :=
  onTls (SslEventSocket.pollTimeoutMs e.tls) (-1)

/-- A result of 2 calls for the connect handler of the object. -/
def pollStep (flags : Flags) : EventObject → Int × EventObject :=
  onTls (SslEventSocket.pollStep e.tls flags) 1

def pollReadReady (flags : Flags) : EventObject → Bool
  | .tls s => s.pollReadReady flags
  | _ => flags.pollin || flags.pollhup

/-- `poll_receive` into the buffer of `poll`.  What it has received is for `on_data`. -/
def pollReceive (o : EventObject) : (IoResult × List UInt8) × EventObject :=
  let r := match o with
    | .tls s => ofTls (s.pollReceive e.tls Socket.maxBufferSize)
    | o => o.onSocket (Socket.nativeRecv e.tls.toHost Socket.maxBufferSize)
  (r.1, if r.1.1.ret > 0 then r.2.notify (.data r.1.2) else r.2)

def pollQueueReady (flags : Flags) : EventObject → Bool
  | .tls s => s.pollQueueReady flags
  | _ => flags.pollout

def pollErrorTerminal : EventObject → Bool
  | .tls _ => true
  | _ => false

/-- `flush_queued` over the hooks of the class. -/
def flush (budget : ℕ) : EventObject → FlushResult × EventObject
  | .tcp s =>
    let f := s.flushQueued (EventSocket.transport e.tls.toHost) budget s.toSocket
    (f.result, .tcp { toSocket := f.state, outgoing := f.queue })
  | .listener s =>
    let f := s.flushQueued (EventSocket.transport e.tls.toHost) budget s.toSocket
    (f.result, .listener { toSocket := f.state, outgoing := f.queue })
  | .tls s => ofTls (s.flushQueued e.tls budget)
  | .udp server s => ({}, .udp server s)

/-- `flush_queued` with the budget of the poll loop.  A queue that it has
emptied is for `on_drain`. -/
def flushQueued (o : EventObject) : FlushResult × EventObject :=
  let r := o.flush e sendBudget
  (r.1, if r.1.drained then r.2.notify .drain else r.2)

/-- `n = NET_SOCKET_ERROR`, before `on_error` is called. -/
def fail (code : Int) (o : EventObject) : EventObject :=
  (o.withBase { o.base with n := -1 }).notify (.error code)

/-- The error that `poll` reports after a failed `poll_receive`. -/
def reported (errno : ℕ) (o : EventObject) : Int :=
  if o.pollErrorTerminal ∧ o.base.errorCode < 0 ∧ o.base.errorCode ≠ socketError then
    o.base.errorCode
  else translateNativeError errno

/-- The `close` of the class, up to the handler call that is due when it returns true. -/
def close : EventObject → Bool × EventObject
  | .tcp s => ((s.close e.tls.toHost).1, .tcp (s.close e.tls.toHost).2)
  | .listener s => ((s.close e.tls.toHost).1, .listener (s.close e.tls.toHost).2)
  | .tls s => ofTls (s.close e.tls)
  | .udp server s => onSocket (Socket.close e.udp.toHost) (.udp server s)

/-- `poll_send`, which every `write` goes through. -/
def pollSend (data : List UInt8) : EventObject → IoResult × EventObject
  | .tls s => ofTls (s.sendTls e.tls data false)
  | o => o.onSocket (Socket.nativeSend e.tls.toHost)

end Hooks

end EventObject

end Aeon
