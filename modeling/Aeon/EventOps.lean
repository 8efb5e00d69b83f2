import Aeon.EventLoop
import Aeon.Tcp

/-!
# What an application does with event objects

The public functions of the objects and of the set, as operations of one
system.  A handler is any code made of these operations.
-/

namespace Aeon

open Program

/-- The `read` functions and `operator>>`; a null buffer is `false`. -/
inductive ReadCall
  | buffer (given : Bool) (size : Int)
  | line (given : Bool) (size : Int)
  | until (given : Bool) (size : Int)
  | internal
  | string (size : Int)
  | shift

/-- The `write` functions and `operator<<`.  A null pointer is `none`, and a C
string is given without its terminator. -/
inductive WriteCall
  | sized (data : Option (List UInt8))
  | text (data : Option (List UInt8))
  | string (data : List UInt8)
  | shiftText (data : Option (List UInt8))
  | shiftString (data : List UInt8)

/-- Calls on one object that call no handler. -/
inductive EventCall
  | set (setter : PlainSetter)
  | read (c : ReadCall)
  | queueWrite (data : Option (List UInt8))
  | setMaxQueuedBytes (limit : UInt64)
  | setCaFile (path : Option String)
  | setPeerVerification (mode : SslVerifyMode)
  | setAllowSelfSigned (enabled : Bool)
  | setHandshakeTimeout (milliseconds : Int)
  | beginGracefulShutdown (timeoutMs : Int)

inductive TcpTarget
  | stored
  | host (hostname : Option String) (port : Int)
  | address (family : Family)

/-- An address comes with its text. -/
inductive TlsTarget
  | host (hostname : Option String) (port : Int)
  | address (family : Family) (text : String) (port : UInt16)

/-- The name or the address to verify, if the arguments are accepted. -/
def TlsTarget.identity : TlsTarget → Option String
  | .host hostname port =>
    let requested := hostname.getD ""
    if requested.isEmpty || port < 1 || port > 65535 then none else some requested
  | .address family text port => if family = .other || port = 0 then none else some text

def TlsTarget.tcp : TlsTarget → TcpTarget
  | .host hostname port => .host hostname port
  | .address family _ _ => .address family

namespace EventObject

variable (e : NetHost)

def baseHost : EventObject → Host
  | .udp .. => e.udp.toHost
  | _ => e.tls.toHost

/-- `read(buffer, size)` of the class. -/
def readBuffer (given : Bool) (size : Int) : EventObject → (Int × List UInt8) × EventObject
  | .tls s => ofTls (s.readBuffer e.tls given size)
  | .udp true s => ((s.read e.udp given size).1, .udp true (s.read e.udp given size).2)
  | .udp false s =>
    let r := s.toUdpSocket.read e.udp given size
    (r.1, .udp false { s with toUdpSocket := r.2 })
  | o => o.onSocket (Socket.read e.tls.toHost given size)

/-- `read(size)`, which gives a string. -/
def readString (size : Int) (o : EventObject) : List UInt8 × EventObject :=
  match o with
  | .tls s => ofTls (s.readString e.tls size)
  | o =>
    if !o.base.isValidSocket || size ≤ 0 then ([], o)
    else
      let r := o.readBuffer e true size
      (if r.1.1 ≤ 0 then [] else r.1.2.take r.1.1.toNat, r.2)

/-- The base function calls `recv` itself, whatever the class. -/
def readLine (given : Bool) (size : Int) : EventObject → (Int × List UInt8) × EventObject
  | .tls s => ofTls (s.readLine e.tls given size)
  | o => o.onSocket (Socket.readLine (o.baseHost e) given size)

/-- The loop of `read_until`, with `left` bytes to go; a turn that receives
nothing is the last. -/
def readUntilLoop : ℕ → ℕ → List UInt8 → EventObject → (Int × List UInt8) × EventObject
  | 0, _, got, o => ((got.length, got), o)
  | turns + 1, left, got, o =>
    if left = 0 then ((got.length, got), o)
    else
      let r := o.readBuffer e true left
      if r.1.1 ≤ 0 then ((got.length, got), r.2)
      else readUntilLoop turns (left - r.1.1.toNat) (got ++ r.1.2) r.2

def readUntil (given : Bool) (size : Int) (o : EventObject) : (Int × List UInt8) × EventObject :=
  match o with
  | .tls s => ofTls (s.readUntil e.tls given size)
  | o =>
    if !given || !o.base.isValidSocket || size ≤ 0 then
      o.onSocket (Socket.readEnds (-1)
        (if o.base.isValidSocket then errInvalidArgument else errNoSocket))
    else o.readUntilLoop e size.toNat size.toNat []

/-- `read()`, into the buffer of the object. -/
def readInternal (o : EventObject) : (Int × List UInt8) × EventObject :=
  match o with
  | .tls s => ofTls (s.readBuffer e.tls true Socket.maxBufferSize)
  | o => o.readBuffer e true (Socket.maxBufferSize - 1)

def read : ReadCall → EventObject → (Int × List UInt8) × EventObject
  | .buffer given size, o => o.readBuffer e given size
  | .line given size, o => o.readLine e given size
  | .until given size, o => o.readUntil e given size
  | .internal, o => o.readInternal e
  | .string size, o =>
    let r := o.readString e size
    ((r.1.length, r.1), r.2)
  | .shift, o =>
    let r := o.readString e Socket.maxBufferSize
    ((r.1.length, r.1), r.2)

def queueWrite (data : Option (List UInt8)) : EventObject → Bool × EventObject
  | .tcp s => ((s.queueWrite true data).1, .tcp (s.queueWrite true data).2)
  | .listener s => ((s.queueWrite true data).1, .listener (s.queueWrite true data).2)
  | .tls s => ofTls (s.queueWrite data)
  | o => (false, o)

def setMaxQueuedBytes (limit : ℕ) : EventObject → Bool × EventObject
  | .tcp s => ((s.setMaxQueuedBytes limit).1, .tcp (s.setMaxQueuedBytes limit).2)
  | .listener s => ((s.setMaxQueuedBytes limit).1, .listener (s.setMaxQueuedBytes limit).2)
  | .tls s => ofTls (s.setMaxQueuedBytes limit)
  | o => (false, o)

/-- The effect of a call. -/
def exec : EventCall → EventObject → EventObject
  | .set setter, o => (o.onSocket (setter.run (o.baseHost e))).2
  | .read c, o => (o.read e c).2
  | .queueWrite data, o => (o.queueWrite data).2
  | .setMaxQueuedBytes limit, o => (o.setMaxQueuedBytes limit.toNat).2
  | .setCaFile path, o => (o.onTls (SslEventSocket.setCaFile e.tls path) sslError).2
  | .setPeerVerification mode, o => (o.onTls (fun s => ((), s.setPeerVerification mode)) ()).2
  | .setAllowSelfSigned enabled, o => (o.onTls (fun s => ((), s.setAllowSelfSigned enabled)) ()).2
  | .setHandshakeTimeout milliseconds, o =>
    (o.onTls (SslEventSocket.setHandshakeTimeout e.tls milliseconds) sslError).2
  | .beginGracefulShutdown timeoutMs, o =>
    (o.onTls (SslEventSocket.beginGracefulShutdown e.tls timeoutMs) false).2

/-- The send of `write` and the error code that follows from it: what the hook
returned, and the code for `on_error`. -/
def directWrite (data : List UInt8) (o : EventObject) : (Int × Int) × EventObject :=
  let r := o.pollSend e data
  if r.1.ret < 0 then
    let code := if wouldBlockError r.1.errno then translateNativeError r.1.errno
      else r.2.reported r.1.errno
    ((r.1.ret, code), (r.2.setError code).notify (.error code))
  else ((r.1.ret, errNone), r.2.setError errNone)

/-- `close_owned_peers` of a UDP server.  The peers of a TCP server are objects
of their own. -/
def closeOwnedPeers : EventObject → Bool × EventObject
  | .udp true s => ((s.closeOwnedPeers).1, .udp true (s.closeOwnedPeers).2)
  | o => (false, o)

/-- The classes whose destructors call `close`. -/
def closesInDestructor : EventObject → Bool
  | .listener _ | .tls _ | .udp true _ => true
  | _ => false

end EventObject

inductive EventOp
  | createTcp
  | createListener
  | createTls (ctx : Bool)
  | createUdp (server : Bool)
  | adoptTcp (fd : ℕ) (blocking : Bool)
  | adoptTls (fd : ℕ) (retained : Bool) (handshakeTimeoutMs : Int)
  | destroy (id : ℕ)
  | add (id : Option ℕ)
  | removeAt (index : ℕ)
  | removeSocket (udp : Bool) (id : Option ℕ)
  | close (id : ℕ)
  | call (id : ℕ) (c : EventCall)
  | write (id : ℕ) (c : WriteCall)
  | connectTcp (id : ℕ) (target : TcpTarget)
  | connectTls (id : ℕ) (target : TlsTarget)
  | listen (id : ℕ) (ip : Option String) (port : Int)
  | listenUdp (id : ℕ) (port : Int)
  | connectUdp (id : ℕ) (target : Sockaddr)
  | poll (timeoutMs : Int)

namespace EventLoop

open EventWorld

section Registry

/-- `add` of the registry that the object belongs to. -/
def add (id : Option ℕ) : Code EventWorld Bool := fun w =>
  match id with
  | none => (.ok false, w)
  | some id =>
    match w.find id with
    | none => (.error .undefined, w)
    | some o =>
      let token := w.registrations.length
      let entries := if o.isUdp then w.udpSockets else w.sockets
      if entries.any fun t => w.registrations[t]? = some ⟨id, true⟩ then (.ok false, w)
      else (.ok true, { w with
        registrations := w.registrations ++ [⟨id, true⟩]
        sockets := if o.isUdp then w.sockets else w.sockets ++ [token]
        udpSockets := if o.isUdp then w.udpSockets ++ [token] else w.udpSockets
        log := w.log ++ [.registered token id] })

/-- `deactivate`, and the token leaves its list. -/
def deactivate (token : ℕ) (w : EventWorld) : EventWorld :=
  { w with
    registrations := w.registrations.modify token fun r => { r with active := false }
    sockets := w.sockets.erase token
    udpSockets := w.udpSockets.erase token
    log := w.log ++ [.deactivated token] }

def removeToken : Option ℕ → Code EventWorld Bool
  | none => return false
  | some token => do
    Code.modify (deactivate token)
    return true

/-- `remove(index)`, which counts the TCP sockets first. -/
def removeAt (index : ℕ) : Code EventWorld Bool := do
  let token ← Code.read fun w => (w.sockets ++ w.udpSockets)[index]?
  removeToken token

def removeSocket (udp : Bool) : Option ℕ → Code EventWorld Bool
  | none => return false
  | some id => do
    let token ← Code.read fun w =>
      (if udp then w.udpSockets else w.sockets).find? fun t => w.registrations[t]? = some ⟨id, true⟩
    removeToken token

end Registry

variable (h : LoopHost) (cb : EventNote → Code EventWorld Unit)

def spawn (make : NetHost → EventObject) : Code EventWorld ℕ := fun w =>
  (.ok w.objects.length, { w with
    objects := w.objects ++ [some (make (h.objects w.objects.length))] })

/-- `ssl_event_socket()`; `ctx` is the answer of `SSL_CTX_new`. -/
def newTls (ctx : Bool) (e : NetHost) : EventObject :=
  let s : SslEventSocket :=
    { toEventSocket := .construct e.tls.toHost (.construct e.tls.toHost 0), hasCtx := ctx }
  .tls (if ctx then s else s.setError sslErrorInit)

/-- `create_accepted_socket` of the TLS listener, with the `set_blocking` of
`accept`.  An object that is given up is seen by nobody. -/
def acceptedTls (fd : ℕ) (retained : Bool) (handshakeTimeoutMs : Int) (e : NetHost) :
    Option SslEventSocket :=
  let s := SslEventSocket.adoptAccepted e.tls retained
    (.construct e.tls.toHost (.adopt e.tls.toHost 0 fd))
  let r := s.setHandshakeTimeout e.tls handshakeTimeoutMs
  if !s.isValidSocket || s.session.isNone || r.1 ≠ errNone then none
  else
    let mode := r.2.toSocket.setBlocking e.tls.toHost false
    if mode.1 then some { r.2 with toSocket := mode.2 } else none

def acceptedTcp (fd : ℕ) (blocking : Bool) (e : NetHost) : Option EventSocket :=
  let s := EventSocket.construct e.tls.toHost (.adopt e.tls.toHost 0 fd)
  let mode := s.toSocket.setBlocking e.tls.toHost blocking
  if mode.1 then some { s with toSocket := mode.2 } else none

def adoptTls (fd : ℕ) (retained : Bool) (handshakeTimeoutMs : Int) : Code EventWorld Unit := do
  let id ← Code.read fun w => w.objects.length
  match acceptedTls fd retained handshakeTimeoutMs (h.objects id) with
  | none => return ()
  | some s => do let _ ← spawn h fun _ => .tls s

def adoptTcp (fd : ℕ) (blocking : Bool) : Code EventWorld Unit := do
  let id ← Code.read fun w => w.objects.length
  match acceptedTcp fd blocking (h.objects id) with
  | none => return ()
  | some s => do let _ ← spawn h fun _ => .tcp s

def fire (id : ℕ) (n : Notice) : Code EventWorld Unit := cb ⟨.socket, id, n⟩

/-- The virtual `close`. -/
def close (id : ℕ) : Code EventWorld Bool := do
  let closed ← call id (EventObject.close (h.objects id))
  Code.whenever closed (fire cb id .close)
  let peers ← call id EventObject.closeOwnedPeers
  return peers || closed

def this (id : ℕ) : This EventWorld := ⟨fun f => call id (EventObject.onSocket f), close h cb id⟩

/-- The destructors.  An object has to be deregistered before, also by the
handlers that its destructor calls. -/
def destroy (id : ℕ) : Code EventWorld Unit := do
  let closes ← call id fun o => (o.closesInDestructor, o)
  if closes then
    let _ ← close h cb id
  let _ ← call id fun o => o.onSocket (Socket.close (o.baseHost (h.objects id)))
  let registered ← Code.read fun w => w.registrations.any fun r => r.active && r.socket == id
  if registered then Code.halt .undefined
  else Code.modify fun w => { w with objects := w.objects.set id none }

/-- `socket::close`, which calls no handler. -/
def closeBase (id : ℕ) : Code EventWorld Bool :=
  call id fun o => o.onSocket (Socket.close (o.baseHost (h.objects id)))

/-- A function of one class, which the objects of the others do not have. -/
def only (c : EventObject → Bool) (id : ℕ) (m : Code EventWorld Unit) : Code EventWorld Unit := do
  let object ← Code.read (find id)
  if object.any c then m else Code.halt .undefined

def tcpConnect (id : ℕ) (target : TcpTarget) : Code EventWorld Bool :=
  let host := (h.objects id).tls.toHost
  match target with
  | .stored => tcpConnectStored host (this h cb id)
  | .host hostname port => tcpConnectHost host (this h cb id) hostname port
  | .address family => tcpConnectAddress host (this h cb id) family

/-- `connect` of `client_event_socket`. -/
def connectTcp (id : ℕ) (target : TcpTarget) : Code EventWorld Bool := do
  let ok ← tcpConnect h cb id target
  if !ok then return false
  else
    let set ← call id (EventObject.onSocket (Socket.setBlocking (h.objects id).tls.toHost false))
    if !set then
      let _ ← closeBase h id
      return false
    else
      fire cb id .connect
      return true

/-- `connect` of `ssl_event_socket`. -/
def connectTls (id : ℕ) (target : TlsTarget) : Code EventWorld Bool := do
  let server ← call id (EventObject.onTls (fun s => (s.serverSide, s)) true)
  match target.identity.filter fun _ => !server with
  | none =>
    call id fun o => ((), o.setError sslError)
    return false
  | some identity => do
    let busy ← call id (EventObject.onTls (fun s => (s.session.isSome || s.connected, s)) false)
    if busy then
      let _ ← close h cb id
    let _ ← call id (EventObject.onSocket (Socket.setBlocking (h.objects id).tls.toHost true))
    let ok ← tcpConnect h cb id target.tcp
    if !ok then return false
    else
      let started ← call id
        (EventObject.onTls (SslEventSocket.startClient (h.objects id).tls identity) (false, false))
      Code.whenever started.2 (fire cb id .close)
      return started.1

/-- `listen` of `server_event_socket`. -/
def listen (id : ℕ) (ip : Option String) (port : Int) : Code EventWorld Bool := do
  let ok ← tcpListen (h.objects id).tls.toHost (this h cb id) ip port
  if !ok then return false
  else
    let set ← call id (EventObject.onSocket (Socket.setBlocking (h.objects id).tls.toHost false))
    if !set then
      let _ ← closeBase h id
      return false
    else
      fire cb id .listen
      return true

def onUdp {α : Type} (f : UdpServer → α × UdpServer) (other : α) : EventObject → α × EventObject
  | .udp server s => ((f s).1, .udp server (f s).2)
  | o => (other, o)

/-- `listen` of `udp_server_event_socket`. -/
def listenUdp (id : ℕ) (port : Int) : Code EventWorld Bool := do
  let ok ← call id (onUdp (fun s =>
    let r := s.toUdpSocket.udpListen (h.objects id).udp port
    (r.1, { s with toUdpSocket := r.2 })) false)
  if ok then
    let _ ← call id EventObject.closeOwnedPeers
    fire cb id .listen
    return true
  else return false

/-- `connect` of `udp_client_event_socket`. -/
def connectUdp (id : ℕ) (target : Sockaddr) : Code EventWorld Bool := do
  let ok ← call id (onUdp (fun s =>
    let r := s.toUdpSocket.udpConnectAddress (h.objects id).udp target
    (r.1, { s with toUdpSocket := r.2 })) false)
  Code.whenever ok (fire cb id .connect)
  return ok

/-- `write(data, size)` of every event socket. -/
def writeSized (id : ℕ) (data : List UInt8) : Code EventWorld Int := do
  let valid ← call id fun o => (o.base.isValidSocket, o)
  if !valid || data.isEmpty then
    call id fun o => ((), o.setError (if valid then errInvalidArgument else errNoSocket))
    return -1
  else
    let sent ← call id (EventObject.directWrite (h.objects id) data)
    Code.whenever (sent.1 < 0) (fire cb id (.error sent.2))
    call id fun o => ((), o.notify (.write data (max sent.1 0)))
    fire cb id (.write data (max sent.1 0))
    return sent.1

/-- `write(data)` of a C string. -/
def writeText (id : ℕ) : Option (List UInt8) → Code EventWorld Int
  | none => return -1
  | some data => do
    let valid ← call id fun o => (o.base.isValidSocket, o)
    if !valid then return -1
    else if data.isEmpty then return 0
    else if data.length > intMax then return -1
    else writeSized h cb id data

def writeString (id : ℕ) (data : List UInt8) : Code EventWorld Int := do
  let valid ← call id fun o => (o.base.isValidSocket, o)
  if !valid || data.isEmpty || data.length > intMax then return -1 else writeSized h cb id data

def write (id : ℕ) : WriteCall → Code EventWorld Int
  | .sized data => writeSized h cb id (data.getD [])
  | .text data => writeText h cb id data
  | .string data => writeString h cb id data
  | .shiftText data => writeText h cb id data
  | .shiftString data => writeString h cb id data

variable (fuel : ℕ)

def exec : EventOp → Code EventWorld Unit
  | .createTcp => do
    let _ ← spawn h fun e => .tcp (.construct e.tls.toHost (.construct e.tls.toHost 0))
  | .createListener => do
    let _ ← spawn h fun e => .listener (.construct e.tls.toHost (.construct e.tls.toHost 0))
  | .createTls ctx => do let _ ← spawn h (newTls ctx)
  | .createUdp server => do
    let _ ← spawn h fun e => .udp server (.construct e.udp .udpServerEventSocket 0)
  | .adoptTcp fd blocking => adoptTcp h fd blocking
  | .adoptTls fd retained timeoutMs => adoptTls h fd retained timeoutMs
  | .destroy id => destroy h cb id
  | .add id => do let _ ← add id
  | .removeAt index => do let _ ← removeAt index
  | .removeSocket udp id => do let _ ← removeSocket udp id
  | .close id => do let _ ← close h cb id
  | .call id c => call id fun o => ((), o.exec (h.objects id) c)
  | .write id c => only (fun o => !o.isUdp) id do let _ ← write h cb id c
  | .connectTcp id target => only (fun o => o matches .tcp _) id do
    let _ ← connectTcp h cb id target
  | .connectTls id target => only (fun o => o matches .tls _) id do
    let _ ← connectTls h cb id target
  | .listen id ip port => only EventObject.isListener id do let _ ← listen h cb id ip port
  | .listenUdp id port => only EventObject.isUdp id do let _ ← listenUdp h cb id port
  | .connectUdp id target => only EventObject.isUdp id do let _ ← connectUdp h cb id target
  | .poll timeoutMs => do let _ ← poll h cb fuel timeoutMs

/-- The handlers, whose calls are remembered before they run. -/
def recording (cb : EventNote → Code EventWorld Unit) (n : EventNote) : Code EventWorld Unit := do
  Code.modify fun w => { w with calls := w.calls ++ [n] }
  cb n

theorem recording_keeps {I : EventWorld → Prop} {cb : EventNote → Code EventWorld Unit}
    (hI : ∀ w n, I w → I { w with calls := w.calls ++ [n] }) (hcb : ∀ n, Keeps I (cb n)) (n : EventNote) :
    Keeps I (recording cb n) :=
  Keeps.bind (fun w hw => hI w n hw) fun _ => hcb n

def system : Reentrant.System EventWorld EventNote EventOp :=
  ⟨fun cb => exec h (recording cb) fuel⟩

/-- The states of a program that starts without objects, with handlers that do
anything and may throw. -/
def Reaches (w : EventWorld) : Prop :=
  Reentrant.Run (system h fuel) (fun _ _ => True) (fun _ _ => True) (fun _ _ => True) {} w

/-- The program that runs the operations one after the other, with idle handlers. -/
def after (os : List EventOp) : EventWorld := (Reentrant.script (system h fuel) os {}).2

theorem reaches_after (os : List EventOp) : Reaches h fuel (after h fuel os) :=
  Reentrant.Run.start.script os fun _ _ _ => trivial

end EventLoop

end Aeon
