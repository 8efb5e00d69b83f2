import Aeon.Accept
import Aeon.SessionLifetimes

/-!
# TLS objects and their contexts

The objects of `ssl_client_socket`, `ssl_server_socket`, `ssl_event_socket` and
`ssl_server_event_socket` with the references to `SSL_CTX` that they hold.  A step
of the world is what runs between two handler calls, so that whatever handlers
call is a step like any other.
-/

namespace Aeon

/-- A reference to an `SSL_CTX`, by the object that has it and the number of the
context. -/
structure ContextRef where
  holder : ℕ
  ctx : ℕ
  deriving DecidableEq, Repr

/-- The history of the world.  `upRef` is the call that makes another reference to
a context, and `did` what an object does to its `SSL` objects and its descriptor;
an `SSL` object is made from the context of `via`, unless that is the caller's. -/
inductive TlsEvent
  | acquired (r : ContextRef)
  | upRef (r : ContextRef)
  | released (r : ContextRef)
  | did (object : ℕ) (via : Option ContextRef) (ev : Event)
  deriving DecidableEq

/-- A peer of a blocking server uses the context of that server.  `dying` says
that the destructor of an event object has begun. -/
inductive TlsObject (κ : Type)
  | client (c : SslSocket κ)
  | peer (server : ℕ) (c : SslSocket κ)
  | server (ctx : Option ℕ) (handshakeTimeoutMs : Int)
  | event (ctx : Option ℕ) (dying : Bool) (s : SslEventSocket)
  | eventServer (ctx : Option ℕ) (handshakeTimeoutMs : Int)
  | gone

variable {κ : Type}

namespace SslSocket

variable (h : SslHost)

/-- `~socket`. -/
def destroySocket (c : SslSocket κ) : SslSocket κ :=
  if c.isValidSocket then (c.closeBase h).2 else c

/-- Setters in their order, until one fails. -/
def setAll : List PlainSetter → SslSocket κ → Bool × SslSocket κ
  | [], c => (true, c)
  | setter :: setters, c =>
    let r := setter.run h.toHost c.toSocket
    let c := { c with toSocket := r.2 }
    if r.1 then c.setAll setters else (false, c)

/-- `create_accepted_socket` of `ssl_server_socket`, for the adopted peer `c`. -/
def createAcceptedSocket (timeoutMs : Int) (c : SslSocket κ) (store : Option κ) :
    Bool × SslSocket κ :=
  let timed := c.setAll h [.blocking true, .readTimeout timeoutMs, .writeTimeout timeoutMs]
  if !timed.1 then (false, timed.2)
  else
    let shaken := timed.2.performServerHandshake h store
    if shaken.1 ≠ errNone then (false, shaken.2)
    else shaken.2.setAll h [.readTimeout 0, .writeTimeout 0]

/-- The same with the `set_blocking` of `accept`. -/
def accepted (timeoutMs : Int) (blocking : Bool) (c : SslSocket κ) (store : Option κ) :
    Bool × SslSocket κ :=
  let made := c.createAcceptedSocket h timeoutMs store
  if made.1 then made.2.setAll h [.blocking blocking] else made

end SslSocket

namespace SslEventSocket

variable (e : TlsHost)

/-- `create_accepted_socket` of `ssl_server_event_socket`, with the `set_blocking` of
`accept`: the object, and whether it is kept. -/
def accepted (retained : Bool) (fd : ℕ) (timeoutMs : Int) : Bool × SslEventSocket :=
  let s := adoptAccepted e retained (.construct e.toHost (.adopt e.toHost 0 fd))
  if !s.isValidSocket || s.session.isNone then (false, s)
  else
    let r := s.setHandshakeTimeout e timeoutMs
    if r.1 ≠ errNone then (false, r.2)
    else
      let mode := r.2.toSocket.setBlocking e.toHost false
      (mode.1, { r.2 with toSocket := mode.2 })

end SslEventSocket

namespace TlsObject

/-- What has become of an event object. -/
def ofEvent (ctx : Option ℕ) (dying : Bool) : EventObject → TlsObject κ
  | .tls s => .event ctx dying s
  | _ => .gone

def log : TlsObject κ → List Event
  | client c | peer _ c => c.log
  | event _ _ s => s.log
  | server .. | eventServer .. | gone => []

/-- The reference that an object has to release. -/
def ref (id : ℕ) : TlsObject κ → Option ContextRef
  | client c => if c.ownsCtx then c.ctx.map (⟨id, ·⟩) else none
  | server ctx _ | event ctx _ _ | eventServer ctx _ => ctx.map (⟨id, ·⟩)
  | peer .. | gone => none

/-- The reference whose context its `SSL` objects are made from. -/
def via (id : ℕ) : TlsObject κ → Option ContextRef
  | peer owner c => c.ctx.map (⟨owner, ·⟩)
  | o => o.ref id

/-- The pointer to the context is gone. -/
def forgetCtx : TlsObject κ → TlsObject κ
  | client c => client { c with ctx := none }
  | server _ timeoutMs => server none timeoutMs
  | event _ dying s => event none dying { s with hasCtx := false }
  | eventServer _ timeoutMs => eventServer none timeoutMs
  | o => o

end TlsObject

/-- Contexts are numbered; those below `supplied` are the caller's. -/
structure TlsWorld (κ : Type) where
  supplied : ℕ
  contexts : ℕ
  objects : List (TlsObject κ) := []
  log : List TlsEvent := []

/-- The answers to the native calls and to OpenSSL, and how files are loaded. -/
structure TlsHosts (κ : Type) where
  blocking : ℕ → SslHost
  events : ℕ → NetHost
  credentials : CredentialStore κ

namespace TlsWorld

def find (id : ℕ) (w : TlsWorld κ) : TlsObject κ := w.objects.getD id .gone

def note (es : List TlsEvent) (w : TlsWorld κ) : TlsWorld κ := { w with log := w.log ++ es }

/-- An object goes on. -/
def store (id : ℕ) (o : TlsObject κ) (w : TlsWorld κ) : TlsWorld κ :=
  { w with
    objects := w.objects.set id o
    log := w.log ++ (o.log.drop (w.find id).log.length).map (.did id (o.via id)) }

/-- A new object, with its reference. -/
def add (o : TlsObject κ) (w : TlsWorld κ) : TlsWorld κ :=
  let id := w.objects.length
  { w with
    objects := w.objects ++ [o]
    log := w.log ++ ((o.ref id).toList.map .acquired ++ o.log.map (.did id (o.via id))) }

/-- `SSL_CTX_new`, if it gives a context. -/
def newCtx (made : Bool) (w : TlsWorld κ) : Option ℕ × TlsWorld κ :=
  if made then (some w.contexts, { w with contexts := w.contexts + 1 }) else (none, w)

/-- `SSL_CTX_free` of the reference of an object. -/
def release (id : ℕ) (w : TlsWorld κ) : TlsWorld κ :=
  { w with
    objects := w.objects.set id (w.find id).forgetCtx
    log := w.log ++ ((w.find id).ref id).toList.map .released }

/-- The memory of an object goes away. -/
def forget (id : ℕ) (w : TlsWorld κ) : TlsWorld κ := { w with objects := w.objects.set id .gone }

variable (h : TlsHosts κ)

/-- `ssl_client_socket()`, or the constructor that is given a context of the caller. -/
def newClient (made : Bool) (tick : ℕ) (shared : Option ℕ) (w : TlsWorld κ) : TlsWorld κ :=
  let host := h.blocking w.objects.length
  match shared with
  | some ctx =>
    if ctx < w.supplied then w.add (.client (.construct host tick (some ctx) false)) else w
  | none =>
    let r := w.newCtx made
    r.2.add (.client (.construct host tick r.1 true))

/-- A call on a blocking object.  Peers do not connect. -/
def call (id : ℕ) (held : κ) (c : SslCall) (w : TlsWorld κ) : TlsWorld κ :=
  let run (s : SslSocket κ) := s.exec h.credentials (h.blocking id) (s.ctx.map fun _ => held) c
  match w.find id with
  | .client s => w.store id (.client (run s))
  | .peer server s => if c.connects then w else w.store id (.peer server (run s))
  | _ => w

/-- `ssl_socket::close`. -/
def close (id : ℕ) (w : TlsWorld κ) : TlsWorld κ :=
  match w.find id with
  | .client s => w.store id (.client (s.close (h.blocking id)).2)
  | .peer server s => w.store id (.peer server (s.close (h.blocking id)).2)
  | _ => w

/-- The destructors of the base classes. -/
def destroySocket (id : ℕ) (w : TlsWorld κ) : TlsWorld κ :=
  match w.find id with
  | .client s => (w.store id (.client (s.destroySocket (h.blocking id)))).forget id
  | .peer server s => (w.store id (.peer server (s.destroySocket (h.blocking id)))).forget id
  | .event ctx dying s =>
    (w.store id (.event ctx dying { s with
      toSocket := s.toSocket.destroy (h.events id).tls.toHost })).forget id
  | _ => w.forget id

/-- `~ssl_socket`. -/
def destroy (id : ℕ) (w : TlsWorld κ) : TlsWorld κ :=
  destroySocket h id ((close h id w).release id)

def destroyClient (id : ℕ) (w : TlsWorld κ) : TlsWorld κ :=
  match w.find id with
  | .client _ => destroy h id w
  | _ => w

def destroyPeer (id : ℕ) (w : TlsWorld κ) : TlsWorld κ :=
  match w.find id with
  | .peer .. => destroy h id w
  | _ => w

def newServer (made : Bool) (w : TlsWorld κ) : TlsWorld κ :=
  let r := w.newCtx made
  r.2.add (.server r.1 5000)

def newEventServer (made : Bool) (w : TlsWorld κ) : TlsWorld κ :=
  let r := w.newCtx made
  r.2.add (.eventServer r.1 5000)

/-- `set_handshake_timeout` of both servers. -/
def setHandshakeTimeout (id : ℕ) (milliseconds : Int) (w : TlsWorld κ) : TlsWorld κ :=
  if milliseconds < 100 || milliseconds > 60000 then w
  else match w.find id with
  | .server ctx _ => w.store id (.server ctx milliseconds)
  | .eventServer ctx _ => w.store id (.eventServer ctx milliseconds)
  | _ => w

/-- `ssl_server_socket::accept`, once `tcp_accept` has given a descriptor.  A peer
whose handshake fails is destroyed at once. -/
def accept (server fd : ℕ) (held : κ) (blocking : Bool) (w : TlsWorld κ) : TlsWorld κ :=
  match w.find server with
  | .server ctx timeoutMs =>
    let id := w.objects.length
    let made := (SslSocket.adopt (h.blocking id) 0 fd ctx).accepted (h.blocking id) timeoutMs
      blocking (ctx.map fun _ => held)
    let w := w.add (.peer server made.2)
    if made.1 then w else destroyPeer h id w
  | _ => w

/-- The peers of a blocking server. -/
def peersOf (server : ℕ) (w : TlsWorld κ) : List ℕ :=
  (List.range w.objects.length).filter fun id => match w.find id with
    | .peer owner _ => owner = server
    | _ => false

/-- `close_owned_peers`. -/
def closePeers (server : ℕ) (w : TlsWorld κ) : TlsWorld κ :=
  (w.peersOf server).foldl (fun w id => close h id w) w

/-- `remove_peer`. -/
def removePeer (id : ℕ) (w : TlsWorld κ) : TlsWorld κ :=
  match w.find id with
  | .peer .. => destroyPeer h id (close h id w)
  | _ => w

/-- `~ssl_server_socket`, with the destructors of its base classes: the server is
closed before its context is given up and once more after that, and its peers are
destroyed. -/
def destroyServer (id : ℕ) (w : TlsWorld κ) : TlsWorld κ :=
  match w.find id with
  | .server .. =>
    let w := closePeers h id ((closePeers h id w).release id)
    ((w.peersOf id).foldl (fun w peer => destroyPeer h peer w) w).forget id
  | _ => w

/-- `ssl_event_socket()`. -/
def newEvent (made : Bool) (w : TlsWorld κ) : TlsWorld κ :=
  let r := w.newCtx made
  r.2.add (.ofEvent r.1 false (EventLoop.newTls made (h.events w.objects.length)))

/-- Something runs on an event object. -/
def event (id : ℕ) (a : SslEventSocket.Entry) (w : TlsWorld κ) : TlsWorld κ :=
  match w.find id with
  | .event ctx dying s => w.store id (.ofEvent ctx dying (a.run (h.events id) s))
  | _ => w

/-- `~ssl_event_socket` up to its close, whose handler may do anything. -/
def beginDestroy (id : ℕ) (w : TlsWorld κ) : TlsWorld κ :=
  match w.find id with
  | .event ctx false s => w.store id (.ofEvent ctx true ((EventObject.tls s).close (h.events id)).2)
  | _ => w

/-- The rest of it, with the destructors of the base classes. -/
def finishDestroy (id : ℕ) (w : TlsWorld κ) : TlsWorld κ :=
  match w.find id with
  | .event _ true _ => destroySocket h id (w.release id)
  | _ => w

/-- `ssl_server_event_socket::accept`, once `tcp_accept` has given a descriptor.
`retained` is the answer of `SSL_CTX_up_ref`.  Nobody has a handler yet on an
object that is not kept. -/
def acceptEvent (server fd : ℕ) (retained : Bool) (w : TlsWorld κ) : TlsWorld κ :=
  match w.find server with
  | .eventServer ctx timeoutMs =>
    let id := w.objects.length
    let held := if retained then ctx else none
    let made := SslEventSocket.accepted (h.events id).tls held.isSome fd timeoutMs
    let w := (w.note (ctx.toList.map fun n => .upRef ⟨server, n⟩)).add (.event held false made.2)
    if made.1 then w else finishDestroy h id (beginDestroy h id w)
  | _ => w

/-- `~ssl_server_event_socket` once its close has returned. -/
def destroyEventServer (id : ℕ) (w : TlsWorld κ) : TlsWorld κ :=
  match w.find id with
  | .eventServer .. => (w.release id).forget id
  | _ => w

end TlsWorld

/-- The steps.  `made` and `retained` are answers of OpenSSL, `held` is what is
loaded into a context, and `fd` the descriptor that `tcp_accept` gives. -/
inductive TlsOp (κ : Type)
  | newClient (made : Bool) (tick : ℕ) (shared : Option ℕ)
  | call (id : ℕ) (held : κ) (c : SslCall)
  | destroyClient (id : ℕ)
  | newServer (made : Bool)
  | setHandshakeTimeout (id : ℕ) (milliseconds : Int)
  | accept (server fd : ℕ) (held : κ) (blocking : Bool)
  | closePeers (server : ℕ)
  | removePeer (id : ℕ)
  | destroyServer (id : ℕ)
  | newEvent (made : Bool)
  | event (id : ℕ) (a : SslEventSocket.Entry) (ha : a.Living)
  | beginDestroy (id : ℕ)
  | finishDestroy (id : ℕ)
  | newEventServer (made : Bool)
  | acceptEvent (server fd : ℕ) (retained : Bool)
  | destroyEventServer (id : ℕ)

namespace TlsWorld

def exec (h : TlsHosts κ) : TlsOp κ → TlsWorld κ → TlsWorld κ
  | .newClient made tick shared => newClient h made tick shared
  | .call id held c => call h id held c
  | .destroyClient id => destroyClient h id
  | .newServer made => newServer made
  | .setHandshakeTimeout id milliseconds => setHandshakeTimeout id milliseconds
  | .accept server fd held blocking => accept h server fd held blocking
  | .closePeers server => closePeers h server
  | .removePeer id => removePeer h id
  | .destroyServer id => destroyServer h id
  | .newEvent made => newEvent h made
  | .event id a _ => event h id a
  | .beginDestroy id => beginDestroy h id
  | .finishDestroy id => finishDestroy h id
  | .newEventServer made => newEventServer made
  | .acceptEvent server fd retained => acceptEvent h server fd retained
  | .destroyEventServer id => destroyEventServer id

/-- The worlds that runs reach whose steps all satisfy `ok`. -/
inductive Reaches (h : TlsHosts κ) (ok : TlsWorld κ → TlsOp κ → Prop) : TlsWorld κ → Prop
  | start (supplied : ℕ) : Reaches h ok { supplied := supplied, contexts := supplied }
  | step {w : TlsWorld κ} (op : TlsOp κ) (hw : Reaches h ok w) (hop : ok w op) :
      Reaches h ok (exec h op w)

/-- The steps of a run, one after the other. -/
def run (h : TlsHosts κ) (ops : List (TlsOp κ)) (w : TlsWorld κ) : TlsWorld κ :=
  ops.foldl (fun w op => exec h op w) w

theorem Reaches.run {h : TlsHosts κ} {ok : TlsWorld κ → TlsOp κ → Prop} {w : TlsWorld κ}
    (hw : Reaches h ok w) (ops : List (TlsOp κ)) (hok : ∀ op ∈ ops, ∀ w, ok w op) :
    Reaches h ok (run h ops w) := by
  induction ops generalizing w with
  | nil => exact hw
  | cons op ops ih =>
    refine ih (.step op hw (hok op List.mem_cons_self w)) fun op' hop => ?_
    exact hok op' (List.mem_cons_of_mem _ hop)

/-- What an object has done. -/
def history (id : ℕ) (log : List TlsEvent) : List Event :=
  log.filterMap fun
    | .did object _ ev => if object = id then some ev else none
    | _ => none

end TlsWorld

end Aeon
