import Aeon.Descriptors
import Aeon.EventOps

/-!
# What can happen to an event object

`ObjectStep` says once what any function that an application or `poll` runs can
do to an object.  `Part` leaves out what connects or listens, and `Ordinary` is
what an application may do to an object at any time.
-/

namespace Aeon

open Program Reentrant

/-- A function of a class, applied to an object. -/
inductive ObjectStep (e : NetHost) : EventObject → EventObject → Prop
  | same (o) : ObjectStep e o o
  | socket {α : Type} (f : Socket → α × Socket) (hf : Socket.Unopened f) (o) :
      ObjectStep e o (o.onSocket f).2
  | create (family : Family) (f : Socket → Bool × Socket)
      (hf : Socket.Creates e.tls.toHost family f) (o) : ObjectStep e o (o.onSocket f).2
  | closeBase (o) : ObjectStep e o (o.onSocket (Socket.close (o.baseHost e))).2
  | close (o) : ObjectStep e o (o.close e).2
  | pollHasBufferedInput (o) : ObjectStep e o (o.pollHasBufferedInput e).2
  | pollTimeoutMs (o) : ObjectStep e o (o.pollTimeoutMs e).2
  | pollStep (flags : Flags) (o) : ObjectStep e o (o.pollStep e flags).2
  | pollReceive (o) : ObjectStep e o (o.pollReceive e).2
  | flushQueued (o) : ObjectStep e o (o.flushQueued e).2
  | fail (code : Int) (o) : ObjectStep e o (o.fail code)
  | datagramFrom (n : Int) (sender : Sockaddr) (o) :
      ObjectStep e o (EventLoop.datagramFrom n sender o).2
  | exec (c : EventCall) (o) : ObjectStep e o (o.exec e c)
  | directWrite (data : List UInt8) (o) : ObjectStep e o (o.directWrite e data).2
  | notifyWrite (data : List UInt8) (n : Int) (o) : ObjectStep e o (o.notify (.write data n))
  | startClient (identity : String) (o) : ObjectStep e o
      (o.onTls (SslEventSocket.startClient e.tls identity) (false, false)).2
  | closeOwnedPeers (o) : ObjectStep e o o.closeOwnedPeers.2
  | onUdp {α : Type} (f : UdpServer → α × UdpServer) (other : α) (o) :
      ObjectStep e o (EventLoop.onUdp f other o).2

/-- The same functions.  Of those of the base object only the ones in `A` are
run by themselves. -/
inductive Part (e : NetHost) (A : (Socket → Socket) → Prop) : EventObject → EventObject → Prop
  | same (o) : Part e A o o
  | base (f : Socket → Socket) (hf : A f) (o) : Part e A o (o.withBase (f o.base))
  | closeBase (o) : Part e A o (o.onSocket (Socket.close (o.baseHost e))).2
  | close (o) : Part e A o (o.close e).2
  | pollHasBufferedInput (o) : Part e A o (o.pollHasBufferedInput e).2
  | pollTimeoutMs (o) : Part e A o (o.pollTimeoutMs e).2
  | pollStep (flags : Flags) (o) : Part e A o (o.pollStep e flags).2
  | pollReceive (o) : Part e A o (o.pollReceive e).2
  | flushQueued (o) : Part e A o (o.flushQueued e).2
  | fail (code : Int) (o) : Part e A o (o.fail code)
  | datagramFrom (n : Int) (sender : Sockaddr) (o) :
      Part e A o (EventLoop.datagramFrom n sender o).2
  | exec (c : EventCall) (o) : Part e A o (o.exec e c)
  | directWrite (data : List UInt8) (o) : Part e A o (o.directWrite e data).2
  | notifyWrite (data : List UInt8) (n : Int) (o) : Part e A o (o.notify (.write data n))
  | startClient (identity : String) (o) : Part e A o
      (o.onTls (SslEventSocket.startClient e.tls identity) (false, false)).2
  | closeOwnedPeers (o) : Part e A o o.closeOwnedPeers.2
  | onUdp {α : Type} (f : UdpServer → α × UdpServer) (other : α) (o) :
      Part e A o (EventLoop.onUdp f other o).2

theorem Part.step {e : NetHost} {o o' : EventObject} (h : Part e Socket.Aside o o') :
    ObjectStep e o o' := by
  cases h with
  | base f hf => exact .socket (fun s => ((), f s)) (fun s => ⟨(hf s).log, (hf s).sockfd⟩) o
  | same => exact .same o
  | closeBase => exact .closeBase o
  | close => exact .close o
  | pollHasBufferedInput => exact .pollHasBufferedInput o
  | pollTimeoutMs => exact .pollTimeoutMs o
  | pollStep flags => exact .pollStep flags o
  | pollReceive => exact .pollReceive o
  | flushQueued => exact .flushQueued o
  | fail code => exact .fail code o
  | datagramFrom n sender => exact .datagramFrom n sender o
  | exec c => exact .exec c o
  | directWrite data => exact .directWrite data o
  | notifyWrite data n => exact .notifyWrite data n o
  | startClient identity => exact .startClient identity o
  | closeOwnedPeers => exact .closeOwnedPeers o
  | onUdp f other => exact .onUdp f other o

/-- The parts that tell no handler, and `close`. -/
inductive Ordinary (e : NetHost) : EventObject → EventObject → Prop
  | same (o) : Ordinary e o o
  | base (f : Socket → Socket) (hf : Socket.Aside f) (o) : Ordinary e o (o.withBase (f o.base))
  | close (o) : Ordinary e o (o.close e).2
  | pollHasBufferedInput (o) : Ordinary e o (o.pollHasBufferedInput e).2
  | pollTimeoutMs (o) : Ordinary e o (o.pollTimeoutMs e).2
  | exec (c : EventCall) (o) : Ordinary e o (o.exec e c)
  | closeOwnedPeers (o) : Ordinary e o o.closeOwnedPeers.2

/-- What `poll` asks an object before it dispatches anything. -/
inductive Question (e : NetHost) : EventObject → EventObject → Prop
  | same (o) : Question e o o
  | pollHasBufferedInput (o) : Question e o (o.pollHasBufferedInput e).2
  | pollTimeoutMs (o) : Question e o (o.pollTimeoutMs e).2

theorem Question.ordinary {e : NetHost} {o o' : EventObject} (h : Question e o o') :
    Ordinary e o o' := by
  cases h with
  | same => exact .same o
  | pollHasBufferedInput => exact .pollHasBufferedInput o
  | pollTimeoutMs => exact .pollTimeoutMs o

theorem Ordinary.part {e : NetHost} {o o' : EventObject} (h : Ordinary e o o') :
    Part e Socket.Aside o o' := by
  cases h with
  | same => exact .same o
  | base f hf => exact .base f hf o
  | close => exact .close o
  | pollHasBufferedInput => exact .pollHasBufferedInput o
  | pollTimeoutMs => exact .pollTimeoutMs o
  | exec c => exact .exec c o
  | closeOwnedPeers => exact .closeOwnedPeers o

inductive EventClass
  | tcp | listener | tls
  | udp (server : Bool)
  deriving DecidableEq

namespace EventObject

variable {e : NetHost} {o o' : EventObject}

def cls : EventObject → EventClass
  | .tcp _ => .tcp
  | .listener _ => .listener
  | .tls _ => .tls
  | .udp server _ => .udp server

theorem exists_of_cls (h : o.cls = .tls) : ∃ s, o = .tls s := by
  cases o with
  | tls s => exact ⟨s, rfl⟩
  | _ => cases h

theorem isUdp_of_cls (h : o'.cls = o.cls) : o'.isUdp = o.isUdp := by
  cases o <;> cases o' <;> first | rfl | cases h

@[simp] theorem withBase_cls (t : Socket) (o : EventObject) : (o.withBase t).cls = o.cls := by
  cases o <;> rfl

@[simp] theorem notify_cls (n : Notice) (o : EventObject) : (o.notify n).cls = o.cls := by
  cases o <;> rfl

@[simp] theorem onSocket_cls {α : Type} (f : Socket → α × Socket) (o : EventObject) :
    (o.onSocket f).2.cls = o.cls := withBase_cls _ o

@[simp] theorem onTls_cls {α : Type} (f : SslEventSocket → α × SslEventSocket) (other : α)
    (o : EventObject) : (o.onTls f other).2.cls = o.cls := by
  cases o <;> rfl

@[simp] theorem readBuffer_cls (given : Bool) (size : Int) (o : EventObject) :
    (o.readBuffer e given size).2.cls = o.cls := by
  cases o with
  | udp server s => cases server <;> rfl
  | _ => rfl

theorem readUntilLoop_cls (turns left : ℕ) (got : List UInt8) (o : EventObject) :
    (o.readUntilLoop e turns left got).2.cls = o.cls := by
  induction turns generalizing left got o with
  | zero => rfl
  | succ turns ih =>
    unfold readUntilLoop
    have hread := readBuffer_cls (e := e) true left o
    dsimp only
    split
    · rfl
    · split
      · exact hread
      · exact (ih _ _ _).trans hread

theorem readString_cls (size : Int) (o : EventObject) : (o.readString e size).2.cls = o.cls := by
  unfold readString
  split
  · rfl
  · split
    · rfl
    · exact readBuffer_cls true size o

theorem read_cls (c : ReadCall) (o : EventObject) : (o.read e c).2.cls = o.cls := by
  cases c with
  | buffer given size => exact readBuffer_cls given size o
  | line given size =>
    show (o.readLine e given size).2.cls = o.cls
    unfold readLine
    split
    · rfl
    · exact onSocket_cls _ o
  | «until» given size =>
    show (o.readUntil e given size).2.cls = o.cls
    unfold readUntil
    split
    · rfl
    · split
      · exact onSocket_cls _ o
      · exact readUntilLoop_cls _ _ _ o
  | internal =>
    show (o.readInternal e).2.cls = o.cls
    unfold readInternal
    split
    · rfl
    · exact readBuffer_cls _ _ o
  | string size => exact readString_cls size o
  | shift => exact readString_cls _ o

theorem exec_cls (c : EventCall) (o : EventObject) : (o.exec e c).cls = o.cls := by
  cases c with
  | set setter => exact onSocket_cls _ o
  | read c => exact read_cls c o
  | queueWrite data => cases o <;> rfl
  | setMaxQueuedBytes limit => cases o <;> rfl
  | _ => exact onTls_cls _ _ o

end EventObject

/-- No object changes its class. -/
theorem ObjectStep.cls {e : NetHost} {o o' : EventObject} (h : ObjectStep e o o') :
    o'.cls = o.cls := by
  have hif {c : Prop} [Decidable c] {a b : EventObject} (ha : a.cls = o.cls) (hb : b.cls = o.cls) :
      (if c then a else b).cls = o.cls := by
    split
    · exact ha
    · exact hb
  cases h with
  | same => rfl
  | socket f hf => exact EventObject.onSocket_cls f o
  | create family f hf => exact EventObject.onSocket_cls f o
  | closeBase => exact EventObject.onSocket_cls _ o
  | close => cases o <;> rfl
  | pollHasBufferedInput | pollTimeoutMs | pollStep | startClient => exact EventObject.onTls_cls _ _ o
  | pollReceive => exact hif (by cases o <;> rfl) (by cases o <;> rfl)
  | flushQueued => exact hif (by cases o <;> rfl) (by cases o <;> rfl)
  | fail code => simp [EventObject.fail]
  | datagramFrom n sender => cases o <;> rfl
  | exec c => exact EventObject.exec_cls c o
  | directWrite data =>
    unfold EventObject.directWrite
    dsimp only
    split <;> cases o <;> rfl
  | notifyWrite data n => exact EventObject.notify_cls _ o
  | closeOwnedPeers =>
    cases o with
    | udp server s => cases server <;> rfl
    | _ => rfl
  | onUdp f other => cases o <;> rfl

/-- The objects that an application makes, or is given by an `accept`. -/
inductive NewObject (e : NetHost) : EventObject → Prop
  | tcp : NewObject e (.tcp (.construct e.tls.toHost (.construct e.tls.toHost 0)))
  | listener : NewObject e (.listener (.construct e.tls.toHost (.construct e.tls.toHost 0)))
  | tls (ctx : Bool) : NewObject e (EventLoop.newTls ctx e)
  | udp (server : Bool) : NewObject e (.udp server (.construct e.udp .udpServerEventSocket 0))
  | acceptedTcp {fd : ℕ} {blocking : Bool} {s : EventSocket}
      (hs : EventLoop.acceptedTcp fd blocking e = some s) : NewObject e (.tcp s)
  | acceptedTls {fd : ℕ} {retained : Bool} {timeoutMs : Int} {s : SslEventSocket}
      (hs : EventLoop.acceptedTls fd retained timeoutMs e = some s) : NewObject e (.tls s)

end Aeon
