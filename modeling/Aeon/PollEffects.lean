import Aeon.EventSteps
import Aeon.SessionFrame

/-!
# What `poll` changes of an object

No function of the poll loop opens a connection, and only `close` gives the
descriptor up.
-/

namespace Aeon

open EventLoop

/-- The native closes of all objects succeed. -/
def LoopHost.ClosesSucceed (h : LoopHost) : Prop :=
  ∀ id tick, (h.objects id).tls.close tick = 0 ∧ (h.objects id).udp.close tick = 0

namespace EventObject

variable {e : NetHost} {o o' o'' : EventObject}

/-- The object stays on its connection, or is closed. -/
structure Mild (o o' : EventObject) : Prop where
  cls : o'.cls = o.cls
  connection : o'.connection = o.connection
  sockfd : o'.base.sockfd = o.base.sockfd ∨ o'.base.sockfd = none

/-- The object stays open on its connection. -/
structure Calm (o o' : EventObject) : Prop where
  cls : o'.cls = o.cls
  connection : o'.connection = o.connection
  sockfd : o'.base.sockfd = o.base.sockfd

theorem connection_eq (hcls : o'.cls = o.cls)
    (h : o'.base.log.countP Event.opens = o.base.log.countP Event.opens) :
    o'.connection = o.connection := by
  cases o <;> cases o' <;> first | rfl | exact h | cases hcls

theorem close_cls (o : EventObject) : (o.close e).2.cls = o.cls := by
  cases o <;> rfl

namespace Calm

theorem mild (h : Calm o o') : Mild o o' := ⟨h.cls, h.connection, .inl h.sockfd⟩

theorem refl (o : EventObject) : Calm o o := ⟨rfl, rfl, rfl⟩

theorem trans (h : Calm o o') (h' : Calm o' o'') : Calm o o'' :=
  ⟨h'.cls.trans h.cls, h'.connection.trans h.connection, h'.sockfd.trans h.sockfd⟩

theorem of_base (hcls : o'.cls = o.cls) (hfd : o'.base.sockfd = o.base.sockfd)
    (hlog : o'.base.log.countP Event.opens = o.base.log.countP Event.opens) : Calm o o' :=
  ⟨hcls, connection_eq hcls hlog, hfd⟩

theorem withBase {t : Socket} (hfd : t.sockfd = o.base.sockfd)
    (hlog : t.log.countP Event.opens = o.base.log.countP Event.opens) : Calm o (o.withBase t) := by
  refine .of_base (withBase_cls t o) ?_ ?_
  · cases o <;> exact hfd
  · cases o <;> exact hlog

theorem setError (code : Int) (o : EventObject) : Calm o (o.setError code) := .withBase rfl rfl

theorem notify (n : Notice) (o : EventObject) : Calm o (o.notify n) := by
  cases o with
  | tls s =>
    refine .of_base rfl rfl ?_
    show (s.log ++ [Event.notify s.session n]).countP Event.opens = s.log.countP Event.opens
    rw [List.countP_append]
    rfl
  | _ => exact .refl _

theorem fail (code : Int) (o : EventObject) : Calm o (o.fail code) := by
  have hset : Calm o (o.withBase { o.base with n := -1 }) := .withBase rfl rfl
  exact hset.trans (.notify _ _)

theorem tls {s t : SslEventSocket} (h : t.sockfd = s.sockfd ∧
    t.log.countP Event.opens = s.log.countP Event.opens) : Calm (.tls s) (.tls t) :=
  .of_base rfl h.1 h.2

theorem onTls {α : Type} {f : SslEventSocket → α × SslEventSocket} {other : α}
    (hf : ∀ s, (f s).2.sockfd = s.sockfd ∧
      (f s).2.log.countP Event.opens = s.log.countP Event.opens) (o : EventObject) :
    Calm o (o.onTls f other).2 := by
  cases o with
  | tls s => exact .tls (hf s)
  | _ => exact .refl _

theorem pollHasBufferedInput (o : EventObject) : Calm o (o.pollHasBufferedInput e).2 :=
  .onTls (fun s => ⟨(SslEventSocket.Tacit.pollHasBufferedInput s).polled.sockfd,
    (SslEventSocket.Tacit.pollHasBufferedInput s).polled.opened⟩) o

theorem pollTimeoutMs (o : EventObject) : Calm o (o.pollTimeoutMs e).2 :=
  .onTls (fun s => ⟨(SslEventSocket.Tacit.pollTimeoutMs s).polled.sockfd,
    (SslEventSocket.Tacit.pollTimeoutMs s).polled.opened⟩) o

theorem pollStep (flags : Flags) (o : EventObject) : Calm o (o.pollStep e flags).2 :=
  .onTls (fun s => s.pollStep_opens flags) o

theorem nativeRecv (h : Host) (room : ℕ) (s : Socket) :
    (s.nativeRecv h room).2.sockfd = s.sockfd ∧
    (s.nativeRecv h room).2.log.countP Event.opens = s.log.countP Event.opens := by
  unfold Socket.nativeRecv
  split
  · exact ⟨rfl, rfl⟩
  · refine ⟨rfl, ?_⟩
    show (s.log ++ [_]).countP Event.opens = _
    rw [List.countP_append]
    rfl

theorem nativeSend (h : Host) (s : Socket) : (s.nativeSend h).2.sockfd = s.sockfd ∧
    (s.nativeSend h).2.log.countP Event.opens = s.log.countP Event.opens := by
  unfold Socket.nativeSend
  split
  · exact ⟨rfl, rfl⟩
  · refine ⟨rfl, ?_⟩
    show (s.log ++ [_]).countP Event.opens = _
    rw [List.countP_append]
    rfl

/-- The notice that a function leaves for the handler. -/
theorem noticed {c : Prop} [Decidable c] {n : Notice} (h : Calm o o') :
    Calm o (if c then o'.notify n else o') := by
  split
  · exact h.trans (.notify n o')
  · exact h

theorem pollReceive (o : EventObject) : Calm o (o.pollReceive e).2 := by
  have hrecv := nativeRecv e.tls.toHost Socket.maxBufferSize o.base
  cases o with
  | tls s => exact .noticed (.tls ⟨(SslEventSocket.Tacit.pollReceive _ s).polled.sockfd,
      (SslEventSocket.Tacit.pollReceive _ s).polled.opened⟩)
  | _ => exact .noticed (.withBase hrecv.1 hrecv.2)

theorem flushQueued (o : EventObject) : Calm o (o.flushQueued e).2 := by
  have hflush (s : EventSocket) :
      (s.flushQueued (EventSocket.transport e.tls.toHost) sendBudget s.toSocket).state.sockfd =
        s.sockfd ∧
      (s.flushQueued (EventSocket.transport e.tls.toHost) sendBudget
        s.toSocket).state.log.countP Event.opens = s.log.countP Event.opens := by
    refine flushQueued_keeps (I := fun t : Socket => t.sockfd = s.sockfd ∧
      t.log.countP Event.opens = s.log.countP Event.opens) (fun data t ht => ?_) _ _ _ ⟨rfl, rfl⟩
    obtain ⟨hfd, hlog⟩ := nativeSend e.tls.toHost t
    exact ⟨hfd.trans ht.1, hlog.trans ht.2⟩
  unfold EventObject.flushQueued
  refine .noticed ?_
  cases o with
  | tcp s | listener s => exact .of_base rfl (hflush s).1 (hflush s).2
  | tls s => exact .tls ⟨(SslEventSocket.Tacit.flushQueued sendBudget s).polled.sockfd,
      (SslEventSocket.Tacit.flushQueued sendBudget s).polled.opened⟩
  | udp server s => exact .refl _

theorem datagramFrom (n : Int) (sender : Sockaddr) (o : EventObject) :
    Calm o (EventLoop.datagramFrom n sender o).2 := by
  cases o with
  | udp server s =>
    cases server with
    | false => exact ⟨rfl, rfl, rfl⟩
    | true =>
      have hbase := { s with n := n, remoteAddr := sender : UdpServer }.getPeer_base sender
      exact ⟨rfl, rfl, congr_arg (·.sockfd) hbase⟩
  | _ => exact .refl _

end Calm

/-- A close ends the connection. -/
theorem Mild.close (o : EventObject) : Mild o (o.close e).2 ∧ (o.close e).2.base.sockfd = none := by
  have hbase (s : Socket) : (Socket.close e.tls.toHost s).2.log.countP Event.opens =
      s.log.countP Event.opens := by
    cases hfd : s.sockfd with
    | none => rw [Socket.close_none hfd]
    | some fd =>
      rw [Socket.close_log hfd, List.countP_append]
      rfl
  have hnone : (o.close e).2.base.sockfd = none := by
    cases o with
    | tls s => exact s.close_opens.1
    | udp server s => exact Socket.close_sockfd _ _
    | _ => exact Socket.close_sockfd _ _
  refine ⟨⟨close_cls o, ?_, .inr hnone⟩, hnone⟩
  cases o with
  | tls s => exact s.close_opens.2
  | udp server s => rfl
  | tcp s | listener s => exact hbase s.toSocket

/-- The close of an open object succeeds, unless the native close fails. -/
theorem close_succeeds {h : LoopHost} {id : ℕ} (hclose : h.ClosesSucceed) (o : EventObject)
    (hvalid : o.base.isValidSocket = true) : (o.close (h.objects id)).1 = true := by
  have hsocket (host : Host) (hhost : ∀ tick, host.close tick = 0) (s : Socket)
      (hs : s.isValidSocket = true) : (s.close host).1 = true := by
    unfold Socket.close
    cases hfd : s.sockfd with
    | none => simp [Socket.isValidSocket, hfd] at hs
    | some fd => simp [hhost]
  have htls := hsocket (h.objects id).tls.toHost fun tick => (hclose id tick).1
  have hudp := hsocket (h.objects id).udp.toHost fun tick => (hclose id tick).2
  cases o with
  | tcp s | listener s => exact htls _ hvalid
  | udp server s => exact hudp _ hvalid
  | tls s =>
    refine htls _ ?_
    have hfd : (s.sendAlert.freeSession.clearFlags false).sockfd = s.sockfd := by
      show s.sendAlert.freeSession.sockfd = s.sockfd
      refine Eq.trans ?_ (SslEventSocket.Tacit.sendAlert s).polled.sockfd
      unfold SslEventSocket.freeSession
      split <;> rfl
    show (s.sendAlert.freeSession.clearFlags false).sockfd.isSome = true
    rw [hfd]
    exact hvalid

end EventObject

end Aeon
