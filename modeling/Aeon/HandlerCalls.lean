import Aeon.EventSteps
import Aeon.SessionNotices

/-!
# Handler calls and their records

A TLS object notes in its history what its handler is told.  Here are the notices that
each function of an object adds, by what the function returns: the caller of the
function owes the handler a call for each of them.
-/

namespace Aeon

open Program History

/-- The notice of a handler call in the history. -/
def Event.notice : Event → Option Notice
  | .notify _ n => some n
  | _ => none

theorem Event.notice_of_untold {ev : Event} (h : ev.untold = true) : ev.notice = none := by
  cases ev with
  | notify => cases h
  | _ => rfl

/-- What the history of a TLS object says that its handler has been told. -/
def SslEventSocket.told (s : SslEventSocket) : List Notice := s.log.filterMap Event.notice

/-- Events that tell nothing do not count. -/
theorem told_extends {log log' : List Event} (h : Extends (fun ev => ev.notice = none) log log') :
    log'.filterMap Event.notice = log.filterMap Event.notice := by
  obtain ⟨es, rfl, hes⟩ := h
  rw [List.filterMap_append, List.filterMap_eq_nil_iff.mpr hes, List.append_nil]

namespace SslEventSocket

variable {e : TlsHost} {s t u : SslEventSocket} {ns : List Notice}

theorem told_of_log (h : Extends (fun ev => ev.notice = none) s.log t.log) : t.told = s.told :=
  told_extends h

theorem told_same (h : t.log = s.log) : t.told = s.told := told_of_log (.of_eq h)

theorem told_adds {ev : Event} (h : t.log = s.log ++ [ev]) (hev : ev.notice = none) : t.told = s.told :=
  told_of_log (.one h hev)

theorem told_notify (session : Option ℕ) (n : Notice) (s : SslEventSocket) :
    (s.record (.notify session n)).told = s.told ++ [n] := by
  show (s.log ++ [Event.notify session n]).filterMap Event.notice = _
  rw [List.filterMap_append]
  rfl

theorem Untold.told (h : Untold s t) : t.told = s.told :=
  told_of_log (h.log.mono fun _ => Event.notice_of_untold)

theorem told_freeSession (s : SslEventSocket) : s.freeSession.told = s.told := by
  unfold freeSession
  split
  · rfl
  · exact told_adds rfl rfl

theorem told_newSession (s : SslEventSocket) : s.newSession.told = s.told := told_adds rfl rfl

/-- A close tells that it has closed something. -/
theorem told_close (s : SslEventSocket) :
    (s.close e).2.told = s.told ++ if (s.close e).1 then [.close] else [] := by
  have hfreed : s.sendAlert.freeSession.told = s.told :=
    (told_freeSession _).trans (Tacit.sendAlert s).untold.told
  unfold SslEventSocket.close
  dsimp only
  generalize s.sendAlert.freeSession = u at hfreed
  have hdiscarded (b : EventSocket)
      (hb : b = (EventSocket.close e.toHost (u.clearFlags false).toEventSocket).2) :
      (({ u.clearFlags false with toEventSocket := b } : SslEventSocket).record
        (.discarded s.session)).told = s.told := by
    refine Eq.trans (told_of_log (s := u) ?_) hfreed
    subst hb
    refine Extends.trans ?_ (.one rfl rfl)
    show Extends _ u.log (Socket.close e.toHost u.toSocket).2.log
    cases hfd : u.sockfd with
    | none => exact .of_eq (by rw [Socket.close_none hfd])
    | some fd => exact .one (Socket.close_log hfd) rfl
  have hend := hdiscarded _ rfl
  cases (EventSocket.close e.toHost (u.clearFlags false).toEventSocket).1 with
  | false => exact hend.trans (List.append_nil _).symm
  | true => exact (told_notify _ _ _).trans (congr_arg (· ++ [.close]) hend)

/-- A handshake that is complete tells of the connection. -/
theorem told_handshakeStep (id : ℕ) (flags : Flags) (s : SslEventSocket) :
    (s.handshakeStep e id flags).2.told =
      s.told ++ if (s.handshakeStep e id flags).1 = 2 then [.connect] else [] := by
  have hquiet {n : Int} {u : SslEventSocket} (hn : n ≠ 2) (hu : u.told = s.told) :
      u.told = s.told ++ if n = 2 then [Notice.connect] else [] := by
    rw [if_neg hn, List.append_nil, hu]
  have hdown : (-1 : Int) ≠ 2 := by decide
  have hpending : (0 : Int) ≠ 2 := by decide
  unfold SslEventSocket.handshakeStep
  split
  · exact hquiet hdown rfl
  · split
    · exact hquiet hpending rfl
    · dsimp only
      have htried (u : SslEventSocket) (hlog : u.log = s.log ++ [.handshake id
          ((e.doHandshake s.tick).ret = 1) (!s.serverSide && s.verifyMode == .strict)
          (e.verifyOk s.tick) (some (e.doHandshake s.tick))]) : u.told = s.told := told_adds hlog rfl
      split
      · split
        · exact hquiet hdown (htried _ rfl)
        · exact (told_notify _ _ _).trans (congr_arg (· ++ [.connect]) (htried _ rfl))
      · split
        · exact hquiet hpending (htried _ rfl)
        · split
          · exact hquiet hpending (htried _ rfl)
          · split <;> exact hquiet hdown (htried _ rfl)

/-- No call of a shutdown completes a handshake. -/
theorem callShutdown_ne_two (id : ℕ) (flags : Flags) (s : SslEventSocket) :
    (s.callShutdown e id flags).1 ≠ 2 := by
  have hended : (3 : Int) ≠ 2 := by decide
  have hpending : (0 : Int) ≠ 2 := by decide
  have hdown : (-1 : Int) ≠ 2 := by decide
  unfold callShutdown
  dsimp only
  split
  · exact hended
  · split
    · exact hpending
    · split
      · split
        · exact hended
        · exact hpending
      · split
        · exact hended
        · exact hdown

theorem shutdownStep_ne_two (id : ℕ) (flags : Flags) (s : SslEventSocket) :
    (s.shutdownStep e id flags).1 ≠ 2 := by
  have hended : (3 : Int) ≠ 2 := by decide
  have hdown : (-1 : Int) ≠ 2 := by decide
  unfold shutdownStep
  dsimp only
  split
  · exact hdown
  · split
    · split
      · exact hended
      · exact hdown
    · split
      · exact hended
      · split
        · exact (show (1 : Int) ≠ 2 by decide)
        · split
          · exact (show (0 : Int) ≠ 2 by decide)
          · exact callShutdown_ne_two id flags _

theorem told_pollStep (flags : Flags) (s : SslEventSocket) : (s.pollStep e flags).2.told =
    s.told ++ if (s.pollStep e flags).1 = 2 then [.connect] else [] := by
  have hquiet {n : Int} {u : SslEventSocket} (hn : n ≠ 2) (hu : u.told = s.told) :
      u.told = s.told ++ if n = 2 then [Notice.connect] else [] := by
    rw [if_neg hn, List.append_nil, hu]
  have hdown : (-1 : Int) ≠ 2 := by decide
  have hpending : (0 : Int) ≠ 2 := by decide
  have hready : (1 : Int) ≠ 2 := by decide
  unfold SslEventSocket.pollStep
  split
  · exact hquiet hdown rfl
  · rename_i id _
    split
    · split
      · exact hquiet (shutdownStep_ne_two id flags s) (Tacit.shutdownStep id flags s).untold.told
      · split
        · exact hquiet hdown rfl
        · exact hquiet hready rfl
    · dsimp only
      split
      · exact hquiet hdown rfl
      · exact told_handshakeStep id flags _

theorem told_initSession (server : Bool) (s : SslEventSocket) :
    (s.initSession e server).2.told = s.told := by
  have hnew : s.freeSession.ticked.newSession.told = s.told :=
    (told_newSession _).trans (told_freeSession s)
  unfold SslEventSocket.initSession
  split
  · rfl
  · dsimp only
    split
    · exact told_freeSession s
    · split
      · exact hnew
      · exact hnew

theorem told_refuseClient (code : Int) (s : SslEventSocket) : (s.refuseClient e code).2.told =
    s.told ++ if (s.refuseClient e code).1.2 then [.close] else [] := told_close _

/-- A client that is refused may have been closed. -/
theorem told_startClient (identity : String) (s : SslEventSocket) :
    (s.startClient e identity).2.told =
      s.told ++ if (s.startClient e identity).1.2 then [.close] else [] := by
  have hrefuse {u : SslEventSocket} (code : Int) (hu : u.told = s.told) :
      (u.refuseClient e code).2.told =
        s.told ++ if (u.refuseClient e code).1.2 then [.close] else [] := by
    rw [told_refuseClient, hu]
  unfold SslEventSocket.startClient
  dsimp only
  split
  · exact hrefuse _ rfl
  · have hmode : ({ s with
        expectedIdentity := identity
        toSocket := (s.toSocket.setBlocking e.toHost false).2 } : SslEventSocket).told = s.told :=
      told_same (Socket.aside_setBlocking e.toHost false s.toSocket).log
    generalize ({ s with
        expectedIdentity := identity
        toSocket := (s.toSocket.setBlocking e.toHost false).2 } : SslEventSocket) = t at hmode ⊢
    split
    · exact hrefuse _ hmode
    · have hmade := (told_initSession (e := e) false t).trans hmode
      generalize t.initSession e false = made at hmade ⊢
      split
      · exact hrefuse _ hmade
      · have hnamed := (Untold.requireIdentity (e := e) made.2).told.trans hmade
        generalize made.2.requireIdentity e = named at hnamed ⊢
        split
        · exact hrefuse _ hnamed
        · have hsni := (Untold.requestServerName (e := e) identity named.2).told.trans hnamed
          split
          · exact hrefuse _ hsni
          · exact hsni.trans (List.append_nil _).symm

/-- What an application may call at any time tells nothing. -/
theorem told_called (ns : List Notice) : Called e (fun _ => True) fun s => s.told = ns where
  base _ _ hb hs := (told_same hb.log).trans hs
  settings _ _ _ _ _ hs := hs
  modeChanged _ hs := (told_adds rfl rfl).trans hs
  setMaxQueuedBytes _ _ hs := hs
  pollReceive s room hs := (Tacit.pollReceive room s).untold.told.trans hs
  queueWrite data s _ hs := (Tacit.queueWrite data s).untold.told.trans hs
  beginGracefulShutdown timeoutMs s hs := (Tacit.beginGracefulShutdown timeoutMs s).untold.told.trans hs

/-- Of an accepted connection nothing has been told when it is adopted. -/
theorem told_adoptAccepted (retained : Bool) (base : EventSocket) :
    (adoptAccepted e retained base).told = base.log.filterMap Event.notice := by
  unfold SslEventSocket.adoptAccepted
  dsimp only
  split
  · rfl
  · split <;> exact told_initSession true _

end SslEventSocket

namespace EventObject

open SslEventSocket

/-- What the history of a TLS object says that its handler has been told. -/
def told : EventObject → Option (List Notice)
  | .tls s => some s.told
  | _ => none

/-- `f` notes `ns` for the handler of a TLS object, if that is what it returns. -/
def Tells {α : Type} (f : EventObject → α × EventObject) (ns : α → List Notice) : Prop :=
  ∀ o, (f o).2.told = o.told.map (· ++ ns (f o).1)

/-- `f` notes nothing. -/
def Mute {α : Type} (f : EventObject → α × EventObject) : Prop := ∀ o, (f o).2.told = o.told

variable {α : Type} {e : NetHost} {o : EventObject}

theorem Mute.tells {f : EventObject → α × EventObject} (hf : Mute f) : Tells f fun _ => [] := by
  intro o
  rw [hf o]
  cases o.told <;> simp

theorem tells_tls {f : SslEventSocket → α × SslEventSocket} {other : α} {ns : α → List Notice}
    (hf : ∀ s, (f s).2.told = s.told ++ ns (f s).1) : Tells (onTls f other) ns := by
  intro o
  cases o with
  | tls s => exact congr_arg some (hf s)
  | _ => rfl

theorem mute_tls {f : SslEventSocket → α × SslEventSocket} {other : α}
    (hf : ∀ s, (f s).2.told = s.told) : Mute (onTls f other) := by
  intro o
  cases o with
  | tls s => exact congr_arg some (hf s)
  | _ => rfl

/-- The notice that the object notes itself. -/
theorem told_notify (n : Notice) (o : EventObject) : (o.notify n).told = o.told.map (· ++ [n]) := by
  cases o with
  | tls s => exact congr_arg some (SslEventSocket.told_notify _ _ s)
  | _ => rfl

theorem told_notify_if (p : Prop) [Decidable p] (n : Notice) (o : EventObject) :
    (if p then o.notify n else o).told = o.told.map (· ++ if p then [n] else []) := by
  split
  · exact told_notify n o
  · cases o.told <;> simp

/-- The base class tells nobody. -/
theorem told_withBase {b : Socket} (hb : Extends (fun ev => ev.notice = none) o.base.log b.log) :
    (o.withBase b).told = o.told := by
  cases o with
  | tls s => exact congr_arg some (told_extends hb)
  | _ => rfl

theorem mute_onSocket {f : Socket → α × Socket}
    (hf : ∀ s, Extends (fun ev => ev.notice = none) s.log (f s).2.log) : Mute (onSocket f) :=
  fun o => told_withBase (hf o.base)

theorem mute_unopened {f : Socket → α × Socket} (hf : Socket.Unopened f) : Mute (onSocket f) :=
  mute_onSocket fun s => .of_eq (hf s).1

theorem mute_creates {h : Host} {family : Family} {f : Socket → Bool × Socket}
    (hf : Socket.Creates h family f) : Mute (onSocket f) := by
  refine mute_onSocket fun s => ?_
  rw [(hf s).1, (s.create_log h family).2]
  refine ⟨_, rfl, fun ev hev => ?_⟩
  rcases List.mem_append.mp hev with hev | hev
  · obtain ⟨fd, -, rfl⟩ := List.mem_map.mp hev
    rfl
  · obtain ⟨fd, -, rfl⟩ := List.mem_map.mp hev
    rfl

theorem mute_closeBase (h : Host) : Mute (onSocket (Socket.close h)) := by
  refine mute_onSocket fun s => ?_
  cases hfd : s.sockfd with
  | none => exact .of_eq (by rw [Socket.close_none hfd])
  | some fd => exact .one (Socket.close_log hfd) rfl

theorem mute_setError (code : EventObject → Int) : Mute fun o => ((), o.setError (code o)) :=
  fun _ => told_withBase (.of_eq rfl)

theorem Question.told {o' : EventObject} (h : Question e o o') : o'.told = o.told := by
  cases h with
  | same => rfl
  | pollHasBufferedInput =>
    exact mute_tls (fun s => (told_called s.told).pollHasBufferedInput rfl) o
  | pollTimeoutMs => exact mute_tls (fun s => (told_called s.told).pollTimeoutMs rfl) o

/-- Only TLS objects keep a history of what they tell. -/
theorem told_of_cls {o' : EventObject} (h : o'.cls = o.cls) (ho : o.told = none) : o'.told = none := by
  cases o with
  | tls => cases ho
  | _ => cases o' with
    | tls => cases h
    | _ => rfl

theorem mute_exec (c : EventCall) : Mute fun o => ((), o.exec e c) := by
  intro o
  cases hcase : o with
  | tls s =>
    obtain ⟨t, ht, htold⟩ := (told_called s.told).exec (e := e) (s := s) c trivial rfl
    exact (congr_arg told ht).trans (congr_arg some htold)
  | _ => exact told_of_cls (EventObject.exec_cls c _) rfl

theorem mute_closeOwnedPeers : Mute closeOwnedPeers := by
  intro o
  cases o with
  | udp server s => cases server <;> rfl
  | _ => rfl

theorem mute_onUdp {f : UdpServer → α × UdpServer} {other : α} : Mute (EventLoop.onUdp f other) := by
  intro o
  cases o <;> rfl

theorem mute_datagramFrom (n : Int) (sender : Sockaddr) : Mute (EventLoop.datagramFrom n sender) := by
  intro o
  cases o <;> rfl

theorem tells_close : Tells (close e) fun closed => if closed then [.close] else [] := by
  intro o
  cases o with
  | tls s => exact congr_arg some (told_close s)
  | _ => rfl

theorem tells_pollStep (flags : Flags) :
    Tells (pollStep e flags) fun progress => if progress = 2 then [.connect] else [] :=
  tells_tls fun s => told_pollStep flags s

theorem tells_startClient (identity : String) :
    Tells (onTls (SslEventSocket.startClient e.tls identity) (false, false))
      fun started => if started.2 then [.close] else [] :=
  tells_tls fun s => told_startClient identity s

theorem tells_fail (code : Int) : Tells (fun o => ((), o.fail code)) fun _ => [.error code] := by
  intro o
  exact (told_notify _ _).trans (congr_arg (Option.map _) (told_withBase (.of_eq rfl)))

theorem tells_notify (n : Notice) : Tells (fun o => ((), o.notify n)) fun _ => [n] := told_notify n

theorem tells_pollReceive : Tells (pollReceive e)
    fun received => if received.1.ret > 0 then [.data received.2] else [] := by
  have hread : Mute fun o : EventObject => match o with
      | .tls s => ofTls (s.pollReceive e.tls Socket.maxBufferSize)
      | o => o.onSocket (Socket.nativeRecv e.tls.toHost Socket.maxBufferSize) := by
    intro o
    cases o with
    | tls s => exact congr_arg some (Tacit.pollReceive _ s).untold.told
    | _ => rfl
  exact fun o => (told_notify_if _ _ _).trans (congr_arg (Option.map _) (hread o))

/-- A flush that has emptied the queue has not failed. -/
theorem flushQueued_drained_error (hd : (o.flushQueued e).1.drained = true) :
    (o.flushQueued e).1.error = 0 := by
  have hdrain {σ : Type} (t : Transport σ) (s : EventSocket) (state : σ)
      (hd : (s.flushQueued t sendBudget state).result.drained = true) :
      (s.flushQueued t sendBudget state).result.error = 0 := by
    unfold EventSocket.flushQueued at hd ⊢
    split at hd
    · cases hd
    · rename_i hguard
      rw [if_neg hguard]
      simp only [drain, decide_eq_true_eq] at hd ⊢
      exact hd.2.2
  cases o with
  | tcp s => exact hdrain _ s _ hd
  | listener s => exact hdrain _ s _ hd
  | tls s => exact hdrain _ s.toEventSocket _ hd
  | udp => cases hd

theorem tells_flushQueued : Tells (flushQueued e)
    fun flushed => if flushed.error ≠ 0 then [] else if flushed.drained then [.drain] else [] := by
  have hflush : Mute (flush e sendBudget) := by
    intro o
    cases o with
    | tls s => exact congr_arg some (Tacit.flushQueued _ s).untold.told
    | _ => rfl
  have hsame (flushed : FlushResult) (hkept : flushed.drained = true → flushed.error = 0) :
      (if flushed.drained then [Notice.drain] else []) =
        if flushed.error ≠ 0 then [] else if flushed.drained then [.drain] else [] := by
    by_cases herror : flushed.error ≠ 0
    · rw [if_pos herror, if_neg fun hd => herror (hkept hd)]
    · rw [if_neg herror]
  intro o
  refine (told_notify_if _ _ _).trans ((congr_arg (Option.map _) (hflush o)).trans ?_)
  exact congr_arg (fun ns => o.told.map (· ++ ns)) (hsame _ flushQueued_drained_error)

theorem tells_directWrite (data : List UInt8) : Tells (directWrite e data)
    fun sent => if sent.1 < 0 then [.error sent.2] else [] := by
  have hsend : Mute (pollSend e data) := by
    intro o
    cases o with
    | tls s => exact congr_arg some (Tacit.sendTls data false s).untold.told
    | _ => rfl
  have herror (code : Int) (o : EventObject) : (o.setError code).told = o.told :=
    told_withBase (.of_eq rfl)
  intro o
  have hsend := hsend o
  unfold directWrite
  dsimp only
  split
  · rw [told_notify, herror, hsend]
  · rw [herror, hsend]
    cases o.told <;> simp

/-- A new object has told nothing. -/
theorem told_new (h : NewObject e o) : o.told = none ∨ o.told = some [] := by
  have hconstruct {b : Socket} (hb : b.log.filterMap Event.notice = []) (h : Host) :
      (EventSocket.construct h b).log.filterMap Event.notice = [] := by
    have hmode : (b.setBlocking h false).2.log = b.log := (Socket.aside_setBlocking h false b).log
    unfold EventSocket.construct
    split
    · exact hb
    · dsimp only
      split
      · exact (congr_arg _ hmode).trans hb
      · have hclose : Extends (fun ev => ev.notice = none) b.log
            (Socket.close h (b.setBlocking h false).2).2.log := by
          cases hfd : (b.setBlocking h false).2.sockfd with
          | none => exact .of_eq (by rw [Socket.close_none hfd, hmode])
          | some fd => exact .one ((Socket.close_log hfd).trans (by rw [hmode])) rfl
        exact (told_extends hclose).trans hb
  cases h with
  | tcp | listener | udp | acceptedTcp => exact .inl rfl
  | tls ctx =>
    have hbase : (Socket.construct e.tls.toHost 0).log.filterMap Event.notice = [] := by
      unfold Socket.construct
      split
      · rfl
      · dsimp only
        split <;> rfl
    refine .inr (congr_arg some ?_)
    split <;> exact hconstruct hbase e.tls.toHost
  | @acceptedTls fd retained timeoutMs s hs =>
    have hbase : (Socket.adopt e.tls.toHost 0 fd).log.filterMap Event.notice = [] := by
      unfold Socket.adopt
      dsimp only
      split <;> rfl
    have hadopted := (told_adoptAccepted (e := e.tls) retained _).trans (hconstruct hbase e.tls.toHost)
    have htimeout := (told_called (e := e.tls) []).setHandshakeTimeout timeoutMs hadopted
    refine .inr (congr_arg some ?_)
    unfold EventLoop.acceptedTls at hs
    dsimp only at hs
    split at hs
    · cases hs
    · split at hs
      · obtain rfl := Option.some.inj hs
        exact (told_same (Socket.aside_setBlocking e.tls.toHost false _).log).trans htimeout
      · cases hs

end EventObject

end Aeon
