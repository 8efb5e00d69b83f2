import Aeon.EventSteps
import Aeon.SessionHandshake
import Aeon.SessionLifecycle
import Aeon.SessionShutdown

/-!
# Sessions over whole runs

Every function that a program or `poll` runs on a TLS object is a sequence of
session steps, so what holds of all reachable sessions holds of every TLS object
of every program, whatever its handlers do.
-/

namespace Aeon

open Errno Session

namespace SslEventSocket

variable {α : Type} {e : TlsHost} {s : SslEventSocket}

theorem Refines.reachable {f : SslEventSocket → α × SslEventSocket} (hf : Refines f)
    (hs : s.view.Reachable) : (f s).2.view.Reachable := hs.steps (hf s hs.sound)

theorem notify_steps {n : Notice} (hn : (Event.notify s.session n).native = true) :
    Steps s.view (s.record (.notify s.session n)).view := .one (.native _ hn)

/-- Application data or an empty queue is news of a session that is ready. -/
theorem notify_ready {n : Notice} (hlive : s.session ≠ none) (hready : s.tlsReady = true)
    (hn : (∃ bytes, n = .data bytes) ∨ n = .drain) :
    Steps s.view (s.record (.notify s.session n)).view := by
  obtain ⟨id, hid⟩ := Option.ne_none_iff_exists'.mp hlive
  rw [view_record, hid]
  exact .one (.notify (v := s.view) id n hid hready hn)

/-- What `poll_receive` gives back, and what it leaves of the session. -/
structure ReceiveSpec (s : SslEventSocket) (r : (IoResult × List UInt8) × SslEventSocket) :
    Prop where
  count : 0 < r.1.1.ret ∨ r.1.1.ret = -1
  received : 0 < r.1.1.ret → s.session ≠ none ∧ s.tlsReady = true
  session : r.2.session = s.session
  tlsReady : r.2.tlsReady = s.tlsReady
  sockfd : r.2.sockfd = s.sockfd

theorem pollReceive_spec (room : ℕ) (s : SslEventSocket) : ReceiveSpec s (s.pollReceive e room) := by
  have hnone (h : (0 : Int) < -1) : s.session ≠ none ∧ s.tlsReady = true := absurd h (by decide)
  unfold pollReceive
  dsimp only
  split
  · exact ⟨.inr rfl, hnone, rfl, rfl, rfl⟩
  · rename_i id hlive
    split
    · exact ⟨.inr rfl, hnone, rfl, rfl, rfl⟩
    · rename_i hready
      split
      · rename_i hpos
        exact ⟨.inl hpos, fun _ => ⟨by simp [hlive], by simpa using hready⟩, rfl, rfl, rfl⟩
      · split
        · split <;> exact ⟨.inr rfl, hnone, rfl, rfl, rfl⟩
        · split <;> exact ⟨.inr rfl, hnone, rfl, rfl, rfl⟩

/-- What a send leaves of the session, and what a successful one tells of it. -/
theorem sendTls_session (data : List UInt8) (queued : Bool) (s : SslEventSocket) :
    (s.sendTls e data queued).2.session = s.session ∧
      (s.sendTls e data queued).2.tlsReady = s.tlsReady ∧
      (0 < (s.sendTls e data queued).1.ret → s.session ≠ none ∧ s.tlsReady = true) := by
  have hnone (h : (0 : Int) < -1) : s.session ≠ none ∧ s.tlsReady = true := absurd h (by decide)
  rcases s.sendTls_cases (e := e) data queued with
    ⟨he, -⟩ | ⟨he, -⟩ | ⟨he, -⟩ | ⟨id, requested, hlive, hready, -, -, -, -, -, he⟩
  · rw [he]
    exact ⟨rfl, rfl, hnone⟩
  · rw [he]
    exact ⟨rfl, rfl, hnone⟩
  · rw [he]
    exact ⟨rfl, rfl, hnone⟩
  · have hview := (afterWrite_view requested queued (e.sslWrite s.tick requested.length)
      (s.ticked.record (.sslWrite id (origin queued) requested (e.sslWrite s.tick requested.length)
        (s.pendingWriteLen ≠ 0) (if queued then 0 else s.queuedBytes)))).1
    rw [← he] at hview
    have hlive' := congr_arg Session.live hview
    have hready' := congr_arg Session.ready hview
    rw [settle_live] at hlive'
    rw [settle_ready] at hready'
    exact ⟨hlive', hready', fun _ => ⟨by simp [hlive], hready⟩⟩

/-- A flush that sends something found the session live and ready. -/
theorem flushLoop_session (budget : ℕ) (r : FlushResult) (q : Outgoing) (i : ℕ) :
    (flushLoop (transport e) budget r q i s).state.session = s.session ∧
      (flushLoop (transport e) budget r q i s).state.tlsReady = s.tlsReady ∧
      ((flushLoop (transport e) budget r q i s).queue.bytes ≠ q.bytes →
        (flushLoop (transport e) budget r q i s).result.error = 0 →
        s.session ≠ none ∧ s.tlsReady = true) := by
  induction r, q, i, s using flushLoop.induct (transport e) budget with
  | case1 r q i s hb data sent r' q' hstop =>
    obtain ⟨hlive, hready, -⟩ := s.sendTls_session (e := e) data true
    rw [flushLoop_stop hb hstop]
    refine ⟨hlive, hready, fun hbytes herr => ?_⟩
    rcases flushOnce_stop hstop with ⟨-, rfl, -⟩ | ⟨-, hcode, -⟩
    · exact absurd rfl hbytes
    · exact absurd herr hcode
  | case2 r q i s hb data sent r' q' i' hagain ih =>
    obtain ⟨hlive, hready, hsent⟩ := s.sendTls_session (e := e) data true
    rw [flushLoop_again hb hagain]
    refine ⟨ih.1.trans hlive, ih.2.1.trans hready, fun hbytes herr => ?_⟩
    rcases flushOnce_again hagain with ⟨-, rfl, -, -, -⟩ | ⟨hpos, -⟩
    · obtain ⟨hl, hr⟩ := ih.2.2 hbytes herr
      exact ⟨hlive ▸ hl, hready.symm.trans hr⟩
    · exact hsent hpos
  | case3 r q i s hb =>
    rw [flushLoop_done hb]
    exact ⟨rfl, rfl, fun hbytes => absurd rfl hbytes⟩

theorem flushQueued_drained {budget : ℕ} (hd : (s.flushQueued e budget).1.drained = true) :
    (s.flushQueued e budget).2.session ≠ none ∧ (s.flushQueued e budget).2.tlsReady = true := by
  have hflushed (f : Flushed SslEventSocket) :
      (flushed f).session = f.state.session ∧ (flushed f).tlsReady = f.state.tlsReady := by
    unfold flushed
    dsimp only
    split <;> exact ⟨rfl, rfl⟩
  unfold flushQueued EventSocket.flushQueued at hd ⊢
  dsimp only at hd ⊢
  rw [(hflushed _).1, (hflushed _).2]
  split at hd
  · exact absurd hd Bool.false_ne_true
  · rename_i hguard
    rw [if_neg hguard]
    obtain ⟨hlive, hready, hsent⟩ :=
      flushLoop_session (e := e) (s := s) budget {} s.outgoing 0
    simp only [drain, decide_eq_true_eq] at hd ⊢
    rw [hlive, hready]
    exact hsent (by rw [hd.2.1]; exact hd.1.symm) hd.2.2

end SslEventSocket

open SslEventSocket

/-- A TLS object is in a state of the session model. -/
def EventObject.Modelled : EventObject → Prop
  | .tls s => s.view.Reachable
  | _ => True

theorem EventObject.Modelled.of_cls {o : EventObject} (h : o.cls ≠ .tls) : o.Modelled := by
  cases o with
  | tls s => exact absurd rfl h
  | _ => trivial

namespace ObjectStep

variable {e : NetHost} {o o' : EventObject}

/-- A new TLS object has no session and only descriptors in its history. -/
theorem initial_reachable {s : SslEventSocket} (hlog : ∀ ev ∈ s.log, ev.native = true)
    (hnew : s.view.reset = { log := s.log, fresh := 0 }) (hready : s.tlsReady = false)
    (hclosing : s.shutdownRequested = false) (hlen : s.pendingWriteLen = 0) :
    s.view.Reachable :=
  ⟨s.view, ⟨hlog, congr_arg Session.queue hnew, congr_arg Session.live hnew,
    congr_arg Session.fresh hnew, hready, hclosing, hlen⟩, .refl _⟩

theorem construct_native (h : Host) (base : Socket) (hbase : ∀ ev ∈ base.log, ev.native = true) :
    (∀ ev ∈ (EventSocket.construct h base).log, ev.native = true) ∧
      (EventSocket.construct h base).outgoing = {} := by
  unfold EventSocket.construct
  split
  · exact ⟨hbase, rfl⟩
  · dsimp only
    refine ⟨?_, rfl⟩
    have hmode := (Socket.unopened_setBlocking h false base).1
    split
    · rw [hmode]
      exact hbase
    · obtain ⟨es, hes, hlog⟩ := Socket.silent_close h (base.setBlocking h false).2
      rw [hlog, hmode]
      intro ev hev
      exact (List.mem_append.mp hev).elim (hbase ev) (hes ev)

theorem silent_reachable {α : Type} {s : SslEventSocket} {f : Socket → α × Socket}
    (hf : Socket.Silent f) (hs : s.view.Reachable) :
    (s.onSocket f).2.view.Reachable := (onSocket_refines hf).reachable hs

theorem adoptAccepted_reachable {e : TlsHost} {base : EventSocket} (retained : Bool)
    (hlog : ∀ ev ∈ base.log, ev.native = true) (hqueue : base.outgoing = {}) :
    (adoptAccepted e retained base).view.Reachable := by
  have hstart (c : Bool) : Session.Reachable (SslEventSocket.view
      { toEventSocket := base, serverSide := true, verifyMode := .off, hasCtx := c }) :=
    initial_reachable hlog (by simp [view, Session.reset, Session.forget, hqueue]) rfl rfl rfl
  unfold adoptAccepted
  dsimp only
  split
  · exact hstart retained
  · obtain ⟨v, hsteps, -, hdone⟩ := initSession_steps (e := e) true
      { toEventSocket := base, serverSide := true, verifyMode := .off, hasCtx := retained }
    have hmade := (hstart retained).steps hsteps
    rw [← hdone (.inr rfl)] at hmade
    split <;> exact hmade

/-- A new TLS object is made from a base object that has only opened descriptors:
one that is to connect, or one that has accepted a connection. -/
theorem new_cases (h : NewObject e o) : o.cls ≠ .tls ∨
    ∃ base : EventSocket, (∀ ev ∈ base.log, ev.native = true) ∧ base.outgoing = {} ∧
      ((∃ s ctx, o = .tls s ∧ s.view = SslEventSocket.view { toEventSocket := base, hasCtx := ctx }) ∨
        ∃ retained timeoutMs, o = .tls (((adoptAccepted e.tls retained base).setHandshakeTimeout
          e.tls timeoutMs).2.onSocket (Socket.setBlocking e.tls.toHost false)).2) := by
  cases h with
  | tcp | listener | udp | acceptedTcp => exact .inl fun h => EventClass.noConfusion h
  | tls ctx =>
    have hconstruct (ev : Event) (hev : ev ∈ (Socket.construct e.tls.toHost 0).log) :
        ev.native = true := by
      unfold Socket.construct at hev
      split at hev
      · cases hev
      · dsimp only at hev
        split at hev <;> rw [List.mem_singleton.mp hev] <;> rfl
    obtain ⟨hlog, hqueue⟩ := construct_native e.tls.toHost _ hconstruct
    refine .inr ⟨_, hlog, hqueue, .inl ?_⟩
    unfold EventLoop.newTls
    dsimp only
    split <;> exact ⟨_, ctx, rfl, rfl⟩
  | @acceptedTls fd retained timeoutMs s hs =>
    have hadopt (ev : Event) (hev : ev ∈ (Socket.adopt e.tls.toHost 0 fd).log) :
        ev.native = true := by
      unfold Socket.adopt at hev
      dsimp only at hev
      split at hev <;> cases hev
    obtain ⟨hlog, hqueue⟩ := construct_native e.tls.toHost _ hadopt
    refine .inr ⟨_, hlog, hqueue, .inr ⟨retained, timeoutMs, ?_⟩⟩
    unfold EventLoop.acceptedTls at hs
    dsimp only at hs
    split at hs
    · cases hs
    · split at hs
      · exact congr_arg EventObject.tls (Option.some.inj hs).symm
      · cases hs

theorem new_modelled (h : NewObject e o) : o.Modelled := by
  rcases new_cases h with hcls | ⟨base, hlog, hqueue, ⟨s, ctx, rfl, hview⟩ | ⟨retained, ms, rfl⟩⟩
  · exact .of_cls hcls
  · show s.view.Reachable
    rw [hview]
    exact initial_reachable hlog (by simp [view, Session.reset, Session.forget, hqueue]) rfl rfl rfl
  · have hadopted := adoptAccepted_reachable (e := e.tls) retained hlog hqueue
    exact silent_reachable (Socket.unopened_setBlocking e.tls.toHost false).silent
      ((setHandshakeTimeout_refines (e := e.tls) ms).reachable hadopted)

/-- Whatever happens to a TLS object is a sequence of session steps. -/
theorem tls_steps {s : SslEventSocket} (h : ObjectStep e (.tls s) o') (hs : s.view.Sound) :
    ∃ t, o' = .tls t ∧ Steps s.view t.view := by
  have hsocket {α : Type} {f : Socket → α × Socket} (hf : Socket.Silent f) :
      ∃ t, (EventObject.tls s).withBase (f s.toSocket).2 = .tls t ∧ Steps s.view t.view :=
    ⟨_, rfl, onSocket_refines hf s hs⟩
  cases h with
  | same => exact ⟨s, rfl, .refl _⟩
  | socket f hf => exact hsocket hf.silent
  | create family f hf =>
    refine hsocket fun t => ?_
    obtain ⟨es, hes, hlog⟩ := Socket.silent_create e.tls.toHost family t
    exact ⟨es, hes, (hf t).1.trans hlog⟩
  | closeBase => exact hsocket (Socket.silent_close e.tls.toHost)
  | close => exact ⟨_, rfl, close_refines s hs⟩
  | pollHasBufferedInput => exact ⟨_, rfl, pollHasBufferedInput_refines s hs⟩
  | pollTimeoutMs => exact ⟨_, rfl, pollTimeoutMs_refines s hs⟩
  | pollStep flags => exact ⟨_, rfl, pollStep_refines flags s hs⟩
  | pollReceive =>
    have hread := pollReceive_refines (e := e.tls) Socket.maxBufferSize s hs
    unfold EventObject.pollReceive
    dsimp only
    split
    · have hspec := s.pollReceive_spec (e := e.tls) Socket.maxBufferSize
      obtain ⟨hlive, hready⟩ := hspec.received ‹_›
      exact ⟨_, rfl, hread.trans (notify_ready (hspec.session ▸ hlive) (hspec.tlsReady.trans hready)
        (.inl ⟨_, rfl⟩))⟩
    · exact ⟨_, rfl, hread⟩
  | flushQueued =>
    have hflush := flushQueued_refines (e := e.tls) s hs
    unfold EventObject.flushQueued
    dsimp only
    split
    · obtain ⟨hlive, hready⟩ := flushQueued_drained (e := e.tls) (s := s) ‹_›
      exact ⟨_, rfl, hflush.trans (notify_ready hlive hready (.inr rfl))⟩
    · exact ⟨_, rfl, hflush⟩
  | fail code => exact ⟨_, rfl, notify_steps (s := { s with n := -1 }) rfl⟩
  | datagramFrom n sender => exact ⟨s, rfl, .refl _⟩
  | exec c =>
    cases c with
    | set setter => exact hsocket (Socket.unopened_run _ setter).silent
    | read c =>
      cases c with
      | buffer given size => exact ⟨_, rfl, readBuffer_refines given size s hs⟩
      | line given size => exact ⟨_, rfl, readLine_refines given size s hs⟩
      | «until» given size => exact ⟨_, rfl, readLine_refines given size s hs⟩
      | internal => exact ⟨_, rfl, readBuffer_refines true _ s hs⟩
      | string size => exact ⟨_, rfl, readString_refines size s hs⟩
      | shift => exact ⟨_, rfl, readString_refines _ s hs⟩
    | queueWrite data => exact ⟨_, rfl, queueWrite_refines data s hs⟩
    | setMaxQueuedBytes limit => exact ⟨_, rfl, setMaxQueuedBytes_refines limit s hs⟩
    | setCaFile path => exact ⟨_, rfl, setCaFile_refines path s hs⟩
    | setPeerVerification mode => exact ⟨_, rfl, setPeerVerification_refines mode s hs⟩
    | setAllowSelfSigned enabled => exact ⟨_, rfl, .refl _⟩
    | setHandshakeTimeout ms => exact ⟨_, rfl, setHandshakeTimeout_refines ms s hs⟩
    | beginGracefulShutdown ms => exact ⟨_, rfl, beginGracefulShutdown_refines ms s hs⟩
  | directWrite data =>
    have hsend := sendTls_direct_refines (e := e.tls) data s hs
    unfold EventObject.directWrite
    dsimp only
    split
    · exact ⟨_, rfl,
        hsend.trans (notify_steps (s := (sendTls e.tls data false s).2.setError _) rfl)⟩
    · exact ⟨_, rfl, hsend⟩
  | notifyWrite data n => exact ⟨_, rfl, notify_steps (s := s) rfl⟩
  | startClient identity => exact ⟨_, rfl, startClient_refines identity s hs⟩
  | closeOwnedPeers => exact ⟨s, rfl, .refl _⟩
  | onUdp f other => exact ⟨s, rfl, .refl _⟩

theorem modelled (h : ObjectStep e o o') (ho : o.Modelled) : o'.Modelled := by
  cases o with
  | tls s =>
    have hs : s.view.Reachable := ho
    obtain ⟨t, rfl, hsteps⟩ := h.tls_steps hs.sound
    exact hs.steps hsteps
  | _ => exact .of_cls (h.cls ▸ EventClass.noConfusion)

end ObjectStep

/-- Every TLS object of every program is in a state of the session model. -/
theorem EventLoop.Reaches.modelled {h : LoopHost} {fuel id : ℕ} {w : EventWorld}
    {s : SslEventSocket} (hw : Reaches h fuel w) (hs : w.find id = some (.tls s)) :
    s.view.Reachable :=
  hw.each (J := EventObject.Modelled) (fun _ _ => ObjectStep.new_modelled)
    (fun _ _ _ => ObjectStep.modelled) hs

end Aeon
