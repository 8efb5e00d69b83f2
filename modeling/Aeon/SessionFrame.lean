import Aeon.EventObject
import Aeon.SessionLifecycle

/-!
# What the functions of a TLS object leave alone

`Tame` keeps what the verification of a peer depends on, and `Polled` also the
descriptor.  Only the functions that open, configure or complete a session are not
tame.
-/

namespace Aeon

open Errno History

/-- A strict client accepts the handshake. -/
def Event.acceptsStrict (id : ℕ) : Event → Bool
  | .handshake i done strict verified _ => i = id && done && strict && verified
  | _ => false

theorem Event.acceptsStrict_native {e : Event} (h : e.native = true) (id : ℕ) :
    e.acceptsStrict id = false := by
  cases e with
  | handshake => cases h
  | _ => rfl

/-- Events that open no connection and no session, complete no handshake, and tell
no handler. -/
def Event.tacit : Event → Bool
  | .opened _ | .sslNew _ | .handshake .. | .notify .. => false
  | _ => true

theorem Event.tacit_inert {e : Event} (h : e.tacit = true) :
    (∀ id, e.acceptsStrict id = false) ∧ e.opens = false := by
  cases e with
  | opened | sslNew | handshake | notify => cases h
  | _ => exact ⟨fun _ => rfl, rfl⟩

namespace SslEventSocket

variable {e : TlsHost} {s t u : SslEventSocket}

/-- From `s` to `t` no handshake is accepted by a strict client. -/
def Unaccepting (s t : SslEventSocket) : Prop :=
  ∃ es, t.log = s.log ++ es ∧ ∀ ev ∈ es, ∀ id, ev.acceptsStrict id = false

theorem Unaccepting.refl (s : SslEventSocket) : Unaccepting s s := Extends.refl s.log

theorem Unaccepting.trans (h : Unaccepting s t) (h' : Unaccepting t u) : Unaccepting s u :=
  Extends.trans h h'

theorem Unaccepting.upTo (h : Unaccepting s t) (hlog : u.log = t.log) : Unaccepting s u :=
  Extends.trans h (.of_eq hlog)

theorem Unaccepting.one {ev : Event} (hlog : t.log = s.log ++ [ev])
    (hev : ∀ id, ev.acceptsStrict id = false) : Unaccepting s t := Extends.one hlog hev

/-- What verification depends on, and the descriptor. -/
def aspects (s : SslEventSocket) :=
  (s.serverSide, s.verifyMode, s.expectedIdentity, s.session, s.tlsReady, s.sockfd, s.log)

/-- Nothing that verification depends on changes, unless the session ends. -/
structure Tame (s t : SslEventSocket) : Prop where
  serverSide : t.serverSide = s.serverSide
  verifyMode : t.verifyMode = s.verifyMode
  expectedIdentity : t.expectedIdentity = s.expectedIdentity
  session : ∀ id, t.session = some id → s.session = some id ∧ t.tlsReady = s.tlsReady
  log : Unaccepting s t

namespace Tame

theorem trans (h : Tame s t) (h' : Tame t u) : Tame s u where
  serverSide := h'.serverSide.trans h.serverSide
  verifyMode := h'.verifyMode.trans h.verifyMode
  expectedIdentity := h'.expectedIdentity.trans h.expectedIdentity
  session id hid := by
    obtain ⟨hlive, hready⟩ := h'.session id hid
    obtain ⟨hfirst, hsame⟩ := h.session id hlive
    exact ⟨hfirst, hready.trans hsame⟩
  log := h.log.trans h'.log

theorem onSocket {α : Type} {f : Socket → α × Socket} (hf : Socket.Silent f)
    (s : SslEventSocket) : Tame s (s.onSocket f).2 := by
  obtain ⟨es, hes, hlog⟩ := hf s.toSocket
  exact ⟨rfl, rfl, rfl, fun _ h => ⟨h, rfl⟩, es, hlog,
    fun ev hev id => Event.acceptsStrict_native (hes ev hev) id⟩

end Tame

/-- The descriptor stays too, and none is opened. -/
structure Polled (s t : SslEventSocket) : Prop extends Tame s t where
  sockfd : t.sockfd = s.sockfd
  opened : t.log.countP Event.opens = s.log.countP Event.opens

namespace Polled

theorem trans (h : Polled s t) (h' : Polled t u) : Polled s u :=
  ⟨h.toTame.trans h'.toTame, h'.sockfd.trans h.sockfd, h'.opened.trans h.opened⟩

theorem same (h : t.aspects = s.aspects) : Polled s t := by
  simp only [aspects, Prod.mk.injEq] at h
  obtain ⟨h1, h2, h3, h4, h5, h6, h7⟩ := h
  exact ⟨⟨h1, h2, h3, fun _ h => ⟨h4 ▸ h, h5⟩, [], by simp [h7], by simp⟩, h6, by rw [h7]⟩

/-- One event is added. -/
theorem adds (ev : Event) (hev : ∀ id, ev.acceptsStrict id = false) (hopen : ev.opens = false)
    (h : t.aspects = (s.record ev).aspects) : Polled s t := by
  simp only [aspects, Prod.mk.injEq] at h
  obtain ⟨h1, h2, h3, h4, h5, h6, h7⟩ := h
  refine ⟨⟨h1, h2, h3, fun _ h => ⟨h4.symm.trans h, h5⟩, .one h7 hev⟩, h6, ?_⟩
  rw [h7]
  show (s.log ++ [ev]).countP _ = _
  rw [List.countP_append, List.countP_singleton, hopen]
  rfl

theorem record {ev : Event} (hev : ∀ id, ev.acceptsStrict id = false)
    (h : t.aspects = (s.record ev).aspects) (hopen : ev.opens = false) : Polled s t :=
  .adds ev hev hopen h

end Polled

/-- What tacit functions leave. -/
def fixture (s : SslEventSocket) :=
  (s.serverSide, s.verifyMode, s.expectedIdentity, s.session, s.nextSession, s.tlsReady, s.sockfd)

/-- The session and its connection stay what they are, and no handler is told anything. -/
structure Tacit (s t : SslEventSocket) : Prop where
  fixture : t.fixture = s.fixture
  log : Extends (fun ev => ev.tacit = true) s.log t.log

namespace Tacit

theorem refl (s : SslEventSocket) : Tacit s s := ⟨rfl, .refl s.log⟩

theorem trans (h : Tacit s t) (h' : Tacit t u) : Tacit s u :=
  ⟨h'.fixture.trans h.fixture, h.log.trans h'.log⟩

theorem same (h : t.fixture = s.fixture) (hlog : t.log = s.log) : Tacit s t :=
  ⟨h, .of_eq hlog⟩

/-- One event is added. -/
theorem adds {ev : Event} (hlog : t.log = s.log ++ [ev]) (h : t.fixture = s.fixture)
    (hev : ev.tacit = true) : Tacit s t :=
  ⟨h, .one hlog hev⟩

theorem polled (h : Tacit s t) : Polled s t := by
  obtain ⟨es, hlog, hes⟩ := h.log
  have hsame := h.fixture
  simp only [SslEventSocket.fixture, Prod.mk.injEq] at hsame
  obtain ⟨hserver, hmode, hidentity, hsession, -, hready, hfd⟩ := hsame
  refine ⟨⟨hserver, hmode, hidentity, fun id hid => ⟨hsession ▸ hid, hready⟩, es, hlog, ?_⟩, hfd, ?_⟩
  · exact fun ev hev => (Event.tacit_inert (hes ev hev)).1
  · have hnone : es.countP Event.opens = 0 :=
      List.countP_eq_zero.mpr fun ev hev => by simp [(Event.tacit_inert (hes ev hev)).2]
    rw [hlog, List.countP_append, hnone, Nat.add_zero]

theorem sendAlert (s : SslEventSocket) : Tacit s s.sendAlert := by
  unfold SslEventSocket.sendAlert
  split
  · exact .refl s
  · split
    · exact .adds rfl rfl rfl
    · exact .refl s

theorem pollTimeoutMs (s : SslEventSocket) : Tacit s (s.pollTimeoutMs e).2 := by
  unfold SslEventSocket.pollTimeoutMs
  split
  · exact .refl s
  · split
    · exact .same rfl rfl
    · split
      · exact .refl s
      · exact .same rfl rfl

theorem pollHasBufferedInput (s : SslEventSocket) : Tacit s (s.pollHasBufferedInput e).2 := by
  unfold SslEventSocket.pollHasBufferedInput
  split
  · exact .same rfl rfl
  · exact .refl s

theorem pollReceive (room : ℕ) (s : SslEventSocket) : Tacit s (s.pollReceive e room).2 := by
  unfold SslEventSocket.pollReceive
  dsimp only
  split
  · exact .same rfl rfl
  · split
    · exact .same rfl rfl
    · split
      · exact .adds rfl rfl rfl
      · split
        · split <;> exact .adds rfl rfl rfl
        · split <;> exact .adds rfl rfl rfl

theorem afterWrite (data : List UInt8) (queued : Bool) (answer : SslResult) (s : SslEventSocket) :
    (s.afterWrite data queued answer).2.fixture = s.fixture ∧
      (s.afterWrite data queued answer).2.log = s.log := by
  unfold SslEventSocket.afterWrite
  split
  · exact ⟨rfl, rfl⟩
  · split
    · dsimp only
      split <;> exact ⟨rfl, rfl⟩
    · exact ⟨rfl, rfl⟩

theorem sendTls (data : List UInt8) (queued : Bool) (s : SslEventSocket) :
    Tacit s (s.sendTls e data queued).2 := by
  rcases s.sendTls_cases (e := e) data queued with
    ⟨he, -⟩ | ⟨he, -⟩ | ⟨he, -⟩ | ⟨id, requested, -, -, -, -, -, -, -, he⟩
  · exact he ▸ .same rfl rfl
  · exact he ▸ .same rfl rfl
  · exact he ▸ .adds rfl rfl rfl
  · obtain ⟨hsame, hlog⟩ := afterWrite requested queued _ _
    exact he ▸ .adds hlog hsame rfl

theorem flushQueued (budget : ℕ) (s : SslEventSocket) : Tacit s (s.flushQueued e budget).2 := by
  have hflushed (f : Flushed SslEventSocket) : Tacit f.state (flushed f) := by
    unfold flushed
    dsimp only
    split
    · exact .adds rfl rfl rfl
    · exact .same rfl rfl
  refine Tacit.trans ?_ (hflushed _)
  exact flushQueued_keeps (fun data _ h => h.trans (.sendTls data true _)) budget s.toEventSocket s
    (.refl s)

theorem readBuffer (buffer : Bool) (size : Int) (s : SslEventSocket) :
    Tacit s (s.readBuffer e buffer size).2 := by
  unfold SslEventSocket.readBuffer
  split
  · exact .same rfl rfl
  · exact Tacit.trans (.pollReceive _ s) (.same rfl rfl)

theorem readLineLoop (room : ℕ) (line : List UInt8) (s : SslEventSocket) :
    Tacit s (s.readLineLoop e room line).2 := by
  induction room generalizing line s with
  | zero => exact .refl s
  | succ room ih =>
    unfold SslEventSocket.readLineLoop
    dsimp only
    have hread := Tacit.readBuffer (e := e) true 1 s
    split
    · exact hread
    · split
      · exact hread
      · exact hread.trans (ih _ _)

theorem readLine (buffer : Bool) (size : Int) (s : SslEventSocket) :
    Tacit s (s.readLine e buffer size).2 := by
  unfold SslEventSocket.readLine
  split
  · exact .same rfl rfl
  · exact .readLineLoop _ _ s

theorem readString (size : Int) (s : SslEventSocket) : Tacit s (s.readString e size).2 := by
  unfold SslEventSocket.readString
  split
  · exact .refl s
  · exact .readBuffer _ _ s

theorem queueWrite (data : Option (List UInt8)) (s : SslEventSocket) :
    Tacit s (s.queueWrite data).2 := by
  have hqueue : (EventSocket.queueWrite (!s.shutdownRequested) data s.toEventSocket).2.toSocket =
      s.toSocket := EventSocket.queueWrite_toSocket _ data s.toEventSocket
  unfold SslEventSocket.queueWrite
  dsimp only
  split
  · have hev : (Event.accepted s.session (data.getD [])).tacit = true := rfl
    refine .adds ?_ ?_ hev
    · simp only [SslEventSocket.record, Socket.record, hqueue]
    · simp only [SslEventSocket.fixture, SslEventSocket.record, Socket.record, hqueue]
  · exact .same (by simp only [SslEventSocket.fixture, hqueue]) (by simp only [hqueue])

theorem setCaFile (path : Option String) (s : SslEventSocket) : Tacit s (s.setCaFile e path).2 := by
  unfold SslEventSocket.setCaFile
  split
  · exact .same rfl rfl
  · dsimp only
    split <;> exact .same rfl rfl

theorem setHandshakeTimeout (milliseconds : Int) (s : SslEventSocket) :
    Tacit s (s.setHandshakeTimeout e milliseconds).2 := by
  unfold SslEventSocket.setHandshakeTimeout
  split
  · exact .same rfl rfl
  · dsimp only
    split <;> exact .same rfl rfl

theorem beginGracefulShutdown (timeoutMs : Int) (s : SslEventSocket) :
    Tacit s (s.beginGracefulShutdown e timeoutMs).2 := by
  unfold SslEventSocket.beginGracefulShutdown
  split
  · exact .same rfl rfl
  · split
    · exact .refl s
    · exact .same rfl rfl

theorem callShutdown (id : ℕ) (flags : Flags) (s : SslEventSocket) :
    Tacit s (s.callShutdown e id flags).2 := by
  unfold SslEventSocket.callShutdown
  dsimp only
  split
  · exact .adds rfl rfl rfl
  · split
    · exact .adds rfl rfl rfl
    · split
      · split <;> exact .adds rfl rfl rfl
      · split <;> exact .adds rfl rfl rfl

theorem shutdownStep (id : ℕ) (flags : Flags) (s : SslEventSocket) :
    Tacit s (s.shutdownStep e id flags).2 := by
  have hnow : Tacit s (s.clock e).2 := .same rfl rfl
  unfold SslEventSocket.shutdownStep
  dsimp only
  split
  · exact .same rfl rfl
  · split
    · split <;> exact .same rfl rfl
    · split
      · exact .same rfl rfl
      · split
        · exact .same rfl rfl
        · split
          · exact .same rfl rfl
          · exact hnow.trans (.callShutdown id flags _)

end Tacit

/-- The session ends, whatever else is reset. -/
theorem freeSession_none (s : SslEventSocket) :
    s.freeSession.session = none ∧ Unaccepting s s.freeSession ∧
      s.freeSession.serverSide = s.serverSide ∧ s.freeSession.verifyMode = s.verifyMode ∧
      s.freeSession.expectedIdentity = s.expectedIdentity := by
  unfold freeSession
  split
  · exact ⟨‹_›, .refl s, rfl, rfl, rfl⟩
  · exact ⟨rfl, .one rfl fun _ => rfl, rfl, rfl, rfl⟩

theorem close_none (s : SslEventSocket) : (s.close e).2.session = none ∧ Tame s (s.close e).2 := by
  have halert := (Tacit.sendAlert s).polled.toTame
  obtain ⟨hnone, hfreed, hserver, hmode, hidentity⟩ := s.sendAlert.freeSession_none
  obtain ⟨es, hes, hlog⟩ := Socket.silent_close e.toHost s.sendAlert.freeSession.toSocket
  have hclosed : Unaccepting s.sendAlert.freeSession
      (s.sendAlert.freeSession.onSocket (Socket.close e.toHost)).2 :=
    ⟨es, hlog, fun ev hev id => Event.acceptsStrict_native (hes ev hev) id⟩
  have hend (t : SslEventSocket) (ht : Unaccepting
      (s.sendAlert.freeSession.onSocket (Socket.close e.toHost)).2 t) : Unaccepting s t :=
    ((halert.log.trans hfreed).trans hclosed).trans ht
  have hsettings : s.sendAlert.freeSession.serverSide = s.serverSide ∧
      s.sendAlert.freeSession.verifyMode = s.verifyMode ∧
      s.sendAlert.freeSession.expectedIdentity = s.expectedIdentity :=
    ⟨hserver.trans halert.serverSide, hmode.trans halert.verifyMode,
      hidentity.trans halert.expectedIdentity⟩
  unfold SslEventSocket.close
  dsimp only
  have hdone : (s.sendAlert.freeSession.clearFlags false).session = none := hnone
  split
  · refine ⟨hdone, hsettings.1, hsettings.2.1, hsettings.2.2, fun id hid => ?_, ?_⟩
    · exact absurd (hdone.symm.trans hid) (by simp)
    · refine hend _ ⟨[.discarded s.session, .notify s.session .close], ?_, by simp [Event.acceptsStrict]⟩
      exact List.append_assoc _ [_] [_]
  · refine ⟨hdone, hsettings.1, hsettings.2.1, hsettings.2.2, fun id hid => ?_, ?_⟩
    · exact absurd (hdone.symm.trans hid) (by simp)
    · exact hend _ (.one rfl fun _ => rfl)

/-- A close gives the descriptor up and opens none. -/
theorem close_opens (s : SslEventSocket) : (s.close e).2.sockfd = none ∧
    (s.close e).2.log.countP Event.opens = s.log.countP Event.opens := by
  have hfreed : s.sendAlert.freeSession.log.countP Event.opens = s.log.countP Event.opens := by
    refine Eq.trans ?_ (Tacit.sendAlert s).polled.opened
    unfold freeSession
    split
    · rfl
    · show (s.sendAlert.log ++ [_]).countP _ = _
      rw [List.countP_append, List.countP_singleton]
      rfl
  have hclosed : (Socket.close e.toHost s.sendAlert.freeSession.toSocket).2.log.countP Event.opens =
      s.log.countP Event.opens := by
    refine Eq.trans ?_ hfreed
    cases hfd : s.sendAlert.freeSession.sockfd with
    | none => rw [Socket.close_none hfd]
    | some fd =>
      rw [Socket.close_log hfd, List.countP_append, List.countP_singleton]
      rfl
  have hdiscarded : ((Socket.close e.toHost s.sendAlert.freeSession.toSocket).2.log ++
      [Event.discarded s.session]).countP Event.opens = s.log.countP Event.opens := by
    rw [List.countP_append, hclosed, List.countP_singleton]
    rfl
  unfold SslEventSocket.close
  dsimp only
  split
  · refine ⟨Socket.close_sockfd e.toHost _, ?_⟩
    refine Eq.trans List.countP_append ?_
    exact hdiscarded
  · exact ⟨Socket.close_sockfd e.toHost _, hdiscarded⟩

theorem handshakeStep_opens (id : ℕ) (flags : Flags) (s : SslEventSocket) :
    (s.handshakeStep e id flags).2.sockfd = s.sockfd ∧
      (s.handshakeStep e id flags).2.log.countP Event.opens = s.log.countP Event.opens := by
  have hone (ev : Event) (hopen : ev.opens = false) :
      (s.log ++ [ev]).countP Event.opens = s.log.countP Event.opens := by
    rw [List.countP_append, List.countP_singleton, hopen]
    rfl
  unfold handshakeStep
  split
  · exact ⟨rfl, rfl⟩
  · split
    · exact ⟨rfl, rfl⟩
    · dsimp only
      split
      · split
        · exact ⟨rfl, hone _ rfl⟩
        · refine ⟨rfl, ?_⟩
          show ((s.log ++ [_]) ++ [Event.notify s.session .connect]).countP _ = _
          rw [List.countP_append, hone _ rfl]
          rfl
      · split
        · exact ⟨rfl, hone _ rfl⟩
        · split
          · exact ⟨rfl, hone _ rfl⟩
          · split <;> exact ⟨rfl, hone _ rfl⟩

theorem pollStep_opens (flags : Flags) (s : SslEventSocket) :
    (s.pollStep e flags).2.sockfd = s.sockfd ∧
      (s.pollStep e flags).2.log.countP Event.opens = s.log.countP Event.opens := by
  unfold pollStep
  split
  · exact ⟨rfl, rfl⟩
  · rename_i id hlive
    split
    · split
      · have hshut := (Tacit.shutdownStep (e := e) id flags s).polled
        exact ⟨hshut.sockfd, hshut.opened⟩
      · split
        · exact ⟨rfl, rfl⟩
        · exact ⟨rfl, rfl⟩
    · dsimp only
      split
      · exact ⟨rfl, rfl⟩
      · exact (s.clock e).2.handshakeStep_opens id flags

end SslEventSocket

end Aeon
