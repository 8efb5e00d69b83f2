import Aeon.SessionFrame
import Aeon.SessionRuns

/-!
# How a session starts

What `init_session` leaves of an object, and that a `start_client` which fails
leaves a closed one.
-/

namespace Aeon

namespace SslEventSocket

variable {e : TlsHost} {s t : SslEventSocket}

/-- Nothing has been recorded on the session: no retry, no direction, no failure
and no shutdown. -/
structure Unused (s : SslEventSocket) : Prop where
  tlsReady : s.tlsReady = false
  sendNeedRead : s.sendNeedRead = false
  recvNeedWrite : s.recvNeedWrite = false
  pendingWriteLen : s.pendingWriteLen = 0
  pendingWriteQueued : s.pendingWriteQueued = false
  pendingWriteHash : s.pendingWriteHash = 0
  sslFailed : s.sslFailed = false
  peerNotifiedClose : s.peerNotifiedClose = false
  shutdownRequested : s.shutdownRequested = false
  shutdownNotifySent : s.shutdownNotifySent = false
  shutdownNeedWrite : s.shutdownNeedWrite = false
  shutdownNeedRead : s.shutdownNeedRead = false

/-- The fields that belong to a session, but for the direction of the handshake. -/
def recorded (s : SslEventSocket) :=
  (s.tlsReady, s.sendNeedRead, s.recvNeedWrite, s.pendingWriteLen, s.pendingWriteQueued,
    s.pendingWriteHash, s.sslFailed, s.peerNotifiedClose, s.shutdownRequested, s.shutdownNotifySent,
    s.shutdownNeedWrite, s.shutdownNeedRead)

theorem unused_iff : s.Unused ↔ s.recorded =
    (false, false, false, 0, false, 0, false, false, false, false, false, false) := by
  simp only [recorded, Prod.mk.injEq]
  refine ⟨fun ⟨h1, h2, h3, h4, h5, h6, h7, h8, h9, h10, h11, h12⟩ =>
    ⟨h1, h2, h3, h4, h5, h6, h7, h8, h9, h10, h11, h12⟩, ?_⟩
  rintro ⟨h1, h2, h3, h4, h5, h6, h7, h8, h9, h10, h11, h12⟩
  exact ⟨h1, h2, h3, h4, h5, h6, h7, h8, h9, h10, h11, h12⟩

theorem Unused.of_recorded (h : s.Unused) (ht : t.recorded = s.recorded) : t.Unused :=
  unused_iff.mpr (ht.trans (unused_iff.mp h))

theorem unused_clearFlags (needWrite : Bool) (s : SslEventSocket) : (s.clearFlags needWrite).Unused :=
  ⟨rfl, rfl, rfl, rfl, rfl, rfl, rfl, rfl, rfl, rfl, rfl, rfl⟩

/-- The end of the session that `init_session` finds. -/
def superseded (s : SslEventSocket) : List Event := s.session.toList.map .sslFree

theorem freeSession_log (s : SslEventSocket) : s.freeSession.log = s.log ++ s.superseded := by
  unfold freeSession superseded
  cases s.session with
  | none => exact (List.append_nil _).symm
  | some id => rfl

/-- From `s` to `t` a session has been made and nothing has happened on it.  The
queue is what it was. -/
structure Opened (s t : SslEventSocket) : Prop where
  session : t.session = some s.nextSession
  unused : t.Unused
  outgoing : t.outgoing = s.outgoing
  log : ∃ es, t.log = s.log ++ s.superseded ++ .sslNew s.nextSession :: es ∧
    ∀ ev ∈ es, ev.native = true

namespace Opened

/-- What happens to the object without touching the session. -/
theorem upTo {u : SslEventSocket} (h : Opened s t) (es : List Event)
    (hlive : u.session = t.session) (hrecorded : u.recorded = t.recorded)
    (hqueue : u.outgoing = t.outgoing) (hlog : u.log = t.log ++ es)
    (hes : ∀ ev ∈ es, ev.native = true) : Opened s u := by
  obtain ⟨es', hlog', hes'⟩ := h.log
  refine ⟨hlive.trans h.session, h.unused.of_recorded hrecorded, hqueue.trans h.outgoing,
    es' ++ es, by rw [hlog, hlog']; simp, fun ev hev => ?_⟩
  exact (List.mem_append.mp hev).elim (hes' ev) (hes ev)

end Opened

theorem initSession_opened (server : Bool) (h : (s.initSession e server).1 = true) :
    Opened s (s.initSession e server).2 := by
  have hlog := s.freeSession_log
  have hnext : s.freeSession.nextSession = s.nextSession ∧ s.freeSession.outgoing = s.outgoing := by
    unfold freeSession
    split <;> exact ⟨rfl, rfl⟩
  unfold initSession at h ⊢
  split at h
  · cases h
  · rename_i hguard
    rw [if_neg hguard]
    generalize s.freeSession = u at hlog hnext h ⊢
    obtain ⟨hnext, hqueue⟩ := hnext
    dsimp only at h ⊢
    split at h
    · cases h
    · rename_i hmade
      rw [if_neg hmade]
      split at h
      · cases h
      · rename_i hattached
        rw [if_neg hattached]
        refine ⟨congr_arg some hnext, (unused_clearFlags (!server) u.ticked.newSession.ticked).of_recorded rfl, hqueue, [], ?_, by simp⟩
        show u.log ++ [.sslNew u.nextSession] = _
        rw [hlog, hnext]

theorem requireIdentity_kept (s : SslEventSocket) :
    (s.requireIdentity e).2.session = s.session ∧ (s.requireIdentity e).2.recorded = s.recorded ∧
      (s.requireIdentity e).2.outgoing = s.outgoing ∧
      ∃ es, (s.requireIdentity e).2.log = s.log ++ es ∧ ∀ ev ∈ es, ev.native = true := by
  have hset (identity : Option String) : ∃ es,
      s.log ++ [.sslVerify s.session identity] = s.log ++ es ∧ ∀ ev ∈ es, ev.native = true :=
    ⟨_, rfl, fun ev hev => List.mem_singleton.mp hev ▸ rfl⟩
  unfold requireIdentity
  split
  · dsimp only
    split
    · exact ⟨rfl, rfl, rfl, hset _⟩
    · exact ⟨rfl, rfl, rfl, [], (List.append_nil _).symm, by simp⟩
  · exact ⟨rfl, rfl, rfl, hset none⟩

theorem requestServerName_kept (identity : String) (s : SslEventSocket) :
    (s.requestServerName e identity).2.session = s.session ∧
      (s.requestServerName e identity).2.recorded = s.recorded ∧
      (s.requestServerName e identity).2.outgoing = s.outgoing ∧
      (s.requestServerName e identity).2.log = s.log := by
  unfold requestServerName
  split <;> exact ⟨rfl, rfl, rfl, rfl⟩

/-- `start_client` ends in a close or with a session that has just been made. -/
theorem startClient_ends (identity : String) (s : SslEventSocket) :
    (∃ u : SslEventSocket, (s.startClient e identity).2 = (u.close e).2) ∨
      Opened s (s.startClient e identity).2 := by
  have hrefuse (code : Int) (u : SslEventSocket) :
      ∃ v : SslEventSocket, (u.refuseClient e code).2 = (v.close e).2 := ⟨_, rfl⟩
  unfold startClient
  dsimp only
  split
  · exact .inl (hrefuse _ _)
  · have hmode := (Socket.unopened_setBlocking e.toHost false s.toSocket).1
    obtain ⟨t, ht⟩ : ∃ t : SslEventSocket, t = { s with
        expectedIdentity := identity
        toSocket := (s.toSocket.setBlocking e.toHost false).2 } := ⟨_, rfl⟩
    rw [← ht]
    split
    · exact .inl (hrefuse _ _)
    · have hmade := t.initSession_opened (e := e) false
      generalize t.initSession e false = made at hmade ⊢
      split
      · exact .inl (hrefuse _ _)
      · rename_i hdone
        have hopened : Opened s made.2 := by
          have hfrom := hmade (by simpa using hdone)
          rw [ht] at hfrom
          obtain ⟨es, hes, hnative⟩ := hfrom.log
          refine ⟨hfrom.session, hfrom.unused, hfrom.outgoing, es, ?_, hnative⟩
          rw [hes]
          show (s.toSocket.setBlocking e.toHost false).2.log ++ s.superseded ++ _ = _
          rw [hmode]
        obtain ⟨hlive, hrecorded, hqueue, es, hlog, hes⟩ := made.2.requireIdentity_kept (e := e)
        generalize made.2.requireIdentity e = named at hlive hrecorded hqueue hlog ⊢
        split
        · exact .inl (hrefuse _ _)
        · have hnamed := hopened.upTo es hlive hrecorded hqueue hlog hes
          obtain ⟨hlive', hrecorded', hqueue', hlog'⟩ :=
            named.2.requestServerName_kept (e := e) identity
          generalize named.2.requestServerName e identity = sni at hlive' hrecorded' hqueue' hlog' ⊢
          split
          · exact .inl (hrefuse _ _)
          · exact .inr (hnamed.upTo [] hlive' hrecorded' hqueue'
              (hlog'.trans (List.append_nil _).symm) (by simp))

/-- What an object looks like before anything has happened to its session, if it
has one. -/
structure Untouched (s : SslEventSocket) : Prop where
  unused : s.Unused
  outgoing : s.outgoing = {}
  log : ∀ ev ∈ s.log, ev.native = true ∨ ∃ id, ev = .sslNew id
  offline : s.session = none → s.needWrite = false ∧ s.connected = false

theorem adoptAccepted_starts (retained : Bool) (base : EventSocket) :
    (adoptAccepted e retained base).Unused ∧
      (adoptAccepted e retained base).outgoing = base.outgoing ∧
      ∃ es, (adoptAccepted e retained base).log = base.log ++ es ∧
        ∀ ev ∈ es, ∃ id, ev = .sslNew id := by
  have hstart {u : SslEventSocket} {es : List Event}
      (hrecorded : u.recorded = (({} : SslEventSocket).clearFlags false).recorded)
      (hqueue : u.outgoing = base.outgoing) (hlog : u.log = base.log ++ es)
      (hes : ∀ ev ∈ es, ∃ id, ev = .sslNew id) : u.Unused ∧ u.outgoing = base.outgoing ∧
        ∃ es, u.log = base.log ++ es ∧ ∀ ev ∈ es, ∃ id, ev = .sslNew id :=
    ⟨(unused_clearFlags false {}).of_recorded hrecorded, hqueue, es, hlog, hes⟩
  have hnone : base.log = base.log ++ [] := (List.append_nil _).symm
  have hone (ev : Event) (hev : ev ∈ [Event.sslNew 0]) : ∃ id, ev = .sslNew id :=
    ⟨0, List.mem_singleton.mp hev⟩
  unfold adoptAccepted
  dsimp only
  split
  · exact hstart rfl rfl hnone (by simp)
  · unfold initSession
    dsimp only
    split
    · exact hstart rfl rfl hnone (by simp)
    · split
      · exact hstart rfl rfl hnone (by simp)
      · split
        · exact hstart rfl rfl rfl hone
        · exact hstart rfl rfl rfl hone

/-- A new socket is not connected. -/
theorem construct_offline (h : Host) (tick : ℕ) :
    (EventSocket.construct h (.construct h tick)).connected = false := by
  have hbase : (Socket.construct h tick).connected = false := by
    unfold Socket.construct
    split
    · rfl
    · dsimp only
      split <;> rfl
  unfold EventSocket.construct
  split
  · exact hbase
  · have hmode : ((Socket.construct h tick).setBlocking h false).2.connected = false :=
      (Socket.aside_setBlocking h false _).connected.trans hbase
    dsimp only
    split
    · exact hmode
    · unfold Socket.close
      split
      · exact hmode
      · dsimp only
        split <;> rfl

end SslEventSocket

open SslEventSocket

/-- A TLS object that an application makes or is given is untouched. -/
theorem NewObject.untouched {e : NetHost} {s : SslEventSocket} (h : NewObject e (.tls s)) :
    s.Untouched := by
  generalize ho : EventObject.tls s = o at h
  cases h with
  | tcp | listener | udp | acceptedTcp => cases ho
  | tls ctx =>
    have hconstruct (ev : Event) (hev : ev ∈ (Socket.construct e.tls.toHost 0).log) :
        ev.native = true := by
      unfold Socket.construct at hev
      split at hev
      · cases hev
      · dsimp only at hev
        split at hev <;> rw [List.mem_singleton.mp hev] <;> rfl
    obtain ⟨hlog, hqueue⟩ := ObjectStep.construct_native e.tls.toHost _ hconstruct
    have hconn := construct_offline e.tls.toHost 0
    have hmade {u : SslEventSocket} (hsame : u.toEventSocket = .construct e.tls.toHost
        (.construct e.tls.toHost 0) ∨ u.toEventSocket = { EventSocket.construct e.tls.toHost
        (.construct e.tls.toHost 0) with errorCode := sslErrorInit })
        (hrecorded : u.recorded = (({} : SslEventSocket).clearFlags false).recorded)
        (hwrite : u.needWrite = false) : u.Untouched := by
      have hunused := (unused_clearFlags false {}).of_recorded hrecorded
      rcases hsame with hsame | hsame
      · refine ⟨hunused, ?_, fun ev hev => .inl (hlog ev ?_), fun _ => ⟨hwrite, ?_⟩⟩
        · rw [hsame, hqueue]
        · rwa [hsame] at hev
        · rw [hsame, hconn]
      · refine ⟨hunused, ?_, fun ev hev => .inl (hlog ev ?_), fun _ => ⟨hwrite, ?_⟩⟩
        · rw [hsame]
          exact hqueue
        · rwa [hsame] at hev
        · rw [hsame]
          exact hconn
    unfold EventLoop.newTls at ho
    rw [EventObject.tls.inj ho]
    split
    · exact hmade (.inl rfl) rfl rfl
    · exact hmade (.inr rfl) rfl rfl
  | @acceptedTls fd retained timeoutMs t ht =>
    obtain rfl := EventObject.tls.inj ho
    have hadopt (ev : Event) (hev : ev ∈ (Socket.adopt e.tls.toHost 0 fd).log) :
        ev.native = true := by
      unfold Socket.adopt at hev
      dsimp only at hev
      split at hev <;> cases hev
    obtain ⟨hnative, hqueue⟩ := ObjectStep.construct_native e.tls.toHost _ hadopt
    obtain ⟨hunused, hsame, es, hlog, hes⟩ := adoptAccepted_starts (e := e.tls) retained
      (.construct e.tls.toHost (.adopt e.tls.toHost 0 fd))
    unfold EventLoop.acceptedTls at ht
    dsimp only at ht
    generalize adoptAccepted e.tls retained
      (.construct e.tls.toHost (.adopt e.tls.toHost 0 fd)) = made at hunused hsame hlog ht
    have hkept : (made.setHandshakeTimeout e.tls timeoutMs).2.recorded = made.recorded ∧
        (made.setHandshakeTimeout e.tls timeoutMs).2.session = made.session ∧
        (made.setHandshakeTimeout e.tls timeoutMs).2.outgoing = made.outgoing ∧
        (made.setHandshakeTimeout e.tls timeoutMs).2.log = made.log := by
      unfold setHandshakeTimeout
      split
      · exact ⟨rfl, rfl, rfl, rfl⟩
      · dsimp only
        split <;> exact ⟨rfl, rfl, rfl, rfl⟩
    obtain ⟨hrecorded, hlive, hout, hlog'⟩ := hkept
    split at ht
    · cases ht
    · rename_i hguard
      split at ht
      · obtain rfl := Option.some.inj ht
        refine ⟨hunused.of_recorded hrecorded, ?_, fun ev hev => ?_, fun hnone => ?_⟩
        · exact hout.trans (hsame.trans hqueue)
        · have hmode := (Socket.unopened_setBlocking e.tls.toHost false
            (made.setHandshakeTimeout e.tls timeoutMs).2.toSocket).1
          have hev : ev ∈ (Socket.setBlocking e.tls.toHost false
            (made.setHandshakeTimeout e.tls timeoutMs).2.toSocket).2.log := hev
          rw [hmode, hlog', hlog, List.mem_append] at hev
          exact hev.imp (hnative ev) (hes ev)
        · have hnone : (made.setHandshakeTimeout e.tls timeoutMs).2.session = none := hnone
          exact absurd (by simp [hlive ▸ hnone]) hguard
      · cases ht

end Aeon
