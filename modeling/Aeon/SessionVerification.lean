import Aeon.SessionFrame
import Aeon.SessionPrograms

/-!
# Which identity an accepted handshake has verified

The mode is read when a session is configured, and once more when its handshake
is done.
-/

namespace Aeon

open Errno History EventLoop EventWorld

/-- The session of an accepted strict handshake was told whom to verify. -/
def Verified (pre : List Event) (e : Event) : Prop :=
  ∀ id, e.acceptsStrict id = true → ∃ identity, .sslVerify (some id) (some identity) ∈ pre

/-- Verification is not asked for during the handshake of a session that was
configured without. -/
def Unmixed (pre : List Event) (e : Event) : Prop :=
  ∀ id, e = .verifyMode (some id) true → .sslVerify (some id) none ∈ pre →
    ∃ e' ∈ pre, e'.completes id = true

namespace SslEventSocket

variable {e : TlsHost} {s t u : SslEventSocket}

/-- What holds of every object as long as the modes are not mixed: a client is
configured for the identity that was asked for, or else without verification,
and then it does not ask for it during the handshake. -/
structure Checked (s : SslEventSocket) : Prop where
  accepted : Always Verified s.log
  live : ∀ id, s.session = some id → s.serverSide = false →
    .sslVerify (some id) (some s.expectedIdentity) ∈ s.log ∨
      .sslVerify (some id) none ∈ s.log ∧ (s.verifyMode = .off ∨ s.tlsReady = true)

namespace Checked

theorem grows (h : Always Verified s.log) (hlog : Unaccepting s t) : Always Verified t.log := by
  obtain ⟨es, hes, hev⟩ := hlog
  rw [hes]
  refine h.append fun ev hmem pre id haccepts => ?_
  rw [hev ev hmem id] at haccepts
  cases haccepts

theorem tame (h : Checked s) (ht : Tame s t) : Checked t := by
  refine ⟨grows h.accepted ht.log, fun id hid hclient => ?_⟩
  obtain ⟨hlive, hready⟩ := ht.session id hid
  obtain ⟨es, hlog, -⟩ := ht.log
  rw [hlog, ht.expectedIdentity, ht.verifyMode, hready, List.mem_append, List.mem_append]
  rw [ht.serverSide] at hclient
  exact (h.live id hlive hclient).imp .inl fun hnone => ⟨.inl hnone.1, hnone.2⟩

theorem polled (h : Checked s) (ht : Polled s t) : Checked t := h.tame ht.toTame

theorem tacit (h : Checked s) (ht : Tacit s t) : Checked t := h.polled ht.polled

/-- A handshake that is accepted while the mode is strict was configured so. -/
theorem complete {id : ℕ} (h : Checked s) (hlive : s.session = some id)
    (hready : s.tlsReady = false) (verified : Bool) (answer : Option SslResult) (hlog : t.log = s.log ++
      [.handshake id true (!s.serverSide && s.verifyMode == .strict) verified answer,
        .notify (some id) .connect])
    (ht : (t.serverSide, t.expectedIdentity, t.session, t.tlsReady) =
      (s.serverSide, s.expectedIdentity, some id, true)) : Checked t := by
  simp only [Prod.mk.injEq] at ht
  obtain ⟨hserver, hidentity, hsession, hdone⟩ := ht
  refine ⟨?_, fun i hi hclient => ?_⟩
  · rw [hlog, ← List.singleton_append, ← List.append_assoc]
    refine (h.accepted.snoc fun i haccepts => ?_).snoc fun i haccepts => by cases haccepts
    simp only [Event.acceptsStrict, Bool.and_eq_true, decide_eq_true_eq, Bool.not_eq_true',
      beq_iff_eq] at haccepts
    obtain ⟨⟨⟨rfl, -⟩, hclient, hstrict⟩, -⟩ := haccepts
    rcases h.live id hlive hclient with hset | ⟨-, hoff | hearly⟩
    · exact ⟨_, hset⟩
    · rw [hoff] at hstrict
      cases hstrict
    · rw [hready] at hearly
      cases hearly
  · obtain rfl : id = i := by simpa using hsession.symm.trans hi
    rw [hlog, hidentity, List.mem_append, List.mem_append, hdone]
    exact (h.live id hlive (hserver ▸ hclient)).imp .inl fun hnone => ⟨.inl hnone.1, .inr rfl⟩

theorem handshakeStep {id : ℕ} (flags : Flags) (h : Checked s) (hlive : s.session = some id)
    (hready : s.tlsReady = false) : Checked (s.handshakeStep e id flags).2 := by
  unfold SslEventSocket.handshakeStep
  split
  · exact h.polled (.same rfl)
  · split
    · exact h
    · dsimp only
      by_cases hdone : (e.doHandshake s.tick).ret = 1
      · rw [if_pos hdone]
        split
        · rename_i hbad
          rw [Bool.and_eq_true, Bool.not_eq_true'] at hbad
          refine h.polled (.record (fun i => ?_) rfl rfl)
          simp [Event.acceptsStrict, hbad.2]
        · refine h.complete hlive hready (e.verifyOk s.tick) (some (e.doHandshake s.tick)) ?_ ?_
          · show s.log ++ [_] ++ [Event.notify s.session .connect] = _
            rw [hlive, List.append_assoc, decide_eq_true hdone]
            rfl
          · show (s.serverSide, s.expectedIdentity, s.session, true) = _
            rw [hlive]
      · have hopen (i : ℕ) : (Event.handshake id (decide ((e.doHandshake s.tick).ret = 1))
            (!s.serverSide && s.verifyMode == .strict) (e.verifyOk s.tick)
              (some (e.doHandshake s.tick))).acceptsStrict i =
              false := by
          simp [Event.acceptsStrict, hdone]
        rw [if_neg hdone]
        split
        · exact h.polled (.record hopen rfl rfl)
        · split
          · exact h.polled (.record hopen rfl rfl)
          · split <;> exact h.polled (.record hopen rfl rfl)

theorem pollStep (flags : Flags) (h : Checked s) : Checked (s.pollStep e flags).2 := by
  unfold SslEventSocket.pollStep
  split
  · exact h.polled (.same rfl)
  · rename_i id hlive
    split
    · split
      · exact h.tacit (.shutdownStep id flags s)
      · split
        · exact h.polled (.same rfl)
        · exact h
    · rename_i hready
      dsimp only
      have hnow : Checked (s.clock e).2 := h.polled (.same rfl)
      split
      · exact h.polled (.same rfl)
      · have hearly : s.tlsReady = false := by simpa using hready
        exact hnow.handshakeStep flags hlive hearly

theorem setPeerVerification (mode : SslVerifyMode) (h : Checked s) (hready : s.view.HandshakeInv)
    (hunmixed : Unmixed s.log (.verifyMode s.session (mode == .strict))) :
    Checked (s.setPeerVerification mode) := by
  refine ⟨h.accepted.snoc fun id haccepts => Bool.noConfusion haccepts,
    fun id hlive hclient => ?_⟩
  have hadded (ev : Event) (hev : ev ∈ s.log) : ev ∈ (s.setPeerVerification mode).log :=
    List.mem_append_left _ hev
  refine (h.live id hlive hclient).imp (hadded _) fun ⟨hnone, _⟩ => ⟨hadded _ hnone, ?_⟩
  cases mode with
  | off => exact .inl rfl
  | strict =>
    have hsession : s.session = some id := hlive
    obtain ⟨ev, hev, hdone⟩ := hunmixed id (by rw [hsession]; rfl) hnone
    have hcount := hready.counted id hsession
    refine .inr (Bool.not_eq_false _ |>.mp fun hopen => ?_)
    have hopen : s.view.ready = false := hopen
    rw [hopen, if_neg Bool.false_ne_true, List.countP_eq_zero] at hcount
    exact hcount ev hev hdone

end Checked

theorem initSession_unaccepting (server : Bool) (s : SslEventSocket) :
    Unaccepting s (s.initSession e server).2 ∧
      (s.initSession e server).2.serverSide = s.serverSide ∧
      (s.initSession e server).2.expectedIdentity = s.expectedIdentity := by
  obtain ⟨-, hfreed, hserver, -, hidentity⟩ := s.freeSession_none
  unfold initSession
  split
  · exact ⟨.refl s, rfl, rfl⟩
  · generalize s.freeSession = t at hfreed hserver hidentity ⊢
    have hmade : Unaccepting s t.ticked.newSession := hfreed.trans (.one rfl fun _ => rfl)
    dsimp only
    split
    · exact ⟨hfreed.upTo rfl, hserver, hidentity⟩
    · split
      · exact ⟨hmade.upTo rfl, hserver, hidentity⟩
      · exact ⟨hmade.upTo rfl, hserver, hidentity⟩

/-- The verification parameters that a session gets. -/
theorem requireIdentity_sets (s : SslEventSocket) :
    Unaccepting s (s.requireIdentity e).2 ∧ (s.requireIdentity e).2.session = s.session ∧
      (s.requireIdentity e).2.expectedIdentity = s.expectedIdentity ∧
      ((s.requireIdentity e).1 = true →
        .sslVerify s.session (some s.expectedIdentity) ∈ (s.requireIdentity e).2.log ∨
        .sslVerify s.session none ∈ (s.requireIdentity e).2.log ∧
          (s.requireIdentity e).2.verifyMode = .off) := by
  unfold requireIdentity
  split
  · dsimp only
    split
    · refine ⟨.one rfl fun _ => rfl, rfl, rfl, fun _ => .inl ?_⟩
      exact List.mem_append_right _ (List.mem_singleton_self _)
    · rename_i hset
      exact ⟨.refl s, rfl, rfl, fun h => absurd h hset⟩
  · rename_i hmode
    refine ⟨.one rfl fun _ => rfl, rfl, rfl, fun _ => .inr ⟨?_, ?_⟩⟩
    · exact List.mem_append_right _ (List.mem_singleton_self _)
    · show s.verifyMode = .off
      cases hm : s.verifyMode with
      | off => rfl
      | strict => exact absurd (by rw [hm]; rfl) hmode

theorem requestServerName_aspects (identity : String) (s : SslEventSocket) :
    (s.requestServerName e identity).2.aspects = s.aspects := by
  unfold requestServerName
  split <;> rfl

/-- A session that `start_client` leaves is a new one, configured for the
identity that it was given or without verification. -/
theorem startClient_configures (identity : String) (s : SslEventSocket) :
    Unaccepting s (s.startClient e identity).2 ∧
      (s.startClient e identity).2.expectedIdentity = identity ∧
      ∀ id, (s.startClient e identity).2.session = some id →
        .sslVerify (some id) (some identity) ∈ (s.startClient e identity).2.log ∨
        .sslVerify (some id) none ∈ (s.startClient e identity).2.log ∧
          (s.startClient e identity).2.verifyMode = .off := by
  have hrefuse {code : Int} {t : SslEventSocket} (ht : Unaccepting s t)
      (hidentity : t.expectedIdentity = identity) :
      Unaccepting s (t.refuseClient e code).2 ∧
        (t.refuseClient e code).2.expectedIdentity = identity ∧
        ∀ id, (t.refuseClient e code).2.session = some id →
          .sslVerify (some id) (some identity) ∈ (t.refuseClient e code).2.log ∨
          .sslVerify (some id) none ∈ (t.refuseClient e code).2.log ∧
            (t.refuseClient e code).2.verifyMode = .off := by
    obtain ⟨hnone, hclosed⟩ := (t.setError code).close_none (e := e)
    refine ⟨ht.trans (Unaccepting.trans (.refl t) hclosed.log),
      hclosed.expectedIdentity.trans hidentity, fun id hid => ?_⟩
    exact absurd (hnone.symm.trans hid) (by simp)
  unfold SslEventSocket.startClient
  dsimp only
  split
  · exact hrefuse (.refl s) rfl
  · obtain ⟨t, ht⟩ : ∃ t : SslEventSocket, t = { s with
        expectedIdentity := identity
        toSocket := (s.toSocket.setBlocking e.toHost false).2 } := ⟨_, rfl⟩
    have hmode : Unaccepting s t :=
      ⟨[], by simp [ht, (Socket.unopened_setBlocking e.toHost false s.toSocket).1], by simp⟩
    have hgiven : t.expectedIdentity = identity := by rw [ht]
    rw [← ht]
    split
    · exact hrefuse hmode hgiven
    · obtain ⟨hmade, -, hkept⟩ := t.initSession_unaccepting (e := e) false
      have hkept := hkept.trans hgiven
      generalize t.initSession e false = made at hmade hkept ⊢
      split
      · exact hrefuse (hmode.trans hmade) hkept
      · obtain ⟨hset, hlive, hidentity, hsets⟩ := made.2.requireIdentity_sets (e := e)
        have hidentity := hidentity.trans hkept
        generalize made.2.requireIdentity e = named at hset hlive hidentity hsets ⊢
        split
        · exact hrefuse ((hmode.trans hmade).trans hset) hidentity
        · rename_i hnamed
          have hsni := named.2.requestServerName_aspects (e := e) identity
          generalize named.2.requestServerName e identity = sni at hsni ⊢
          simp only [aspects, Prod.mk.injEq] at hsni
          obtain ⟨-, hmode', hidentity', hlive', -, -, hlog⟩ := hsni
          have hgrown := ((hmode.trans hmade).trans hset).upTo hlog
          split
          · exact hrefuse hgrown (hidentity'.trans hidentity)
          · refine ⟨hgrown.upTo rfl, hidentity'.trans hidentity, fun id hid => ?_⟩
            have hid : sni.2.session = some id := hid
            rw [hlive', hlive] at hid
            rw [hid, hkept] at hsets
            show .sslVerify (some id) (some identity) ∈ sni.2.log ∨
              .sslVerify (some id) none ∈ sni.2.log ∧ sni.2.verifyMode = .off
            rw [hlog, hmode']
            exact hsets (by simpa using hnamed)

theorem Checked.startClient (identity : String) (h : Checked s) :
    Checked (s.startClient e identity).2 := by
  obtain ⟨hlog, hidentity, hset⟩ := s.startClient_configures (e := e) identity
  refine ⟨grows h.accepted hlog, fun id hid _ => ?_⟩
  rw [hidentity]
  exact (hset id hid).imp_right fun hnone => ⟨hnone.1, .inl hnone.2⟩

end SslEventSocket

open SslEventSocket

/-- As long as the modes are not mixed, a TLS object is as it should be. -/
def EventObject.Verifying : EventObject → Prop
  | .tls s => s.view.Reachable ∧ (Always Unmixed s.log → s.Checked)
  | _ => True

namespace ObjectStep

variable {e : NetHost} {o o' : EventObject}

/-- Unless it mixes the modes, whatever happens to a TLS object leaves it checked. -/
theorem checked {s t : SslEventSocket} (h : ObjectStep e (.tls s) (.tls t))
    (hs : s.view.Reachable) (hchecked : s.Checked) (hunmixed : Always Unmixed t.log) :
    t.Checked := by
  have htame {t : SslEventSocket} (ht : Tame s t) : t.Checked := hchecked.tame ht
  have hpolled {t : SslEventSocket} (ht : Polled s t) : t.Checked := hchecked.polled ht
  have htacit {t : SslEventSocket} (ht : Tacit s t) : t.Checked := hchecked.tacit ht
  generalize ho : EventObject.tls t = o' at h
  have hsame {u : SslEventSocket} (hu : EventObject.tls u = o') : t = u :=
    EventObject.tls.inj (ho.trans hu.symm)
  cases h with
  | same => exact hsame rfl ▸ hchecked
  | socket f hf => exact hsame rfl ▸ htame (.onSocket hf.silent s)
  | create family f hf =>
    refine hsame rfl ▸ htame (.onSocket (fun u => ?_) s)
    obtain ⟨es, hes, hlog⟩ := Socket.silent_create e.tls.toHost family u
    exact ⟨es, hes, (hf u).1.trans hlog⟩
  | closeBase => exact hsame rfl ▸ htame (.onSocket (Socket.silent_close e.tls.toHost) s)
  | close => exact hsame rfl ▸ htame s.close_none.2
  | pollHasBufferedInput => exact hsame rfl ▸ htacit (.pollHasBufferedInput s)
  | pollTimeoutMs => exact hsame rfl ▸ htacit (.pollTimeoutMs s)
  | pollStep flags => exact hsame rfl ▸ hchecked.pollStep flags
  | pollReceive =>
    unfold EventObject.pollReceive at ho
    dsimp only at ho
    split at ho
    · exact EventObject.tls.inj ho ▸ hpolled (Polled.trans (Tacit.pollReceive _ s).polled (.record (fun _ => rfl) rfl rfl))
    · exact EventObject.tls.inj ho ▸ htacit (.pollReceive _ s)
  | flushQueued =>
    unfold EventObject.flushQueued at ho
    dsimp only at ho
    split at ho
    · exact EventObject.tls.inj ho ▸ hpolled
        (Polled.trans (Tacit.flushQueued _ s).polled (.record (fun _ => rfl) rfl rfl))
    · exact EventObject.tls.inj ho ▸ htacit (.flushQueued _ s)
  | fail code => exact hsame rfl ▸ hpolled (.record (fun _ => rfl) rfl rfl)
  | datagramFrom n sender => exact hsame rfl ▸ hchecked
  | exec c =>
    cases c with
    | set setter => exact hsame rfl ▸ htame (.onSocket (Socket.unopened_run _ setter).silent s)
    | read c =>
      cases c with
      | buffer given size => exact hsame rfl ▸ htacit (.readBuffer given size s)
      | line given size => exact hsame rfl ▸ htacit (.readLine given size s)
      | «until» given size => exact hsame rfl ▸ htacit (.readLine given size s)
      | internal => exact hsame rfl ▸ htacit (.readBuffer true _ s)
      | string size => exact hsame rfl ▸ htacit (.readString size s)
      | shift => exact hsame rfl ▸ htacit (.readString _ s)
    | queueWrite data => exact hsame rfl ▸ htacit (.queueWrite data s)
    | setMaxQueuedBytes limit => exact hsame rfl ▸ hpolled (.same rfl)
    | setCaFile path => exact hsame rfl ▸ htacit (.setCaFile path s)
    | setPeerVerification mode =>
      obtain rfl := hsame (u := s.setPeerVerification mode) rfl
      exact hchecked.setPeerVerification mode hs.handshakeInv (Always.snoc_iff.mp hunmixed).2
    | setAllowSelfSigned enabled => exact hsame rfl ▸ hpolled (.same rfl)
    | setHandshakeTimeout ms => exact hsame rfl ▸ htacit (.setHandshakeTimeout ms s)
    | beginGracefulShutdown ms => exact hsame rfl ▸ htacit (.beginGracefulShutdown ms s)
  | directWrite data =>
    unfold EventObject.directWrite at ho
    dsimp only at ho
    split at ho
    · exact EventObject.tls.inj ho ▸ hpolled
        (Polled.trans (Tacit.sendTls data false s).polled (.record (fun _ => rfl) rfl rfl))
    · exact EventObject.tls.inj ho ▸ htacit (Tacit.trans (.sendTls data false s) (.same rfl rfl))
  | notifyWrite data n => exact hsame rfl ▸ hpolled (.record (fun _ => rfl) rfl rfl)
  | startClient identity => exact hsame rfl ▸ hchecked.startClient identity
  | closeOwnedPeers => exact hsame rfl ▸ hchecked
  | onUdp f other => exact hsame rfl ▸ hchecked

/-- A new object has accepted nothing, and is no client with a session. -/
theorem new_verifying (h : NewObject e o) : o.Verifying := by
  have hmodelled := new_modelled h
  have hnative {log : List Event} (hlog : ∀ ev ∈ log, ev.native = true) : Always Verified log := by
    rw [← List.nil_append log]
    refine Always.append .nil fun ev hev pre id haccepts => ?_
    rw [Event.acceptsStrict_native (hlog ev hev)] at haccepts
    cases haccepts
  rcases new_cases h with hcls | ⟨base, hlog, -, ⟨s, ctx, rfl, hview⟩ | ⟨retained, ms, rfl⟩⟩
  · cases o with
    | tls s => exact absurd rfl hcls
    | _ => trivial
  · refine ⟨hmodelled, fun _ => ⟨?_, fun id hid => ?_⟩⟩
    · rw [show s.log = base.log from congr_arg Session.log hview]
      exact hnative hlog
    · have hnone : s.session = none := congr_arg Session.live hview
      exact absurd (hnone.symm.trans hid) (by simp)
  · refine ⟨hmodelled, fun _ => ?_⟩
    have hadopted : Always Verified (adoptAccepted e.tls retained base).log ∧
        (adoptAccepted e.tls retained base).serverSide = true := by
      unfold adoptAccepted
      dsimp only
      split
      · exact ⟨hnative hlog, rfl⟩
      · obtain ⟨hmade, hserver, -⟩ := initSession_unaccepting (e := e.tls) true
          { toEventSocket := base, serverSide := true, verifyMode := .off, hasCtx := retained }
        split <;> exact ⟨Checked.grows (hnative hlog) hmade, hserver⟩
    have hchecked : (adoptAccepted e.tls retained base).Checked :=
      ⟨hadopted.1, fun id _ hclient => absurd (hadopted.2.symm.trans hclient) (by simp)⟩
    exact (hchecked.tacit (.setHandshakeTimeout ms _)).tame
      (.onSocket (Socket.unopened_setBlocking e.tls.toHost false).silent _)

theorem verifying (h : ObjectStep e o o') (ho : o.Verifying) : o'.Verifying := by
  cases o with
  | tls s =>
    obtain ⟨hs, hchecked⟩ := ho
    obtain ⟨t, rfl, hsteps⟩ := h.tls_steps hs.sound
    refine ⟨hs.steps hsteps, fun hunmixed => h.checked hs (hchecked ?_) hunmixed⟩
    obtain ⟨es, hlog⟩ := hsteps.extends
    have hlog : t.log = s.log ++ es := hlog
    exact (hlog ▸ hunmixed).of_append
  | _ =>
    cases o' with
    | tls s => cases h.cls
    | _ => trivial

end ObjectStep

section Programs

variable {h : LoopHost} {fuel id : ℕ} {w : EventWorld} {s : SslEventSocket}

/-- Every session that a strict client accepts was configured for an identity,
and one that it may still accept for the identity last asked for, which is the one
that `connect` was given. -/
structure IdentityChecked (s : SslEventSocket) : Prop where
  accepted : Always Verified s.log
  pending : ∀ id, s.session = some id → s.serverSide = false → s.verifyMode = .strict →
    s.tlsReady = false → .sslVerify (some id) (some s.expectedIdentity) ∈ s.log
  asked : ∀ (e : TlsHost) (identity : String), (s.startClient e identity).2.expectedIdentity = identity

/-- Unless verification is switched on during the handshake of a session that was
configured without, a strict client accepts no other host. -/
theorem identity_checked (hw : Reaches h fuel w) (hs : w.find id = some (.tls s))
    (hunmixed : Always Unmixed s.log) : IdentityChecked s := by
  have hverifying : (EventObject.tls s).Verifying :=
    hw.each (fun _ _ => ObjectStep.new_verifying) (fun _ _ _ => ObjectStep.verifying) hs
  have hchecked := hverifying.2 hunmixed
  refine ⟨hchecked.accepted, fun i hlive hclient hstrict hearly => ?_,
    fun e identity => (s.startClient_configures (e := e) identity).2.1⟩
  refine (hchecked.live i hlive hclient).resolve_right fun ⟨_, hoff⟩ => ?_
  rw [hstrict, hearly] at hoff
  exact hoff.elim (by simp) (by simp)

/-- What a session is told to verify of its peer: an identity, or nothing. -/
def Event.verification : Event → Option (Option String)
  | .sslVerify _ identity => some identity
  | _ => none

/-- The mode is set again once the handshake is done. -/
theorem identity_checked_strict : ∃ s,
    (after stalledHost 1 (connected ++ [.call 0 (.setPeerVerification .strict)])).find 0 =
      some (.tls s) ∧ .handshake 0 true true true (some { ret := 1 }) ∈ s.log ∧ IdentityChecked s := by
  obtain ⟨s, hs, hp⟩ := exists_of_tlsIs 0
    (p := fun s => s.log.contains (.handshake 0 true true true (some { ret := 1 })) &&
      s.log.all fun ev => ev.verification.all Option.isSome)
    (w := after stalledHost 1 (connected ++ [.call 0 (.setPeerVerification .strict)]))
    (by decide +kernel)
  rw [Bool.and_eq_true, List.contains_iff_mem, List.all_eq_true] at hp
  refine ⟨s, hs, hp.1, identity_checked (reaches_after _ _ _) hs fun pre ev post hlog id _ hnone => ?_⟩
  exact Bool.noConfusion (hp.2 (.sslVerify (some id) none) (hlog ▸ List.mem_append_left _ hnone))

/-- Verification is off when the client connects, and strict when the handshake is done. -/
theorem identity_unchecked : ¬ ∀ (h : LoopHost) (fuel id : ℕ) (w : EventWorld)
    (s : SslEventSocket), Reaches h fuel w → w.find id = some (.tls s) → IdentityChecked s := by
  intro hall
  obtain ⟨s, hs, hp⟩ := exists_of_tlsIs 0
    (p := fun s => s.log.contains (.handshake 0 true true true (some { ret := 1 })) &&
      s.log.all fun ev => ev.verification.all Option.isNone)
    (w := after stalledHost 1 [.createTls true, .call 0 (.setPeerVerification .off),
      .connectTls 0 (.host (some "peer") 443), .call 0 (.setPeerVerification .strict),
      .add (some 0), .poll 0]) (by decide +kernel)
  rw [Bool.and_eq_true, List.contains_iff_mem, List.all_eq_true] at hp
  obtain ⟨pre, post, hlog⟩ := List.append_of_mem hp.1
  have hverified := (hall _ _ _ _ s (reaches_after _ _ _) hs).accepted pre _ post hlog
  obtain ⟨identity, hset⟩ := hverified 0 rfl
  exact Bool.noConfusion
    (hp.2 (.sslVerify (some 0) (some identity)) (hlog ▸ List.mem_append_left _ hset))

end Programs

end Aeon
