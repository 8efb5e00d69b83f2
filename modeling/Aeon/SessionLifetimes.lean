import Aeon.FailurePrograms
import Aeon.SslLifetimes

/-!
# The sessions of an event object

The functions of `ssl_event_socket` follow the one `SSL` object that it has room
for, as those of the blocking socket do, and so does everything that a program
or `poll` runs on it, its destructor's last close apart.
-/

namespace Aeon

open Lifetimes

namespace SslEventSocket

variable {e : TlsHost} {s t u : SslEventSocket}

def trail (s : SslEventSocket) : Trail := ⟨s.log, s.session, s.nextSession⟩

/-- The object goes on from `s` to `t`, and makes sessions only if it has a context. -/
structure Follows (s t : SslEventSocket) : Prop where
  trail : Trail.Grows (s.hasCtx = true) s.trail t.trail
  hasCtx : t.hasCtx = s.hasCtx

namespace Follows

theorem refl (s : SslEventSocket) : Follows s s := ⟨.refl _, rfl⟩

theorem trans (hst : Follows s t) (htu : Follows t u) : Follows s u :=
  ⟨hst.trail.trans (htu.trail.mono fun h => hst.hasCtx ▸ h), htu.hasCtx.trans hst.hasCtx⟩

theorem same (htrail : t.trail = s.trail) (hctx : t.hasCtx = s.hasCtx) : Follows s t :=
  ⟨.same htrail, hctx⟩

theorem idle (ev : Event) (hidle : ev.lifetime = .idle) (htrail : t.trail = (s.record ev).trail)
    (hctx : t.hasCtx = s.hasCtx) : Follows s t := by
  have hslot : t.trail.slot = (s.record ev).trail.slot := congr_arg Trail.slot htrail
  exact ⟨.idle ev (congr_arg Trail.log htrail) hslot hidle, hctx⟩

theorem use {id : ℕ} (hlive : s.session = some id) (ev : Event) (huse : ev.lifetime = .use id)
    (htrail : t.trail = (s.record ev).trail) (hctx : t.hasCtx = s.hasCtx) : Follows s t := by
  have hslot : t.trail.slot = (s.record ev).trail.slot := congr_arg Trail.slot htrail
  exact ⟨.use ev (congr_arg Trail.log htrail) hslot huse hlive, hctx⟩

theorem base {b : Socket} (hb : b.log = s.log) : Follows s { s with toSocket := b } :=
  .same (congr_arg (Trail.mk · _) hb) rfl

theorem sendAlert (s : SslEventSocket) : Follows s s.sendAlert := by
  unfold SslEventSocket.sendAlert
  split
  · exact .refl s
  · rename_i id hlive
    split
    · exact .use hlive (.sslShutdown id .close s.pendingWriteLen none) rfl rfl rfl
    · exact .refl s

theorem freeSession (s : SslEventSocket) : Follows s s.freeSession ∧ s.freeSession.session = none := by
  unfold SslEventSocket.freeSession
  split
  · exact ⟨.refl s, ‹_›⟩
  · rename_i id hlive
    exact ⟨⟨.free rfl hlive rfl, rfl⟩, rfl⟩

theorem closeBase (hnone : s.session = none) :
    Follows s { s with toSocket := (s.toSocket.close e.toHost).2 } :=
  ⟨.close e.toHost s.toSocket rfl rfl hnone rfl, rfl⟩

theorem close (s : SslEventSocket) : Follows s (s.close e).2 ∧ (s.close e).2.session = none := by
  obtain ⟨hfreed, hnone⟩ := freeSession s.sendAlert
  have hidle := (sendAlert s).trans hfreed
  unfold SslEventSocket.close
  dsimp only
  generalize s.sendAlert.freeSession = t at hidle hnone
  have hclosed : Follows s { t.clearFlags false with
      toEventSocket := ((t.clearFlags false).toEventSocket.close e.toHost).2 } := by
    refine hidle.trans ⟨.close e.toHost t.toSocket rfl ?_ hnone rfl, rfl⟩
    rfl
  have hdone : Follows s ({ t.clearFlags false with
      toEventSocket := ((t.clearFlags false).toEventSocket.close e.toHost).2 }.record
      (.discarded s.session)) := hclosed.trans (.idle _ rfl rfl rfl)
  split
  · exact ⟨hdone.trans (.idle (.notify s.session .close) rfl rfl rfl), hnone⟩
  · exact ⟨hdone, hnone⟩

theorem refuseClient (code : Int) (s : SslEventSocket) : Follows s (s.refuseClient e code).2 := by
  have herror : Follows s (s.setError code) := .same rfl rfl
  exact herror.trans (close (s.setError code)).1

theorem initSession (server : Bool) (s : SslEventSocket) : Follows s (s.initSession e server).2 := by
  unfold SslEventSocket.initSession
  split
  · exact .refl s
  · rename_i hready
    rw [Bool.or_eq_true, not_or, Bool.not_eq_true', Bool.not_eq_false] at hready
    obtain ⟨hfreed, hnone⟩ := freeSession s
    dsimp only
    generalize s.freeSession = t at hfreed hnone
    have hctx : t.hasCtx = true := hfreed.hasCtx.trans hready.1
    have hmade : Follows s t.ticked.newSession :=
      hfreed.trans ⟨.create rfl hnone rfl rfl hctx, rfl⟩
    split
    · exact hfreed.trans (.same rfl rfl)
    · split
      · exact hmade.trans (.same rfl rfl)
      · exact hmade.trans (.same rfl rfl)

theorem requireIdentity (s : SslEventSocket) : Follows s (s.requireIdentity e).2 := by
  have hverify (u : SslEventSocket) (identity : Option String) (hsession : u.session = s.session)
      (htrail : u.trail = (s.record (.sslVerify s.session identity)).trail)
      (hctx : u.hasCtx = s.hasCtx) : Follows s u := by
    cases hlive : s.session with
    | none =>
      rw [hlive] at htrail
      exact .idle _ rfl htrail hctx
    | some id =>
      rw [hlive] at htrail
      exact .use hlive _ rfl htrail hctx
  unfold SslEventSocket.requireIdentity
  split
  · dsimp only
    split
    · exact hverify _ _ rfl rfl rfl
    · exact .same rfl rfl
  · exact hverify _ _ rfl rfl rfl

theorem requestServerName (identity : String) (s : SslEventSocket) :
    Follows s (s.requestServerName e identity).2 := by
  unfold SslEventSocket.requestServerName
  split
  · exact .refl s
  · exact .same rfl rfl

theorem startClient (identity : String) (s : SslEventSocket) :
    Follows s (s.startClient e identity).2 := by
  unfold SslEventSocket.startClient
  dsimp only
  have hasked : Follows s { s with expectedIdentity := identity } := .same rfl rfl
  split
  · exact hasked.trans (refuseClient _ _)
  · have hmode : Follows s { s with
        expectedIdentity := identity
        toSocket := (s.toSocket.setBlocking e.toHost false).2 } :=
      hasked.trans (.base (Socket.aside_setBlocking e.toHost false s.toSocket).log)
    generalize ({ s with
      expectedIdentity := identity
      toSocket := (s.toSocket.setBlocking e.toHost false).2 } : SslEventSocket) = t at hmode
    split
    · exact hmode.trans (refuseClient _ _)
    · have hmade := hmode.trans (initSession (e := e) false t)
      generalize t.initSession e false = made at hmade
      split
      · exact hmade.trans (refuseClient _ _)
      · have hnamed := hmade.trans (requireIdentity (e := e) made.2)
        generalize made.2.requireIdentity e = named at hnamed
        split
        · exact hnamed.trans (refuseClient _ _)
        · have hsni := hnamed.trans (requestServerName (e := e) identity named.2)
          split
          · exact hsni.trans (refuseClient _ _)
          · exact hsni.trans (.same rfl rfl)

theorem callShutdown {id : ℕ} (flags : Flags) (hlive : s.session = some id) :
    Follows s (s.callShutdown e id flags).2 := by
  have hcalled (u : SslEventSocket)
      (htrail : u.trail = (s.record (.sslShutdown id .pollStep s.pendingWriteLen (some (e.sslShutdown s.tick)))).trail)
      (hctx : u.hasCtx = s.hasCtx) : Follows s u := .use hlive _ rfl htrail hctx
  unfold SslEventSocket.callShutdown
  dsimp only
  split
  · exact hcalled _ rfl rfl
  · split
    · exact hcalled _ rfl rfl
    · split
      · split <;> exact hcalled _ rfl rfl
      · split <;> exact hcalled _ rfl rfl

theorem shutdownStep {id : ℕ} (flags : Flags) (hlive : s.session = some id) :
    Follows s (s.shutdownStep e id flags).2 := by
  unfold SslEventSocket.shutdownStep
  dsimp only
  have hnow : Follows s (s.clock e).2 := .same rfl rfl
  split
  · exact .same rfl rfl
  · split
    · split <;> exact .same rfl rfl
    · split
      · exact hnow
      · split
        · exact hnow
        · split
          · exact hnow
          · exact hnow.trans (callShutdown flags hlive)

theorem handshakeStep {id : ℕ} (flags : Flags) (hlive : s.session = some id) :
    Follows s (s.handshakeStep e id flags).2 := by
  unfold SslEventSocket.handshakeStep
  split
  · exact .same rfl rfl
  · split
    · exact .refl s
    · dsimp only
      have hshaken (done strict verified : Bool) (answer : Option SslResult) (u : SslEventSocket)
          (htrail : u.trail = (s.record (.handshake id done strict verified answer)).trail)
          (hctx : u.hasCtx = s.hasCtx) : Follows s u := .use hlive _ rfl htrail hctx
      split
      · split
        · exact hshaken _ _ _ _ _ rfl rfl
        · refine Follows.trans (t := { s.ticked.record (.handshake id _ _ _ _) with
            tlsReady := true, needWrite := false }.setError errNone) ?_ (.idle _ rfl rfl rfl)
          exact hshaken _ _ _ _ _ rfl rfl
      · split
        · exact hshaken _ _ _ _ _ rfl rfl
        · split
          · exact hshaken _ _ _ _ _ rfl rfl
          · split <;> exact hshaken _ _ _ _ _ rfl rfl

theorem pollStep (flags : Flags) (s : SslEventSocket) : Follows s (s.pollStep e flags).2 := by
  unfold SslEventSocket.pollStep
  split
  · exact .same rfl rfl
  · rename_i id hlive
    split
    · split
      · exact shutdownStep flags hlive
      · split
        · exact .same rfl rfl
        · exact .refl s
    · dsimp only
      have hnow : Follows s (s.clock e).2 := .same rfl rfl
      split
      · exact .same rfl rfl
      · exact hnow.trans (handshakeStep flags hlive)

theorem pollReceive (room : ℕ) (s : SslEventSocket) : Follows s (s.pollReceive e room).2 := by
  unfold SslEventSocket.pollReceive
  dsimp only
  split
  · exact .same rfl rfl
  · rename_i id hlive
    split
    · exact .same rfl rfl
    · have hread (u : SslEventSocket)
          (htrail : u.trail = (s.record (.sslRead id (e.sslRead s.tick room) s.directRetry)).trail)
          (hctx : u.hasCtx = s.hasCtx) : Follows s u := .use hlive _ rfl htrail hctx
      split
      · exact hread _ rfl rfl
      · split
        · split <;> exact hread _ rfl rfl
        · split <;> exact hread _ rfl rfl

theorem afterWrite (data : List UInt8) (queued : Bool) (answer : SslResult) (s : SslEventSocket) :
    Follows s (s.afterWrite data queued answer).2 := by
  unfold SslEventSocket.afterWrite
  split
  · exact .same rfl rfl
  · split
    · dsimp only
      split <;> exact .same rfl rfl
    · exact .same rfl rfl

theorem sendTls (data : List UInt8) (queued : Bool) (s : SslEventSocket) :
    Follows s (s.sendTls e data queued).2 := by
  rcases s.sendTls_cases (e := e) data queued with
    ⟨he, -⟩ | ⟨he, -⟩ | ⟨he, -⟩ | ⟨id, requested, hlive, -, -, -, -, -, -, he⟩
  · exact he ▸ .same rfl rfl
  · exact he ▸ .refl s
  · exact he ▸ .idle _ rfl rfl rfl
  · rw [he]
    have hsent (ev : Event) (huse : ev.lifetime = .use id) : Follows s (s.ticked.record ev) :=
      .use hlive ev huse rfl rfl
    exact (hsent _ rfl).trans (afterWrite _ _ _ _)

theorem queueWrite (data : Option (List UInt8)) (s : SslEventSocket) :
    Follows s (s.queueWrite data).2 := by
  have hqueue := EventSocket.queueWrite_toSocket (!s.shutdownRequested) data s.toEventSocket
  have hkept : Follows s { s with
      toEventSocket := (s.toEventSocket.queueWrite (!s.shutdownRequested) data).2 } :=
    .same (congr_arg (fun b : Socket => Trail.mk b.log _) hqueue) rfl
  unfold SslEventSocket.queueWrite
  dsimp only
  split
  · exact hkept.trans (.idle _ rfl rfl rfl)
  · exact hkept

theorem flushQueued (budget : ℕ) (s : SslEventSocket) : Follows s (s.flushQueued e budget).2 := by
  have hsent := flushQueued_keeps (t := transport e) (I := Follows s)
    (fun data t ht => ht.trans (sendTls data true t)) budget s.toEventSocket s (.refl s)
  unfold SslEventSocket.flushQueued flushed
  dsimp only
  split
  · exact hsent.trans (.idle _ rfl rfl rfl)
  · exact hsent.trans (.same rfl rfl)

theorem beginGracefulShutdown (timeoutMs : Int) (s : SslEventSocket) :
    Follows s (s.beginGracefulShutdown e timeoutMs).2 := by
  unfold SslEventSocket.beginGracefulShutdown
  split
  · exact .same rfl rfl
  · split
    · exact .refl s
    · exact .same rfl rfl

/-- What the object does follows its session. -/
theorem upheld (s : SslEventSocket) : Upheld e (fun _ => True) (Follows s) where
  base _ _ hb ht := ht.trans (.base hb.log)
  notice _ n _ ht := ht.trans (.idle (.notify _ n) rfl rfl rfl)
  settings _ _ _ _ _ ht := ht.trans (.same rfl rfl)
  modeChanged _ ht := ht.trans (.idle _ rfl rfl rfl)
  setMaxQueuedBytes t limit ht := by
    refine ht.trans (.same ?_ rfl)
    rfl
  close t ht := ht.trans (close t).1
  pollStep flags t ht := ht.trans (pollStep flags t)
  pollReceive t room ht := ht.trans (pollReceive room t)
  sendTls data t ht := ht.trans (sendTls data false t)
  queueWrite data t _ ht := ht.trans (queueWrite data t)
  flushQueued t _ ht := ht.trans (flushQueued sendBudget t)
  beginGracefulShutdown timeoutMs t ht := ht.trans (beginGracefulShutdown timeoutMs t)
  startClient identity t _ ht := ht.trans (startClient identity t)

end Follows

/-- A part of a connect opens a descriptor, if it opens one, and closes none. -/
def Opens (f : Socket → Socket) : Prop :=
  ∀ b, ∃ es, (f b).log = b.log ++ es ∧ ∀ ev ∈ es, ev.lifetime = .idle

theorem Opens.follows {f : Socket → Socket} (hf : Opens f) (s : SslEventSocket) :
    Follows s { s with toSocket := f s.toSocket } := by
  obtain ⟨es, hlog, hes⟩ := hf s.toSocket
  refine ⟨⟨es, hlog, .of_idle hes, fun id hid => ?_⟩, rfl⟩
  cases hes _ hid

/-- The entries of an object that lives.  Only its destructor runs `socket::close`. -/
def Entry.Living : Entry → Prop
  | .closeBase => False
  | .dial f _ _ | .start f _ _ => Opens f
  | _ => True

theorem Entry.follows {e : NetHost} (a : Entry) (ha : a.Living) (s : SslEventSocket) :
    ∃ t, a.run e s = .tls t ∧ Follows s t := by
  have hP := Follows.upheld (e := e.tls) s
  have hs := Follows.refl s
  cases a with
  | base f hf => exact ⟨_, rfl, .base (hf s.toSocket).log⟩
  | dial f hf hoff => exact ⟨_, rfl, Opens.follows ha s⟩
  | start f hf identity =>
    exact ⟨_, rfl, (Opens.follows ha s).trans (.startClient identity _)⟩
  | closeBase => exact ha.elim
  | close => exact ⟨_, rfl, (Follows.close s).1⟩
  | pollHasBufferedInput => exact ⟨_, rfl, hP.called.pollHasBufferedInput hs⟩
  | pollTimeoutMs => exact ⟨_, rfl, hP.called.pollTimeoutMs hs⟩
  | pollStep flags => exact ⟨_, rfl, .pollStep flags s⟩
  | pollReceive => exact hP.polledReceive hs
  | flushQueued => exact hP.polledFlush trivial hs
  | fail code => exact hP.fail code hs
  | exec c => exact hP.called.exec c trivial hs
  | directWrite data => exact hP.directWrite data hs
  | notifyWrite data n => exact ⟨_, rfl, .idle _ rfl rfl rfl⟩

end SslEventSocket

end Aeon
