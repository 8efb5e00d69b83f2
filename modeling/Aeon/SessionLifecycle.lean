import Aeon.SessionRefinement
import Aeon.TcpSilence

/-!
# Opening, polling and closing are session steps
-/

namespace Aeon

open Errno Session

namespace SslEventSocket

variable {α β : Type} {e : TlsHost} {s : SslEventSocket}

theorem Refines.of_view {f : SslEventSocket → α × SslEventSocket}
    (h : ∀ s, (f s).2.view = s.view) : Refines f := fun s _ => .of_eq (h s)

/-- A function of the base object, on the whole object. -/
def onSocket (f : Socket → α × Socket) (s : SslEventSocket) : α × SslEventSocket :=
  ((f s.toSocket).1, { s with toSocket := (f s.toSocket).2 })

theorem onSocket_refines {f : Socket → α × Socket} (hf : Socket.Silent f) :
    Refines (onSocket f) := by
  intro s _
  obtain ⟨es, hes, hlog⟩ := hf s.toSocket
  have hview : (s.onSocket f).2.view = s.view.note es := by
    simp only [onSocket, view, Session.note, hlog]
  rw [hview]
  exact .natives hes _

theorem onSocket_view {f : Socket → α × Socket} (h : (f s.toSocket).2.log = s.log) :
    (s.onSocket f).2.view = s.view := by
  simp only [onSocket, view, h]

theorem setPeerVerification_refines (mode : SslVerifyMode) :
    Refines fun s => ((), s.setPeerVerification mode) :=
  fun s _ => .one (.native (v := s.view) (.verifyMode s.session (mode == .strict)) rfl)

theorem setCaFile_refines (path : Option String) : Refines (setCaFile e path) := by
  refine .of_view fun s => ?_
  unfold setCaFile
  split
  · rfl
  · dsimp only
    split <;> rfl

/-- Two states that differ at most in the flags a session carries. -/
def Alike (v w : Session) : Prop := v.reset = w.reset

theorem freeSession_steps (s : SslEventSocket) :
    ∃ v, Steps s.view v ∧ Alike v s.freeSession.view ∧ v.live = none ∧
      (s.view.reset = s.view → s.freeSession.view = v ∧ v.reset = v) := by
  unfold freeSession
  cases hs : s.session with
  | none => exact ⟨s.view, .refl _, rfl, hs, fun hclean => ⟨rfl, hclean⟩⟩
  | some id =>
    refine ⟨_, .one (.free (v := s.view) id hs), rfl, rfl, fun hclean => ⟨?_, rfl⟩⟩
    rw [hclean]
    rfl

/-- A failure of `init_session` leaves the flags of an earlier session behind,
and every caller then clears them. -/
theorem initSession_steps (server : Bool) (s : SslEventSocket) :
    ∃ v, Steps s.view v ∧ Alike v (s.initSession e server).2.view ∧
      ((s.initSession e server).1 = true ∨ s.view.reset = s.view →
        (s.initSession e server).2.view = v) := by
  unfold initSession
  split
  · exact ⟨s.view, .refl _, rfl, fun _ => rfl⟩
  · obtain ⟨v, hsteps, halike, hlive, hclean⟩ := s.freeSession_steps
    generalize s.freeSession = t at halike hclean ⊢
    dsimp only
    split
    · exact ⟨v, hsteps, halike, fun h => (hclean (h.resolve_left Bool.false_ne_true)).1⟩
    · have hnew := hsteps.trans (.one (.create hlive))
      have hreset : v.reset = t.view.reset := halike
      have hfresh : v.fresh = t.nextSession := congr_arg Session.fresh hreset
      rw [hreset, hfresh] at hnew
      split
      · refine ⟨_, hnew, rfl, fun h => ?_⟩
        obtain ⟨hv, hclear⟩ := hclean (h.resolve_left Bool.false_ne_true)
        rw [← hreset, hclear, ← hv]
        rfl
      · exact ⟨_, hnew, rfl, fun _ => rfl⟩

/-- `close` does the same whatever flags the session carries. -/
theorem close_steps {v : Session} (h : Alike v s.view) : Steps v (s.close e).2.view := by
  have hreset : v.reset = s.view.reset := h
  have hlive : v.live = s.session := congr_arg Session.live hreset
  obtain ⟨w, hw, hlen, hnone, hcleared⟩ : ∃ w, Steps v w ∧ w.retryLen = 0 ∧ w.live = none ∧
      (s.sendAlert.freeSession.clearFlags false).view = w := by
    cases hs : s.session with
    | none =>
      refine ⟨_, .one (.reset (hlive.trans hs)), rfl, hlive.trans hs, ?_⟩
      simp only [sendAlert, freeSession, hs]
      exact hreset.symm
    | some id =>
      have hfree (w : Session) (hw : w.live = some id) := Steps.one (.free (v := w) id hw)
      simp only [sendAlert, hs]
      split
      · refine ⟨_, Steps.trans (.one (.alert id s.pendingWriteLen (hlive.trans hs)))
          (hfree _ (hlive.trans hs)), rfl, rfl, ?_⟩
        have hnoted (es : List Event) : (v.note es).reset = (s.view.note es).reset :=
          congr_arg (fun x => Session.note x es) hreset
        rw [hnoted]
        simp only [freeSession, record, ticked, hs]
        rfl
      · refine ⟨_, hfree _ (hlive.trans hs), rfl, rfl, ?_⟩
        rw [hreset]
        simp only [freeSession, hs]
        rfl
  unfold close
  generalize s.sendAlert.freeSession.clearFlags false = t at hcleared ⊢
  obtain ⟨es, hes, hlog⟩ := Socket.silent_close e.toHost t.toSocket
  have hclosed : (({ t with toEventSocket := (t.toEventSocket.close e.toHost).2 }).record
      (.discarded s.session)).view =
      ((w.note es).withQueue (w.note es).queue.clear).note [.discarded s.session] := by
    rw [← hcleared]
    simp only [view, record, Socket.record, EventSocket.close, hlog]
    rfl
  have hdone := hw.trans ((Steps.natives hes w).trans
    (.one (.discard (v := w.note es) s.session hlen (.inl hnone))))
  rw [← hclosed] at hdone
  dsimp only
  split
  · exact hdone.trans (.one (.native (.notify s.session .close) rfl))
  · exact hdone

theorem close_refines : Refines (close e) := fun _ _ => close_steps rfl

theorem requireIdentity_steps (s : SslEventSocket) :
    Steps s.view (s.requireIdentity e).2.view := by
  have hset (identity : Option String) :=
    Steps.one (.native (v := s.view) (.sslVerify s.session identity) rfl)
  unfold requireIdentity
  split
  · dsimp only
    split
    · exact hset _
    · exact .refl _
  · exact hset _

theorem requestServerName_view (identity : String) (s : SslEventSocket) :
    (s.requestServerName e identity).2.view = s.view := by
  unfold requestServerName
  split <;> rfl

theorem startClient_refines (identity : String) : Refines (startClient e identity) := by
  intro s hs
  have hrefuse {v : Session} {t : SslEventSocket} (code : Int) (hv : Steps s.view v)
      (h : Alike v t.view) : Steps s.view (t.refuseClient e code).2.view :=
    hv.trans (close_steps h)
  unfold startClient
  dsimp only
  have hmode : ({ s with
      expectedIdentity := identity
      toSocket := (s.toSocket.setBlocking e.toHost false).2 } : SslEventSocket).view = s.view :=
    onSocket_view (Socket.unopened_setBlocking e.toHost false s.toSocket).1
  generalize ({ s with
      expectedIdentity := identity
      toSocket := (s.toSocket.setBlocking e.toHost false).2 } : SslEventSocket) = t at hmode ⊢
  split
  · exact hrefuse _ (.refl _) rfl
  · split
    · exact hrefuse _ (.refl _) (congr_arg Session.reset hmode.symm)
    · obtain ⟨v, hsteps, halike, hdone⟩ := t.initSession_steps (e := e) false
      rw [hmode] at hsteps
      generalize t.initSession e false = made at halike hdone ⊢
      split
      · exact hrefuse _ hsteps halike
      · rename_i hmade
        rw [← hdone (.inl (by simpa using hmade))] at hsteps
        replace hsteps := hsteps.trans (made.2.requireIdentity_steps (e := e))
        split
        · exact hrefuse _ hsteps rfl
        · rw [← (made.2.requireIdentity e).2.requestServerName_view (e := e) identity] at hsteps
          split
          · exact hrefuse _ hsteps rfl
          · exact hsteps

theorem callShutdown_view (id : ℕ) (flags : Flags) (s : SslEventSocket) :
    (s.callShutdown e id flags).2.view =
      s.view.note [.sslShutdown id .pollStep s.pendingWriteLen (some (e.sslShutdown s.tick))] := by
  unfold callShutdown
  dsimp only
  split
  · rfl
  · split
    · rfl
    · split
      · split <;> rfl
      · split <;> rfl

theorem shutdownStep_steps {id : ℕ} (flags : Flags) (hlive : s.session = some id)
    (hready : s.tlsReady = true) (hclosing : s.shutdownRequested = true) :
    Steps s.view (s.shutdownStep e id flags).2.view := by
  unfold shutdownStep
  dsimp only
  split
  · exact .refl _
  · split
    · split <;> exact .refl _
    · split
      · exact .refl _
      · split
        · exact .refl _
        · rename_i hempty
          split
          · exact .refl _
          · rw [callShutdown_view]
            exact .one (.shutdown (v := s.view) id _ hlive hready hclosing (not_not.mp hempty))

theorem handshakeStep_steps {id : ℕ} (flags : Flags) (hlive : s.session = some id)
    (hready : s.tlsReady = false) : Steps s.view (s.handshakeStep e id flags).2.view := by
  unfold handshakeStep
  dsimp only
  generalize (!s.serverSide && s.verifyMode == .strict) = strict
  split
  · exact .refl _
  · split
    · exact .refl _
    · have hopen (done : Bool) (h : done = true → strict = true ∧ e.verifyOk s.tick = false) :=
        Steps.one (.handshakeOpen (v := s.view) id done strict (e.verifyOk s.tick) (e.doHandshake s.tick)
          hlive hready h)
      split
      · rename_i hret
        rw [decide_eq_true hret]
        split
        · exact hopen true fun _ => by simp_all
        · rename_i hverified
          refine .one ?_
          have hstep := Step.handshake (v := s.view) id strict (e.verifyOk s.tick)
            (e.doHandshake s.tick) hlive hready (by simpa using hverified)
          convert hstep using 1
          simp [record, ticked, Socket.record, Socket.ticked, setError, Socket.setError, view,
            Session.note, hlive]
      · rename_i hret
        rw [decide_eq_false hret]
        have hpending := hopen false fun h => absurd h Bool.false_ne_true
        split
        · exact hpending
        · split
          · exact hpending
          · split <;> exact hpending

theorem pollStep_refines (flags : Flags) : Refines (pollStep e flags) := by
  intro s _
  unfold pollStep
  cases hlive : s.session with
  | none => exact .refl _
  | some id =>
    dsimp only
    cases hready : s.tlsReady with
    | true =>
      rw [if_pos rfl]
      split
      · exact shutdownStep_steps flags hlive hready ‹_›
      · split <;> exact .refl _
    | false =>
      rw [if_neg Bool.false_ne_true]
      split
      · exact .refl _
      · exact handshakeStep_steps (s := (s.clock e).2) flags hlive hready

theorem readBuffer_refines (buffer : Bool) (size : Int) : Refines (readBuffer e buffer size) := by
  intro s hs
  unfold readBuffer
  split
  · exact .refl _
  · exact pollReceive_refines _ s hs

theorem readLineLoop_refines (room : ℕ) (line : List UInt8) :
    Refines (readLineLoop e room line) := by
  induction room generalizing line with
  | zero => exact fun s _ => .refl _
  | succ room ih =>
    intro s hs
    have hread := readBuffer_refines (e := e) true 1 s hs
    unfold readLineLoop
    dsimp only
    split
    · exact hread
    · split
      · exact hread
      · exact hread.trans (ih _ _ (hread.sound hs))

theorem readLine_refines (buffer : Bool) (size : Int) : Refines (readLine e buffer size) := by
  intro s hs
  unfold readLine
  split
  · exact .refl _
  · exact readLineLoop_refines _ _ s hs

theorem readString_refines (size : Int) : Refines (readString e size) := by
  intro s hs
  unfold readString
  split
  · exact .refl _
  · exact readBuffer_refines _ _ s hs

end SslEventSocket

end Aeon
