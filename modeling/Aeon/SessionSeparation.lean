import Aeon.SessionQueue
import Aeon.SessionUpkeep

/-!
# One session leaves nothing to the next

Without a session nothing of one is recorded and nothing is queued.  A session
that starts finds no flags, and only what was accepted on it is in its queue,
unless `init_session` puts it in the place of one with bytes still queued.
-/

namespace Aeon

open Errno History Session

/-- Nothing is queued. -/
def Outgoing.Empty (q : Outgoing) : Prop := q.chunks = [] ∧ q.frontOffset = 0 ∧ q.bytes = 0

theorem Outgoing.Empty.pending {q : Outgoing} (h : q.Empty) : q.pending = [] := by
  rw [Outgoing.pending, h.1, Fifo.content_nil]

namespace SslEventSocket

variable {e : TlsHost} {s t : SslEventSocket}

/-- What a session has recorded and queued is its own. -/
structure Separate (s : SslEventSocket) : Prop where
  unused : s.tlsReady = false → s.Unused
  ended : s.session = none → s.tlsReady = false ∧ s.needWrite = false ∧ s.outgoing.Empty
  retry : ∀ id, s.session = some id → s.view.Record id
  queue : ∀ id, s.session = some id → s.outgoing.pending <:+ acceptedBytes id s.log

/-- The same while a socket is being connected, if sessions start clean. -/
structure Kept (s : SslEventSocket) : Prop where
  reachable : s.view.Reachable
  unused : s.tlsReady = false → s.Unused
  ended : s.session = none → s.tlsReady = false ∧ s.needWrite = false ∧ s.outgoing.Empty
  owned : ∀ id, s.session = some id → CleanStarts s.log → s.view.Owned id

/-- A socket without a session is not connected, so that nothing can be queued on it. -/
structure Settled (s : SslEventSocket) : Prop extends Kept s where
  offline : s.session = none → s.sockfd = none ∨ s.connected = false

theorem Kept.separate (h : Kept s) (hclean : CleanStarts s.log) : Separate s :=
  ⟨h.unused, h.ended, fun id hid => h.reachable.retryInv.record id hid,
    fun id hid => h.owned id hid hclean⟩

namespace Kept

/-- The session stays, and its flags do while it is not ready. -/
theorem frame (h : Kept s) (hsteps : Steps s.view t.view) (hlive : t.session = s.session)
    (hflags : t.tlsReady = false → t.recorded = s.recorded)
    (hnone : s.session = none → t.tlsReady = s.tlsReady ∧ t.needWrite = s.needWrite ∧
      (s.outgoing.Empty → t.outgoing.Empty)) : Kept t where
  reachable := h.reachable.steps hsteps
  unused hready := by
    have hsame := hflags hready
    have hready' : s.tlsReady = false := (congr_arg Prod.fst hsame).symm.trans hready
    exact (h.unused hready').of_recorded hsame
  ended hid := by
    rw [hlive] at hid
    obtain ⟨hready, hwrite, hempty⟩ := h.ended hid
    obtain ⟨hready', hwrite', hkeep⟩ := hnone hid
    exact ⟨hready'.trans hready, hwrite'.trans hwrite, hkeep hempty⟩
  owned id hid hclean := by
    have hid' : s.session = some id := hlive.symm.trans hid
    have hnumbered := h.reachable.numbered.live id hid'
    obtain ⟨es, hlog⟩ := hsteps.extends
    have hpre : s.log <+: t.log := ⟨es, hlog.symm⟩
    exact hsteps.owned h.reachable.sound hnumbered (fun _ => h.owned id hid' (hclean.of_prefix hpre)) hid

/-- Only the base object changes. -/
theorem base (h : Kept s) {b : Socket} (hsilent : ∃ es : List Event, (∀ ev ∈ es, ev.native = true) ∧
    b.log = s.log ++ es) : Kept { s with toSocket := b } := by
  obtain ⟨es, hes, hlog⟩ := hsilent
  refine h.frame ?_ rfl (fun _ => rfl) fun _ => ⟨rfl, rfl, id⟩
  have hview : view { s with toSocket := b } = s.view.note es := by
    simp only [view, Session.note, hlog]
  rw [hview]
  exact Steps.natives hes _

end Kept

theorem close_cleared (s : SslEventSocket) : (s.close e).2.Unused ∧ (s.close e).2.needWrite = false ∧
    (s.close e).2.outgoing.Empty := by
  have hunused := unused_clearFlags false s.sendAlert.freeSession
  unfold SslEventSocket.close
  dsimp only
  split <;> exact ⟨hunused.of_recorded rfl, rfl, rfl, rfl, rfl⟩

/-- A closed object has nothing left of its session. -/
theorem Settled.close (hr : (s.close e).2.view.Reachable) : Settled (s.close e).2 := by
  have hnone := (s.close_none (e := e)).1
  obtain ⟨hunused, hwrite, hempty⟩ := s.close_cleared (e := e)
  exact {
    reachable := hr
    unused := fun _ => hunused
    ended := fun _ => ⟨hunused.tlsReady, hwrite, hempty⟩
    owned := fun id hid => absurd (hnone.symm.trans hid) (by simp)
    offline := fun _ => .inl (s.close_opens (e := e)).1 }

/-- `start_client` leaves a closed object or a session that has just been made. -/
theorem Kept.startClient (identity : String) (h : Kept s) : Settled (s.startClient e identity).2 := by
  have hreach := (startClient_refines (e := e) identity).reachable h.reachable
  rcases s.startClient_ends (e := e) identity with ⟨u, hu⟩ | hopened
  · rw [hu] at hreach ⊢
    exact .close hreach
  · refine {
      reachable := hreach
      unused := fun _ => hopened.unused
      ended := fun hnone => absurd (hnone.symm.trans hopened.session) (by simp)
      owned := fun id hid hclean => ?_
      offline := fun hnone => absurd (hnone.symm.trans hopened.session) (by simp) }
    have hpending : s.outgoing.pending = [] := by
      cases hlive : s.session with
      | none => exact (h.ended hlive).2.2.pending
      | some old =>
        obtain ⟨es, hlog, -⟩ := hopened.log
        have hbefore : s.outgoing.pending = queuedBy s.log := h.reachable.queued
        rw [superseded, hlive] at hlog
        rw [hbefore]
        exact hclean s.log old s.nextSession es (by rw [hlog]; simp)
    have hqueue : (s.startClient e identity).2.outgoing.pending = [] := by
      rw [hopened.outgoing, hpending]
    show (s.startClient e identity).2.outgoing.pending <:+ _
    rw [hqueue]
    exact List.nil_suffix

section Functions

variable (e) (id : ℕ) (flags : Flags) (s : SslEventSocket)

theorem shutdownStep_kept : (s.shutdownStep e id flags).2.session = s.session ∧
    (s.shutdownStep e id flags).2.tlsReady = s.tlsReady := by
  have hcall (u : SslEventSocket) (hu : u.session = s.session ∧ u.tlsReady = s.tlsReady) :
      (u.callShutdown e id flags).2.session = s.session ∧
        (u.callShutdown e id flags).2.tlsReady = s.tlsReady := by
    unfold callShutdown
    dsimp only
    split
    · exact hu
    · split
      · exact hu
      · split
        · split <;> exact hu
        · split <;> exact hu
  unfold shutdownStep
  dsimp only
  split
  · exact ⟨rfl, rfl⟩
  · split
    · split <;> exact ⟨rfl, rfl⟩
    · split
      · exact ⟨rfl, rfl⟩
      · split
        · exact ⟨rfl, rfl⟩
        · split
          · exact ⟨rfl, rfl⟩
          · exact hcall _ ⟨rfl, rfl⟩

/-- A handshake records nothing but that it is complete. -/
theorem handshakeStep_kept : (s.handshakeStep e id flags).2.session = s.session ∧
    ((s.handshakeStep e id flags).2.tlsReady = false →
      (s.handshakeStep e id flags).2.recorded = s.recorded) := by
  unfold handshakeStep
  split
  · exact ⟨rfl, fun _ => rfl⟩
  · split
    · exact ⟨rfl, fun _ => rfl⟩
    · dsimp only
      have hshaken (done strict verified : Bool) (answer : Option SslResult) :
          (s.ticked.record (.handshake id done strict verified answer)).session = s.session ∧
          (s.ticked.record (.handshake id done strict verified answer)).recorded = s.recorded :=
        ⟨rfl, rfl⟩
      obtain ⟨hlive, hsame⟩ := hshaken ((e.doHandshake s.tick).ret = 1)
        (!s.serverSide && s.verifyMode == .strict) (e.verifyOk s.tick) (some (e.doHandshake s.tick))
      generalize s.ticked.record (.handshake id ((e.doHandshake s.tick).ret = 1)
        (!s.serverSide && s.verifyMode == .strict) (e.verifyOk s.tick) (some (e.doHandshake s.tick))) = t at hlive hsame
      split
      · split
        · exact ⟨hlive, fun _ => hsame⟩
        · exact ⟨hlive, fun hready => Bool.noConfusion hready⟩
      · split
        · exact ⟨hlive, fun _ => hsame⟩
        · split
          · exact ⟨hlive, fun _ => hsame⟩
          · split <;> exact ⟨hlive, fun _ => hsame⟩

theorem pollStep_kept : (s.pollStep e flags).2.session = s.session ∧
    ((s.pollStep e flags).2.tlsReady = false → (s.pollStep e flags).2.recorded = s.recorded) := by
  unfold pollStep
  split
  · exact ⟨rfl, fun _ => rfl⟩
  · rename_i id _
    split
    · rename_i hready
      split
      · obtain ⟨hlive, hsame⟩ := s.shutdownStep_kept e id flags
        exact ⟨hlive, fun hno => absurd ((hsame.trans hready).symm.trans hno) (by decide)⟩
      · split
        · exact ⟨rfl, fun hno => absurd (hready.symm.trans hno) (by decide)⟩
        · exact ⟨rfl, fun _ => rfl⟩
    · dsimp only
      split
      · exact ⟨rfl, fun _ => rfl⟩
      · exact (s.clock e).2.handshakeStep_kept e id flags

theorem pollReceive_kept (room : ℕ) : (s.pollReceive e room).2.session = s.session ∧
    ((s.pollReceive e room).2.tlsReady = false → (s.pollReceive e room).2.recorded = s.recorded) := by
  have hspec := s.pollReceive_spec (e := e) room
  refine ⟨hspec.session, fun hready => ?_⟩
  rw [hspec.tlsReady] at hready
  unfold pollReceive
  dsimp only
  split
  · rfl
  · rw [if_pos (by rw [hready]; rfl)]
    rfl

theorem sendTls_kept (data : List UInt8) (queued : Bool) :
    (s.sendTls e data queued).2.session = s.session ∧ ((s.sendTls e data queued).2.tlsReady = false →
      (s.sendTls e data queued).2.recorded = s.recorded) := by
  obtain ⟨hlive, hsame, -⟩ := s.sendTls_session (e := e) data queued
  refine ⟨hlive, fun hready => ?_⟩
  rw [hsame] at hready
  rcases s.sendTls_cases (e := e) data queued with
    ⟨he, -⟩ | ⟨he, -⟩ | ⟨-, -, hyes, -⟩ | ⟨id, requested, -, hyes, -⟩
  · rw [he]
    rfl
  · rw [he]
    rfl
  · exact absurd (hyes.symm.trans hready) (by decide)
  · exact absurd (hyes.symm.trans hready) (by decide)

theorem flushQueued_kept (budget : ℕ) : (s.flushQueued e budget).2.session = s.session ∧
    ((s.flushQueued e budget).2.tlsReady = false →
      (s.flushQueued e budget).2.recorded = s.recorded) := by
  have hstate := flushQueued_keeps (t := transport e)
    (I := fun u => u.session = s.session ∧ (u.tlsReady = false → u.recorded = s.recorded))
    (fun data u hu => ?_) budget s.toEventSocket s ⟨rfl, fun _ => rfl⟩
  · unfold flushQueued flushed
    dsimp only
    split <;> exact hstate
  · obtain ⟨hlive, hrecorded⟩ := u.sendTls_kept e data true
    refine ⟨hlive.trans hu.1, fun hready => ?_⟩
    have hsame := hrecorded hready
    exact hsame.trans (hu.2 ((congr_arg Prod.fst hsame).symm.trans hready))

end Functions

namespace Settled

/-- The same for a state in which nothing is connected. -/
theorem frame (h : Settled s) (hsteps : Steps s.view t.view) (hlive : t.session = s.session)
    (hflags : t.tlsReady = false → t.recorded = s.recorded)
    (hnone : s.session = none → t.tlsReady = s.tlsReady ∧ t.needWrite = s.needWrite ∧
      (s.outgoing.Empty → t.outgoing.Empty) ∧ t.sockfd = s.sockfd ∧ t.connected = s.connected) :
    Settled t where
  toKept := h.toKept.frame hsteps hlive hflags fun hid =>
    ⟨(hnone hid).1, (hnone hid).2.1, (hnone hid).2.2.1⟩
  offline hid := by
    obtain ⟨-, -, -, hfd, hconn⟩ := hnone (hlive.symm.trans hid)
    rw [hfd, hconn]
    exact h.offline (hlive.symm.trans hid)

/-- Nothing of the session changes. -/
theorem same (h : Settled s) (hsteps : Steps s.view t.view) (hlive : t.session = s.session)
    (hrecorded : t.recorded = s.recorded) (hwrite : t.needWrite = s.needWrite)
    (hqueue : t.outgoing = s.outgoing) (hfd : t.sockfd = s.sockfd)
    (hconn : t.connected = s.connected) : Settled t :=
  h.frame hsteps hlive (fun _ => hrecorded) fun _ =>
    ⟨congr_arg Prod.fst hrecorded, hwrite, fun hempty => hqueue ▸ hempty, hfd, hconn⟩

theorem pollStep (flags : Flags) (h : Settled s) : Settled (s.pollStep e flags).2 := by
  have hsteps := pollStep_refines (e := e) flags s h.reachable.sound
  obtain ⟨hlive, hflags⟩ := s.pollStep_kept e flags
  refine h.frame hsteps hlive hflags fun hnone => ?_
  unfold SslEventSocket.pollStep
  rw [hnone]
  exact ⟨rfl, rfl, id, rfl, rfl⟩

theorem pollReceive (room : ℕ) (h : Settled s) : Settled (s.pollReceive e room).2 := by
  have hsteps := pollReceive_refines (e := e) room s h.reachable.sound
  obtain ⟨hlive, hflags⟩ := s.pollReceive_kept e room
  refine h.frame hsteps hlive hflags fun hnone => ?_
  unfold SslEventSocket.pollReceive
  rw [hnone]
  exact ⟨rfl, rfl, id, rfl, rfl⟩

theorem sendTls (data : List UInt8) (h : Settled s) : Settled (s.sendTls e data false).2 := by
  have hsteps := sendTls_direct_refines (e := e) data s h.reachable.sound
  obtain ⟨hlive, hflags⟩ := s.sendTls_kept e data false
  refine h.frame hsteps hlive hflags fun hnone => ?_
  unfold SslEventSocket.sendTls
  rw [hnone]
  exact ⟨rfl, rfl, id, rfl, rfl⟩

theorem flushQueued (h : Settled s) : Settled (s.flushQueued e sendBudget).2 := by
  have hsteps := flushQueued_refines (e := e) s h.reachable.sound
  obtain ⟨hlive, hflags⟩ := s.flushQueued_kept e sendBudget
  refine h.frame hsteps hlive hflags fun hnone => ?_
  have hzero : s.outgoing.bytes = 0 := (h.ended hnone).2.2.2.2
  have he : (s.flushQueued e sendBudget).2 = s := by
    unfold SslEventSocket.flushQueued EventSocket.flushQueued
    dsimp only
    split
    · rfl
    · unfold drain
      rw [flushLoop_done fun h => h.1 hzero]
      rfl
  rw [he]
  exact ⟨rfl, rfl, id, rfl, rfl⟩

/-- Without a session the socket is not connected, so that nothing is accepted. -/
theorem queueWrite (data : Option (List UInt8)) (h : Settled s) : Settled (s.queueWrite data).2 := by
  have hsteps := queueWrite_refines data s h.reachable.sound
  have hkept : (s.queueWrite data).2.session = s.session ∧
      (s.queueWrite data).2.recorded = s.recorded ∧ (s.queueWrite data).2.needWrite = s.needWrite := by
    unfold SslEventSocket.queueWrite
    dsimp only
    split <;> exact ⟨rfl, rfl, rfl⟩
  refine h.frame hsteps hkept.1 (fun _ => hkept.2.1) fun hnone => ?_
  have hsame : (s.toEventSocket.queueWrite (!s.shutdownRequested) data).2 = s.toEventSocket := by
    rcases s.toEventSocket.queueWrite_cases (!s.shutdownRequested) data with
      he | ⟨he, -⟩ | ⟨-, hvalid, hconn, -⟩
    · rw [he]
    · rw [he]
    · rcases h.offline hnone with hfd | hoff
      · rw [Socket.isValidSocket, hfd] at hvalid
        cases hvalid
      · exact absurd (hconn.symm.trans hoff) (by decide)
  refine ⟨congr_arg Prod.fst hkept.2.1, hkept.2.2, ?_⟩
  unfold SslEventSocket.queueWrite
  dsimp only
  rw [hsame]
  split <;> exact ⟨id, rfl, rfl⟩

theorem beginGracefulShutdown (timeoutMs : Int) (h : Settled s) :
    Settled (s.beginGracefulShutdown e timeoutMs).2 := by
  have hsteps := beginGracefulShutdown_refines (e := e) timeoutMs s h.reachable.sound
  unfold SslEventSocket.beginGracefulShutdown at hsteps ⊢
  split at hsteps
  · rename_i hguard
    rw [if_pos hguard]
    exact h.same hsteps rfl rfl rfl rfl rfl rfl
  · rename_i hguard
    rw [if_neg hguard]
    split at hsteps
    · rename_i hagain
      rw [if_pos hagain]
      exact h
    · rename_i hfirst
      rw [if_neg hfirst]
      simp only [Bool.or_eq_true, Bool.not_eq_true', not_or, Bool.not_eq_false] at hguard
      obtain ⟨⟨⟨⟨⟨⟨-, hready⟩, hlive⟩, -⟩, -⟩, -⟩, -⟩ := hguard
      refine h.frame hsteps rfl (fun hno => absurd (hready.symm.trans hno) (by decide)) fun hnone => ?_
      rw [hnone] at hlive
      exact absurd rfl hlive

theorem upheld : Upheld e (fun s => s.view.Reachable) Settled where
  base s b hb hs := by
    refine hs.same (.of_eq ?_) rfl rfl rfl rfl hb.sockfd hb.connected
    simp only [view, hb.log]
  notice s n hn hs := hs.same hn.steps rfl rfl rfl rfl rfl rfl
  settings s mode allow timeoutMs deadline hs := hs.same (.refl _) rfl rfl rfl rfl rfl rfl
  modeChanged s hs := hs.same (.one (.native _ rfl)) rfl rfl rfl rfl rfl rfl
  setMaxQueuedBytes s limit hs := by
    refine hs.frame (setMaxQueuedBytes_refines limit s hs.reachable.sound) rfl (fun _ => rfl) fun _ =>
      ⟨rfl, rfl, fun hempty => ?_, rfl, rfl⟩
    show (s.outgoing.setLimit limit.toNat).2.Empty
    unfold Outgoing.setLimit
    split <;> exact hempty
  close s hs := .close (close_refines.reachable hs.reachable)
  pollStep flags _ hs := hs.pollStep flags
  pollReceive _ room hs := hs.pollReceive room
  sendTls data _ hs := hs.sendTls data
  queueWrite data _ _ hs := hs.queueWrite data
  flushQueued _ _ hs := hs.flushQueued
  beginGracefulShutdown timeoutMs _ hs := hs.beginGracefulShutdown timeoutMs
  startClient identity _ _ hs := hs.toKept.startClient identity

end Settled

end SslEventSocket

end Aeon
