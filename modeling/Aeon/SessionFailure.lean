import Aeon.SessionSeparation

/-!
# What is still asked of a session that has failed

OpenSSL forbids any use of a session after a fatal error, other than to free it.
For each function of a TLS object: which calls of OpenSSL it makes, that none
follows one which has failed, and when it makes one on a session that is marked
as failed.
-/

namespace Aeon

open Errno

/-- A call that drives a session: it reads, writes, shakes hands or shuts down. -/
def Event.drives : Event → Bool
  | .handshake .. | .sslRead .. | .sslWrite .. | .sslShutdown .. => true
  | _ => false

/-- A call that has failed for good.  Every `SSL_shutdown` of `poll_step` counts,
whatever its answer: no other call follows it either. -/
def Event.mayFail : Event → Bool
  | .sslRead _ r _ => r.ret ≤ 0 && !r.wants && r.code != .zeroReturn
  | .sslWrite _ _ _ r _ _ => r.ret ≤ 0 && !r.wants
  | .sslShutdown _ .pollStep _ _ => true
  | _ => false

theorem Event.drives_native {ev : Event} (h : ev.native = true) : ev.drives = false := by
  cases ev with
  | handshake | sslRead | sslWrite | sslShutdown => cases h
  | _ => rfl

theorem Event.mayFail_of_drives {ev : Event} (h : ev.drives = false) : ev.mayFail = false := by
  cases ev with
  | handshake | sslRead | sslWrite | sslShutdown => cases h
  | _ => rfl

/-- After a call that may have failed no other follows. -/
def SettlesDown (es : List Event) : Prop :=
  es.Pairwise fun ev later => ev.mayFail = true → later.drives = false

theorem SettlesDown.quiet {es : List Event} (h : ∀ ev ∈ es, ev.drives = false) : SettlesDown es :=
  List.pairwise_of_forall_mem_list fun _ _ later hl _ => h later hl

/-- A call in front of others, which has not failed. -/
theorem SettlesDown.cons {ev : Event} {es : List Event} (hev : ev.mayFail = false)
    (h : SettlesDown es) : SettlesDown (ev :: es) := by
  refine List.pairwise_cons.mpr ⟨fun _ _ hfail => ?_, h⟩
  rw [hev] at hfail
  cases hfail

theorem SettlesDown.append {es more : List Event} (h : SettlesDown es)
    (hmore : ∀ ev ∈ more, ev.drives = false) : SettlesDown (es ++ more) :=
  List.pairwise_append.mpr ⟨h, SettlesDown.quiet hmore, fun _ _ later hl _ => hmore later hl⟩

/-- Calls before the last one, none of which has failed. -/
theorem SettlesDown.before {es more : List Event} (h : SettlesDown more)
    (hes : ∀ ev ∈ es, ev.mayFail = false) : SettlesDown (es ++ more) := by
  induction es with
  | nil => exact h
  | cons ev es ih =>
    exact .cons (hes ev List.mem_cons_self) (ih fun ev' he => hes ev' (List.mem_cons_of_mem _ he))

theorem Session.Steps.fresh_le {v v' : Session} (h : Session.Steps v v') : v.fresh ≤ v'.fresh := by
  induction h with
  | refl => exact le_rfl
  | tail _ hstep ih =>
    cases hstep.grows with
    | same _ _ hfresh => exact hfresh ▸ ih
    | opened _ hfresh => exact hfresh ▸ Nat.le_succ_of_le ih

namespace SslEventSocket

variable {e : TlsHost} {s t u : SslEventSocket}

/-- The session is marked as failed. -/
structure Failed (s : SslEventSocket) : Prop where
  marked : s.sslFailed = true
  live : s.session ≠ none
  ready : s.tlsReady = true

/-- A mark is only found on a session that is ready. -/
theorem Kept.failed (h : Kept s) (hmarked : s.sslFailed = true) : s.Failed := by
  have hready : s.tlsReady = true := by
    by_contra hnot
    have hunmarked := (h.unused (Bool.eq_false_iff.mpr hnot)).sslFailed
    rw [hmarked] at hunmarked
    cases hunmarked
  refine ⟨hmarked, fun hnone => ?_, hready⟩
  have hended := (h.ended hnone).1
  rw [hready] at hended
  cases hended

/-- The events drive the session of the object. -/
def Driven (s : SslEventSocket) (es : List Event) : Prop :=
  ∃ ev ∈ es, ev.drives = true ∧ ev.session = s.session

/-- What a function that leaves `t` adds to the history of `s`: nothing after a
call that failed, and on a session that has failed before it a call only if `d`. -/
def Issues (s t : SslEventSocket) (d : Prop) : Prop :=
  ∃ es, t.log = s.log ++ es ∧ SettlesDown es ∧ (s.Failed → (s.Driven es ↔ d))

namespace Issues

variable {d : Prop}

theorem quiet (es : List Event) (hlog : t.log = s.log ++ es) (hes : ∀ ev ∈ es, ev.drives = false)
    (hd : s.Failed → ¬d) : Issues s t d := by
  refine ⟨es, hlog, .quiet hes, fun hs => ⟨?_, fun h => absurd h (hd hs)⟩⟩
  rintro ⟨ev, hev, hdrives, -⟩
  rw [hes ev hev] at hdrives
  cases hdrives

/-- The history is the same. -/
theorem none (hlog : t.log = s.log) : Issues s t False :=
  .quiet [] (hlog.trans (List.append_nil _).symm) (by simp) fun _ h => h

/-- The history is the same, and a call was not due. -/
theorem skip (hlog : t.log = s.log) (hd : s.Failed → ¬d) : Issues s t d :=
  .quiet [] (hlog.trans (List.append_nil _).symm) (by simp) hd

theorem one (ev : Event) (hlog : t.log = s.log ++ [ev]) (hev : ev.drives = true)
    (hon : ev.session = s.session) (hd : d) : Issues s t d :=
  ⟨[ev], hlog, List.pairwise_singleton _ _, fun _ =>
    ⟨fun _ => hd, fun _ => ⟨ev, List.mem_singleton.mpr rfl, hev, hon⟩⟩⟩

/-- Events that drive nothing may follow. -/
theorem followed (h : Issues s t d) (more : List Event) (hlog : u.log = t.log ++ more)
    (hmore : ∀ ev ∈ more, ev.drives = false) : Issues s u d := by
  obtain ⟨es, hes, hsettles, hiff⟩ := h
  refine ⟨es ++ more, by rw [hlog, hes, List.append_assoc], hsettles.append hmore, fun hs => ?_⟩
  refine Iff.trans ⟨?_, fun ⟨ev, hev, hd⟩ => ⟨ev, List.mem_append_left _ hev, hd⟩⟩ (hiff hs)
  rintro ⟨ev, hev, hd, hon⟩
  rcases List.mem_append.mp hev with hev | hev
  · exact ⟨ev, hev, hd, hon⟩
  · rw [hmore ev hev] at hd
    cases hd

theorem same (h : Issues s t d) (hlog : u.log = t.log) : Issues s u d :=
  h.followed [] (hlog.trans (List.append_nil _).symm) (by simp)

theorem iff {d' : Prop} (h : Issues s t d) (hd : s.Failed → (d ↔ d')) : Issues s t d' := by
  obtain ⟨es, hes, hsettles, hiff⟩ := h
  exact ⟨es, hes, hsettles, fun hs => (hiff hs).trans (hd hs)⟩

end Issues

/-- What becomes of an object without a call that drives its session: a mark
stays as long as the session is ready. -/
structure Calm (s t : SslEventSocket) : Prop where
  log : ∃ es, t.log = s.log ++ es ∧ ∀ ev ∈ es, ev.drives = false
  marked : s.sslFailed = true → t.tlsReady = true → t.sslFailed = true

namespace Calm

theorem refl (s : SslEventSocket) : Calm s s := ⟨⟨[], by simp, by simp⟩, fun h _ => h⟩

theorem next (h : Calm s t) (es : List Event) (hlog : u.log = t.log ++ es)
    (hes : ∀ ev ∈ es, ev.drives = false)
    (hmark : u.tlsReady = true → t.tlsReady = true ∧ u.sslFailed = t.sslFailed) : Calm s u := by
  obtain ⟨es', hlog', hes'⟩ := h.log
  refine ⟨⟨es' ++ es, by rw [hlog, hlog', List.append_assoc], fun ev hev => ?_⟩, fun hm hr => ?_⟩
  · exact (List.mem_append.mp hev).elim (hes' ev) (hes ev)
  · obtain ⟨hready, hsame⟩ := hmark hr
    exact hsame.trans (h.marked hm hready)

/-- Only the base object changes, and its history does not. -/
theorem same (h : Calm s t) (hlog : u.log = t.log) (hready : u.tlsReady = t.tlsReady)
    (hmark : u.sslFailed = t.sslFailed) : Calm s u :=
  h.next [] (hlog.trans (List.append_nil _).symm) (by simp) fun hr => ⟨hready ▸ hr, hmark⟩

theorem freeSession (h : Calm s t) : Calm s t.freeSession := by
  unfold SslEventSocket.freeSession
  split
  · exact h
  · exact h.next [.sslFree _] rfl (by simp [Event.drives]) fun hr => ⟨hr, rfl⟩

theorem initSession (server : Bool) (h : Calm s t) : Calm s (t.initSession e server).2 := by
  unfold SslEventSocket.initSession
  split
  · exact h
  · dsimp only
    have hfreed := h.freeSession
    generalize t.freeSession = u at hfreed
    split
    · exact hfreed.same rfl rfl rfl
    · have hnew : Calm s u.ticked.newSession :=
        hfreed.next [.sslNew _] rfl (by simp [Event.drives]) fun hr => ⟨hr, rfl⟩
      split
      · exact hnew.same rfl rfl rfl
      · exact hnew.next [] (List.append_nil _).symm (by simp) nofun

theorem requireIdentity (h : Calm s t) : Calm s (t.requireIdentity e).2 := by
  obtain ⟨-, hrecorded, -, es, hlog, hes⟩ := t.requireIdentity_kept (e := e)
  simp only [recorded, Prod.mk.injEq] at hrecorded
  exact h.next es hlog (fun ev hev => Event.drives_native (hes ev hev))
    fun hr => ⟨hrecorded.1 ▸ hr, hrecorded.2.2.2.2.2.2.1⟩

theorem requestServerName (identity : String) (h : Calm s t) :
    Calm s (t.requestServerName e identity).2 := by
  obtain ⟨-, hrecorded, -, hlog⟩ := t.requestServerName_kept (e := e) identity
  simp only [recorded, Prod.mk.injEq] at hrecorded
  exact h.same hlog hrecorded.1 hrecorded.2.2.2.2.2.2.1

end Calm

/-- `close` sends its alert only on a session that is not marked. -/
theorem close_issues (h : Calm s t) : Issues s (t.close e).2 False := by
  obtain ⟨es, hlog, hes⟩ := h.log
  have halert : ∃ alert, t.sendAlert.log = t.log ++ alert ∧ (∀ ev ∈ alert, ev.mayFail = false) ∧
      (s.Failed → ∀ ev ∈ alert, ev.drives = false) := by
    unfold sendAlert
    split
    · exact ⟨[], by simp, by simp, by simp⟩
    · split
      · rename_i id _ hsends
        refine ⟨[.sslShutdown id .close t.pendingWriteLen none], rfl, by simp [Event.mayFail], fun hs => ?_⟩
        simp only [Bool.and_eq_true, Bool.not_eq_true'] at hsends
        have hmarked := h.marked hs.marked hsends.1.1.1.1
        rw [hsends.1.1.1.2] at hmarked
        cases hmarked
      · exact ⟨[], by simp, by simp, by simp⟩
  obtain ⟨alert, halertLog, hmay, hquiet⟩ := halert
  obtain ⟨closed, hclosed, hclosedLog⟩ :=
    Socket.silent_close e.toHost t.sendAlert.freeSession.toSocket
  obtain ⟨last, hlast, hlastQuiet⟩ : ∃ last, (t.close e).2.log = t.log ++ alert ++
      (t.sendAlert.superseded ++ closed ++ last) ∧ ∀ ev ∈ last, ev.drives = false := by
    have hbase : (Socket.close e.toHost t.sendAlert.freeSession.toSocket).2.log =
        t.log ++ alert ++ (t.sendAlert.superseded ++ closed) := by
      rw [hclosedLog, ← halertLog, ← List.append_assoc, ← freeSession_log]
    have hend (u : SslEventSocket) (more : List Event) (hmore : ∀ ev ∈ more, ev.drives = false)
        (hu : u.log = (Socket.close e.toHost t.sendAlert.freeSession.toSocket).2.log ++ more) :
        ∃ last, u.log = t.log ++ alert ++ (t.sendAlert.superseded ++ closed ++ last) ∧
          ∀ ev ∈ last, ev.drives = false :=
      ⟨more, by rw [hu, hbase, List.append_assoc _ _ more], hmore⟩
    unfold SslEventSocket.close
    dsimp only
    split
    · refine hend _ [.discarded t.session, .notify t.session .close] (by simp [Event.drives]) ?_
      exact List.append_assoc _ [_] [_]
    · exact hend _ [.discarded t.session] (by simp [Event.drives]) rfl
  have hrest (ev : Event) (hev : ev ∈ t.sendAlert.superseded ++ closed ++ last) :
      ev.drives = false := by
    rcases List.mem_append.mp hev with hev | hev
    · rcases List.mem_append.mp hev with hev | hev
      · obtain ⟨id, -, rfl⟩ := List.mem_map.mp hev
        rfl
      · exact Event.drives_native (hclosed ev hev)
    · exact hlastQuiet ev hev
  refine ⟨es ++ (alert ++ (t.sendAlert.superseded ++ closed ++ last)), ?_, ?_, fun hs => ⟨?_, nofun⟩⟩
  · rw [hlast, hlog]
    simp only [List.append_assoc]
  · refine .before (.before (.quiet hrest) hmay) fun ev hev => Event.mayFail_of_drives (hes ev hev)
  · rintro ⟨ev, hev, hdrives, -⟩
    have hnot : ev.drives = false := by
      rcases List.mem_append.mp hev with hev | hev
      · exact hes ev hev
      · exact (List.mem_append.mp hev).elim (hquiet hs ev) (hrest ev)
    rw [hnot] at hdrives
    cases hdrives

/-- `start_client` frees a session that is marked, and asks nothing of it. -/
theorem startClient_issues (identity : String) (h : Calm s t) :
    Issues s (t.startClient e identity).2 False := by
  have hrefuse (code : Int) {u : SslEventSocket} (hu : Calm s u) :
      Issues s (u.refuseClient e code).2 False := close_issues (hu.same rfl rfl rfl)
  have hdone {u : SslEventSocket} (hu : Calm s u) : Issues s (u.setError errNone) False := by
    obtain ⟨es, hlog, hes⟩ := hu.log
    exact .quiet es hlog hes fun _ h => h
  have hstart : Calm s { t with expectedIdentity := identity } := h.same rfl rfl rfl
  unfold startClient
  dsimp only
  split
  · exact hrefuse _ hstart
  · have hmode := (Socket.unopened_setBlocking e.toHost false t.toSocket).1
    have hset : Calm s { t with
        expectedIdentity := identity
        toSocket := (t.toSocket.setBlocking e.toHost false).2 } := h.same hmode rfl rfl
    split
    · exact hrefuse _ hset
    · have hmade := hset.initSession (e := e) false
      split
      · exact hrefuse _ hmade
      · have hnamed := hmade.requireIdentity (e := e)
        split
        · exact hrefuse _ hnamed
        · have hsni := hnamed.requestServerName (e := e) identity
          split
          · exact hrefuse _ hsni
          · exact hdone hsni

/-- `poll_receive` asks a marked session for input. -/
theorem pollReceive_issues (room : ℕ) (s : SslEventSocket) : Issues s (s.pollReceive e room).2 True := by
  have hnone {u : SslEventSocket} (hlog : u.log = s.log) (hs : ¬s.Failed) : Issues s u True :=
    (Issues.none hlog).iff fun h => absurd h hs
  unfold SslEventSocket.pollReceive
  cases hlive : s.session with
  | none => exact hnone rfl fun hs => hs.live hlive
  | some id =>
    dsimp only
    split
    · rename_i hready
      refine hnone rfl fun hs => ?_
      rw [hs.ready] at hready
      cases hready
    · have hread {u : SslEventSocket} (hlog : u.log =
          s.log ++ [.sslRead id (e.sslRead s.tick room) s.directRetry]) : Issues s u True :=
        .one (.sslRead id (e.sslRead s.tick room) s.directRetry) hlog rfl hlive.symm trivial
      split
      · exact hread rfl
      · split
        · split <;> exact hread rfl
        · split <;> exact hread rfl

theorem readBuffer_issues (given : Bool) (size : Int) (s : SslEventSocket) :
    Issues s (s.readBuffer e given size).2 (given = true ∧ size > 0) := by
  unfold readBuffer
  split
  · rename_i hguard
    refine .skip rfl fun hs ⟨hgiven, hsize⟩ => ?_
    simp [hgiven, hs.ready] at hguard
    omega
  · rename_i hguard
    simp only [Bool.or_eq_true, Bool.not_eq_true', decide_eq_true_eq, not_or, Bool.not_eq_false] at hguard
    exact ((s.pollReceive_issues _).same rfl).iff fun _ =>
      ⟨fun _ => ⟨hguard.1.1, by omega⟩, fun _ => trivial⟩

/-- A `read` that gives something has not failed. -/
theorem readBuffer_received (given : Bool) (size : Int) (s : SslEventSocket)
    (h : (s.readBuffer e given size).1.1 > 0) : ∃ ev : Event,
      (s.readBuffer e given size).2.log = s.log ++ [ev] ∧ (ev.drives = true ∧ ev.session = s.session) ∧
        ev.mayFail = false := by
  unfold readBuffer at h ⊢
  split at h
  · simp at h
  · rename_i hguard
    rw [if_neg hguard]
    dsimp only at h ⊢
    unfold SslEventSocket.pollReceive at h ⊢
    cases hlive : s.session with
    | none => simp [hlive, transportError] at h
    | some id =>
      rw [hlive] at h
      dsimp only at h ⊢
      split at h
      · simp [transportError] at h
      · rename_i hready
        rw [if_neg hready]
        split at h
        · rename_i hpos
          rw [if_pos hpos]
          exact ⟨_, rfl, ⟨rfl, rfl⟩, by simp [Event.mayFail]; omega⟩
        · split at h
          · split at h <;> simp [wouldBlock] at h
          · split at h <;> simp [wouldBlock, transportError] at h

/-- Each turn of the loop reads, and the first read that gives nothing is the last. -/
theorem readLineLoop_issues (room : ℕ) (line : List UInt8) (s : SslEventSocket) :
    Issues s (s.readLineLoop e room line).2 (0 < room) := by
  induction room generalizing line s with
  | zero => exact .skip rfl fun _ => Nat.lt_irrefl 0
  | succ room ih =>
    have hread : Issues s (s.readBuffer e true 1).2 (0 < room + 1) :=
      (s.readBuffer_issues true 1).iff fun _ => by simp
    unfold readLineLoop
    dsimp only
    split
    · exact hread
    · rename_i hpos
      split
      · exact hread
      · obtain ⟨ev, hlog, hdrives, hmay⟩ := readBuffer_received (e := e) true 1 s (by omega)
        obtain ⟨es, hes, hsettles, -⟩ := ih (line ++ [(s.readBuffer e true 1).1.2.headD 0])
          (s.readBuffer e true 1).2
        refine ⟨ev :: es, by rw [hes, hlog]; simp, .cons hmay hsettles, fun _ => ?_⟩
        exact ⟨fun _ => Nat.succ_pos room, fun _ => ⟨ev, List.mem_cons_self, hdrives⟩⟩

theorem readLine_issues (given : Bool) (size : Int) (s : SslEventSocket) :
    Issues s (s.readLine e given size).2 (given = true ∧ size > 1) := by
  unfold readLine
  split
  · rename_i hguard
    refine .skip rfl fun _ ⟨hgiven, hsize⟩ => ?_
    simp [hgiven] at hguard
    omega
  · rename_i hguard
    simp only [Bool.or_eq_true, Bool.not_eq_true', decide_eq_true_eq, not_or, Bool.not_eq_false] at hguard
    exact (s.readLineLoop_issues _ []).iff fun _ =>
      ⟨fun h => ⟨hguard.1, by omega⟩, fun h => by have := h.2; omega⟩

theorem readString_issues (size : Int) (s : SslEventSocket) :
    Issues s (s.readString e size).2 (size > 0) := by
  unfold readString
  split
  · exact .skip rfl fun _ h => by omega
  · rename_i hsize
    exact (s.readBuffer_issues true size).iff fun _ => ⟨fun h => h.2, fun h => ⟨rfl, h⟩⟩

/-- `send_tls` gets as far as its `SSL_write`, on a session that is ready. -/
def sends (data : List UInt8) (queued : Bool) (s : SslEventSocket) : Prop :=
  data ≠ [] ∧ (s.shutdownRequested = true → queued = true) ∧
    (queued = false → s.pendingWriteLen = 0 → s.queuedBytes = 0) ∧
    (s.pendingWriteLen ≠ 0 → queued = s.pendingWriteQueued ∧ s.retryMismatch data queued = false)

theorem afterWrite_log (data : List UInt8) (queued : Bool) (answer : SslResult)
    (s : SslEventSocket) : (s.afterWrite data queued answer).2.log = s.log := by
  unfold afterWrite
  split
  · rfl
  · split
    · dsimp only
      split <;> rfl
    · rfl

/-- What `send_tls` adds to the history, by what it returns. -/
theorem sendTls_issues (data : List UInt8) (queued : Bool) (s : SslEventSocket) :
    Issues s (s.sendTls e data queued).2 (s.sends data queued) ∧
    ((s.sendTls e data queued).1.ret > 0 → s.sends data queued ∧ ∃ ev : Event,
      (s.sendTls e data queued).2.log = s.log ++ [ev] ∧ (ev.drives = true ∧ ev.session = s.session) ∧
        ev.mayFail = false) := by
  rcases s.sendTls_cases (e := e) data queued with ⟨heq, hwhy⟩ | ⟨heq, hwhy⟩ |
    ⟨heq, -, -, hlen, -, hbad⟩ | ⟨id, requested, hlive, -, hd, hopen, hfirst, hmatch, -, heq⟩
  · rw [heq]
    refine ⟨.skip rfl fun hs hsends => ?_, fun h => by simp [transportError] at h⟩
    rcases hwhy with hnone | hready | hd | hclosing
    · exact hs.live hnone
    · rw [hs.ready] at hready
      cases hready
    · exact hsends.1 hd
    · have hqueued := hsends.2.1 hclosing.1
      rw [hclosing.2] at hqueued
      cases hqueued
  · rw [heq]
    refine ⟨.skip rfl fun _ hsends => ?_, fun h => by simp [wouldBlock] at h⟩
    rcases hwhy with ⟨hqueued, hlen, hbytes⟩ | ⟨hlen, hother⟩
    · exact hbytes (hsends.2.2.1 hqueued hlen)
    · exact hother (hsends.2.2.2 hlen).1
  · rw [heq]
    refine ⟨.quiet [.retryRejected (origin queued)] rfl (by simp [Event.drives]) fun _ hsends => ?_,
      fun h => by simp [transportError] at h⟩
    have hmatch := (hsends.2.2.2 hlen).2
    rw [hbad] at hmatch
    cases hmatch
  · have hlog : (s.sendTls e data queued).2.log = s.log ++ [.sslWrite id (origin queued) requested
        (e.sslWrite s.tick requested.length) (s.pendingWriteLen ≠ 0)
          (if queued then 0 else s.queuedBytes)] := by
      rw [heq, afterWrite_log]
      rfl
    refine ⟨.one (.sslWrite ..) hlog rfl hlive.symm ⟨hd, hopen, hfirst, hmatch⟩, fun hpos =>
      ⟨⟨hd, hopen, hfirst, hmatch⟩, _, hlog, ⟨rfl, hlive.symm⟩, ?_⟩⟩
    have hanswer : (e.sslWrite s.tick requested.length).ret > 0 := by
      by_contra hnot
      rw [heq, afterWrite, if_neg hnot] at hpos
      split at hpos
      · simp [wouldBlock] at hpos
      · simp [transportError] at hpos
    simp [Event.mayFail]
    omega

/-- A flush of a marked session sends when its first bytes pass the checks. -/
def sendsQueued (s : SslEventSocket) : Prop :=
  s.isValidSocket = true ∧ s.blocking = false ∧ s.queuedBytes ≠ 0 ∧
    s.sends (s.outgoing.request sendBudget) true

section Flush

/-- A send that goes on has gone through. -/
theorem flushOnce_tls_again {requested i i' : ℕ} {r r' : FlushResult} {q q' : Outgoing}
    {data : List UInt8} (h : flushOnce (transport e) requested (s.sendTls e data true).1
      (s.sendTls e data true).2 r q i = .again r' q' i') : (s.sendTls e data true).1.ret > 0 := by
  rcases s.sendTls_cases (e := e) data true with ⟨heq, -⟩ | ⟨heq, -⟩ | ⟨heq, -⟩ | ⟨id, req, -, -, -, -, -, -, -, heq⟩
  · rw [heq] at h
    obtain ⟨code, -, hstop⟩ := flushOnce_failed (e := e) (s := s.transportError.2) requested r q i
    cases hstop.symm.trans h
  · rw [heq] at h
    cases (flushOnce_wouldBlock (e := e)).symm.trans h
  · rw [heq] at h
    obtain ⟨code, -, hstop⟩ := flushOnce_failed (e := e)
      (s := (s.record (.retryRejected (origin true))).transportError.2) requested r q i
    cases hstop.symm.trans h
  · rw [heq] at h ⊢
    unfold afterWrite at h ⊢
    split
    · assumption
    · rename_i hneg
      rw [if_neg hneg] at h
      split at h
      · cases (flushOnce_wouldBlock (e := e)).symm.trans h
      · obtain ⟨code, -, hstop⟩ := flushOnce_failed (e := e) (s := _) requested r q i
        cases hstop.symm.trans h

theorem flushLoop_issues (r : FlushResult) (q : Outgoing) (i : ℕ) (s : SslEventSocket) :
    Issues s (flushLoop (transport e) sendBudget r q i s).state
      (q.bytes ≠ 0 ∧ r.bytes < sendBudget ∧ s.sends (q.request (sendBudget - r.bytes)) true) := by
  induction r, q, i, s using flushLoop.induct (transport e) sendBudget with
  | case1 r q i s hb data sent r' q' hstop =>
    rw [flushLoop_stop hb hstop]
    exact (s.sendTls_issues data true).1.iff fun _ => ⟨fun h => ⟨hb.1, hb.2, h⟩, fun h => h.2.2⟩
  | case2 r q i s hb data sent r' q' i' hagain ih =>
    rw [flushLoop_again hb hagain]
    obtain ⟨hsends, ev, hlog, hdrives, hmay⟩ :=
      (s.sendTls_issues data true).2 (flushOnce_tls_again hagain)
    obtain ⟨es, hes, hsettles, -⟩ := ih
    refine ⟨ev :: es, ?_, .cons hmay hsettles, fun _ => ?_⟩
    · refine Eq.trans hes ?_
      show (s.sendTls e data true).2.log ++ es = _
      rw [hlog, List.append_assoc]
      rfl
    · exact ⟨fun _ => ⟨hb.1, hb.2, hsends⟩, fun _ => ⟨ev, List.mem_cons_self, hdrives⟩⟩
  | case3 r q i s hb =>
    rw [flushLoop_done hb]
    exact .skip rfl fun _ h => hb ⟨h.1, h.2.1⟩

theorem flushQueued_issues (s : SslEventSocket) :
    Issues s (s.flushQueued e sendBudget).2 s.sendsQueued := by
  have hend (f : Flushed SslEventSocket) {d : Prop} (hf : Issues s f.state d) :
      Issues s (flushed f) d := by
    unfold flushed
    dsimp only
    split
    · exact hf.followed [.discarded f.state.session] rfl (by simp [Event.drives])
    · exact hf.same rfl
  unfold SslEventSocket.flushQueued EventSocket.flushQueued
  split
  · rename_i hguard
    refine hend _ (.skip rfl fun _ h => ?_)
    simp [h.1, h.2.1, sendBudget] at hguard
  · rename_i hguard
    simp only [Bool.or_eq_true, Bool.not_eq_true', not_or, Bool.not_eq_false, Bool.not_eq_true] at hguard
    refine hend _ ((flushLoop_issues {} s.outgoing 0 s).iff fun _ => ?_)
    exact ⟨fun h => ⟨hguard.1.1, hguard.1.2, h.1, h.2.2⟩, fun h => ⟨h.2.2.1, by decide, h.2.2.2⟩⟩

end Flush

/-- `poll_step` gets as far as its `SSL_shutdown`, on a session that is ready. -/
def callsShutdown (e : TlsHost) (flags : Flags) (s : SslEventSocket) : Prop :=
  s.shutdownRequested = true ∧ e.now s.tick < s.shutdownDeadline ∧
    (flags.pollerr || flags.pollnval) = false ∧ (s.peerNotifiedClose && flags.pollhup) = false ∧
    s.queuedBytes = 0 ∧ s.shutdownWaits flags = false

theorem callShutdown_log (id : ℕ) (flags : Flags) (s : SslEventSocket) :
    (s.callShutdown e id flags).2.log = 
      s.log ++ [.sslShutdown id .pollStep s.pendingWriteLen (some (e.sslShutdown s.tick))] := by
  unfold callShutdown
  dsimp only
  split
  · rfl
  · split
    · rfl
    · split
      · split <;> rfl
      · split <;> rfl

theorem shutdownStep_issues (id : ℕ) (flags : Flags) (hlive : s.session = some id)
    (hclosing : s.shutdownRequested = true) :
    Issues s (s.shutdownStep e id flags).2 (s.callsShutdown e flags) := by
  have hquiet {u : SslEventSocket} (hlog : u.log = s.log) (hnot : ¬s.callsShutdown e flags) :
      Issues s u (s.callsShutdown e flags) := .skip hlog fun _ => hnot
  unfold shutdownStep
  dsimp only
  split
  · rename_i hdue
    exact hquiet rfl fun h => absurd h.2.1 (Nat.not_lt.mpr hdue)
  · rename_i hearly
    split
    · rename_i herr
      have hnot : ¬s.callsShutdown e flags := fun h => by
        rw [h.2.2.1] at herr
        cases herr
      split <;> exact hquiet rfl hnot
    · rename_i herr
      split
      · rename_i hhup
        exact hquiet rfl fun h => by
          have hnot := h.2.2.2.1
          rw [show (s.peerNotifiedClose && flags.pollhup) = true from hhup] at hnot
          cases hnot
      · rename_i hhup
        split
        · rename_i hbytes
          exact hquiet rfl fun h => hbytes h.2.2.2.2.1
        · rename_i hbytes
          split
          · rename_i hwaits
            exact hquiet rfl fun h => by
              have hnot := h.2.2.2.2.2
              rw [show s.shutdownWaits flags = true from hwaits] at hnot
              cases hnot
          · rename_i hwaits
            refine .one (.sslShutdown id .pollStep s.pendingWriteLen _) (callShutdown_log id flags _) rfl
              hlive.symm ⟨hclosing, Nat.not_le.mp hearly, Bool.eq_false_iff.mpr herr, Bool.eq_false_iff.mpr hhup,
                Decidable.not_not.mp hbytes, Bool.eq_false_iff.mpr hwaits⟩

theorem handshakeStep_log (id : ℕ) (flags : Flags) (s : SslEventSocket) :
    ∃ es, (s.handshakeStep e id flags).2.log = s.log ++ es ∧ ∀ ev ∈ es, ev.mayFail = false := by
  have hone (ev ev' : Event) (hev : ev.mayFail = false) (hev' : ev'.mayFail = false) :
      ∀ x ∈ [ev, ev'], x.mayFail = false := by
    simp [hev, hev']
  unfold handshakeStep
  split
  · exact ⟨[], (List.append_nil _).symm, by simp⟩
  · split
    · exact ⟨[], (List.append_nil _).symm, by simp⟩
    · dsimp only
      split
      · split
        · exact ⟨[_], rfl, by simp [Event.mayFail]⟩
        · exact ⟨[_, _], List.append_assoc _ [_] [_], by simp [Event.mayFail]⟩
      · split
        · exact ⟨[_], rfl, by simp [Event.mayFail]⟩
        · split
          · exact ⟨[_], rfl, by simp [Event.mayFail]⟩
          · split <;> exact ⟨[_], rfl, by simp [Event.mayFail]⟩

theorem pollStep_issues (flags : Flags) (s : SslEventSocket) :
    Issues s (s.pollStep e flags).2 (s.callsShutdown e flags) := by
  unfold SslEventSocket.pollStep
  cases hlive : s.session with
  | none => exact .skip rfl fun hs => absurd hlive hs.live
  | some id =>
    dsimp only
    split
    · split
      · exact shutdownStep_issues id flags hlive ‹_›
      · rename_i hclosing
        split <;> exact .skip rfl fun _ h => hclosing h.1
    · rename_i hready
      split
      · exact .skip rfl fun hs => absurd hs.ready hready
      · obtain ⟨es, hlog, hes⟩ := handshakeStep_log (e := e) id flags (s.clock e).2
        refine ⟨es, hlog, ?_, fun hs => absurd hs.ready hready⟩
        have hsettles : SettlesDown (es ++ []) := .before List.Pairwise.nil hes
        rwa [List.append_nil] at hsettles

theorem pollTimeoutMs_log (s : SslEventSocket) : (s.pollTimeoutMs e).2.log = s.log := by
  unfold SslEventSocket.pollTimeoutMs
  split
  · rfl
  · split
    · rfl
    · split <;> rfl

theorem pollHasBufferedInput_log (s : SslEventSocket) : (s.pollHasBufferedInput e).2.log = s.log := by
  unfold SslEventSocket.pollHasBufferedInput
  split <;> rfl

theorem setCaFile_log (path : Option String) (s : SslEventSocket) :
    (s.setCaFile e path).2.log = s.log := by
  unfold SslEventSocket.setCaFile
  split
  · rfl
  · dsimp only
    split <;> rfl

theorem setHandshakeTimeout_log (milliseconds : Int) (s : SslEventSocket) :
    (s.setHandshakeTimeout e milliseconds).2.log = s.log := by
  unfold SslEventSocket.setHandshakeTimeout
  split
  · rfl
  · dsimp only
    split <;> rfl

theorem beginGracefulShutdown_log (timeoutMs : Int) (s : SslEventSocket) :
    (s.beginGracefulShutdown e timeoutMs).2.log = s.log := by
  unfold SslEventSocket.beginGracefulShutdown
  split
  · rfl
  · split <;> rfl

theorem queueWrite_issues (data : Option (List UInt8)) (s : SslEventSocket) :
    Issues s (s.queueWrite data).2 False := by
  have hsocket : (s.toEventSocket.queueWrite (!s.shutdownRequested) data).2.log = s.log := by
    rcases s.toEventSocket.queueWrite_cases (!s.shutdownRequested) data with
      he | ⟨he, -⟩ | ⟨-, -, -, -, -, he⟩ <;> rw [he]
    rw [EventSocket.withOutgoing_toSocket]
  unfold SslEventSocket.queueWrite
  dsimp only
  split
  · exact .quiet [.accepted s.session (data.getD [])] (congrArg (· ++ _) hsocket)
      (by simp [Event.drives]) fun _ h => h
  · exact .none hsocket

/-- From `s` to `t` the session goes on, and so does a mark. -/
structure Onward (s t : SslEventSocket) : Prop where
  nextSession : t.nextSession = s.nextSession
  session : t.session = s.session
  marked : s.sslFailed = true → t.sslFailed = true

theorem Onward.trans {u : SslEventSocket} (h : Onward s t) (h' : Onward t u) : Onward s u :=
  ⟨h'.nextSession.trans h.nextSession, h'.session.trans h.session, fun hs => h'.marked (h.marked hs)⟩

theorem clock_onward (s : SslEventSocket) : Onward s (s.clock e).2 := ⟨rfl, rfl, fun h => h⟩

theorem callShutdown_onward (id : ℕ) (flags : Flags) (s : SslEventSocket) :
    Onward s (s.callShutdown e id flags).2 := by
  unfold callShutdown
  dsimp only
  split
  · exact ⟨rfl, rfl, fun h => h⟩
  · split
    · exact ⟨rfl, rfl, fun h => h⟩
    · split
      · split <;> exact ⟨rfl, rfl, fun h => h⟩
      · split
        · exact ⟨rfl, rfl, fun h => h⟩
        · exact ⟨rfl, rfl, fun _ => rfl⟩

theorem shutdownStep_onward (id : ℕ) (flags : Flags) (s : SslEventSocket) :
    Onward s (s.shutdownStep e id flags).2 := by
  unfold shutdownStep
  dsimp only
  split
  · exact ⟨rfl, rfl, fun h => h⟩
  · split
    · split
      · exact ⟨rfl, rfl, fun h => h⟩
      · exact ⟨rfl, rfl, fun _ => rfl⟩
    · split
      · exact ⟨rfl, rfl, fun h => h⟩
      · split
        · exact ⟨rfl, rfl, fun h => h⟩
        · split
          · exact ⟨rfl, rfl, fun h => h⟩
          · exact s.clock_onward.trans (callShutdown_onward id flags _)

theorem handshakeStep_onward (id : ℕ) (flags : Flags) (s : SslEventSocket) :
    Onward s (s.handshakeStep e id flags).2 := by
  unfold handshakeStep
  split
  · exact ⟨rfl, rfl, fun h => h⟩
  · split
    · exact ⟨rfl, rfl, fun h => h⟩
    · dsimp only
      split
      · split <;> exact ⟨rfl, rfl, fun h => h⟩
      · split
        · exact ⟨rfl, rfl, fun h => h⟩
        · split
          · exact ⟨rfl, rfl, fun h => h⟩
          · split <;> exact ⟨rfl, rfl, fun h => h⟩

theorem pollStep_onward (flags : Flags) (s : SslEventSocket) : Onward s (s.pollStep e flags).2 := by
  unfold SslEventSocket.pollStep
  split
  · exact ⟨rfl, rfl, fun h => h⟩
  · dsimp only
    split
    · split
      · exact shutdownStep_onward _ flags s
      · split
        · exact ⟨rfl, rfl, fun _ => rfl⟩
        · exact ⟨rfl, rfl, fun h => h⟩
    · split
      · exact ⟨rfl, rfl, fun h => h⟩
      · exact s.clock_onward.trans (handshakeStep_onward _ flags _)

theorem pollReceive_onward (room : ℕ) (s : SslEventSocket) : Onward s (s.pollReceive e room).2 := by
  unfold SslEventSocket.pollReceive
  dsimp only
  split
  · exact ⟨rfl, rfl, fun h => h⟩
  · split
    · exact ⟨rfl, rfl, fun h => h⟩
    · split
      · exact ⟨rfl, rfl, fun h => h⟩
      · split
        · split <;> exact ⟨rfl, rfl, fun h => h⟩
        · split
          · exact ⟨rfl, rfl, fun h => h⟩
          · exact ⟨rfl, rfl, fun _ => rfl⟩

theorem afterWrite_onward (data : List UInt8) (queued : Bool) (answer : SslResult)
    (s : SslEventSocket) : Onward s (s.afterWrite data queued answer).2 := by
  unfold afterWrite
  split
  · exact ⟨rfl, rfl, fun h => h⟩
  · split
    · dsimp only
      split <;> exact ⟨rfl, rfl, fun h => h⟩
    · exact ⟨rfl, rfl, fun _ => rfl⟩

theorem sendTls_onward (data : List UInt8) (queued : Bool) (s : SslEventSocket) :
    Onward s (s.sendTls e data queued).2 := by
  rcases s.sendTls_cases (e := e) data queued with ⟨heq, -⟩ | ⟨heq, -⟩ | ⟨heq, -⟩ |
    ⟨id, requested, -, -, -, -, -, -, -, heq⟩
  · exact heq ▸ ⟨rfl, rfl, fun h => h⟩
  · exact heq ▸ ⟨rfl, rfl, fun h => h⟩
  · exact heq ▸ ⟨rfl, rfl, fun h => h⟩
  · rw [heq]
    have hwritten := afterWrite_onward requested queued (e.sslWrite s.tick requested.length)
      (s.ticked.record (.sslWrite id (origin queued) requested (e.sslWrite s.tick requested.length)
        (s.pendingWriteLen ≠ 0) (if queued then 0 else s.queuedBytes)))
    exact ⟨hwritten.nextSession, hwritten.session, hwritten.marked⟩

/-- The session is not one to come, and it is marked as long as it lasts. -/
structure Marked (id : ℕ) (s : SslEventSocket) : Prop where
  made : id < s.nextSession
  marked : s.session = some id → s.sslFailed = true

namespace Marked

variable {id : ℕ}

theorem onward (hs : Marked id s) (h : Onward s t) : Marked id t :=
  ⟨h.nextSession ▸ hs.made, fun ht => h.marked (hs.marked (h.session ▸ ht))⟩

theorem closed (hs : Marked id s) : Marked id (s.close e).2 := by
  have hmade : (s.close e).2.nextSession = s.nextSession := by
    unfold SslEventSocket.close sendAlert SslEventSocket.freeSession
    dsimp only
    repeat' split
    all_goals rfl
  refine ⟨hmade ▸ hs.made, fun ht => ?_⟩
  rw [s.close_none.1] at ht
  cases ht

theorem upheld : Upheld e (fun s => s.view.Reachable) (Marked id) where
  base _ _ _ hs := hs.onward ⟨rfl, rfl, fun h => h⟩
  notice _ _ _ hs := hs.onward ⟨rfl, rfl, fun h => h⟩
  settings _ _ _ _ _ hs := hs.onward ⟨rfl, rfl, fun h => h⟩
  modeChanged _ hs := hs.onward ⟨rfl, rfl, fun h => h⟩
  setMaxQueuedBytes _ _ hs := hs.onward ⟨rfl, rfl, fun h => h⟩
  close _ hs := hs.closed
  pollStep flags s hs := hs.onward (s.pollStep_onward flags)
  pollReceive s room hs := hs.onward (s.pollReceive_onward room)
  sendTls data s hs := hs.onward (s.sendTls_onward data false)
  queueWrite data s _ hs := by
    refine hs.onward ?_
    unfold SslEventSocket.queueWrite
    dsimp only
    split <;> exact ⟨rfl, rfl, fun h => h⟩
  flushQueued s _ hs := by
    have hstate := flushQueued_keeps (t := transport e) (I := Marked id)
      (fun data u hu => hu.onward (u.sendTls_onward data true)) sendBudget s.toEventSocket s hs
    unfold SslEventSocket.flushQueued flushed
    dsimp only
    split <;> exact hstate.onward ⟨rfl, rfl, fun h => h⟩
  beginGracefulShutdown timeoutMs s hs := by
    refine hs.onward ?_
    unfold SslEventSocket.beginGracefulShutdown
    split
    · exact ⟨rfl, rfl, fun h => h⟩
    · split <;> exact ⟨rfl, rfl, fun h => h⟩
  startClient identity s hr hs := by
    have hle : s.nextSession ≤ (s.startClient e identity).2.nextSession :=
      (startClient_refines (e := e) identity s hr.sound).fresh_le
    refine ⟨lt_of_lt_of_le hs.made hle, fun ht => ?_⟩
    rcases s.startClient_ends (e := e) identity with ⟨u, hu⟩ | hopened
    · rw [hu, u.close_none.1] at ht
      cases ht
    · exact absurd (Option.some.inj (hopened.session.symm.trans ht)) (Nat.ne_of_gt hs.made)

end Marked

end SslEventSocket

end Aeon
