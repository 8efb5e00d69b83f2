import Aeon.PollWakeups
import Aeon.SeparatePrograms

/-!
# Readable sessions that `poll` leaves alone

`POLLIN` is always asked for.  A session whose last write wants to read is not
read before that write goes on, and only the queue of a nonblocking socket is
flushed by `poll`.
-/

namespace Aeon

open Program Reentrant History EventWorld EventLoop

/-- The last `SSL_write` is read off the writes of the session. -/
theorem Event.writeAnswer_eq (id : ℕ) (ev : Event) :
    ev.writeAnswer id = (ev.writeOf id).map fun write => write.2.2 := by
  cases ev with
  | sslWrite i origin data result =>
    show (if i = id then some result else none) = (if i = id then some _ else none).map _
    split <;> rfl
  | _ => rfl

/-- An `SSL_read` or an `SSL_write` of the session. -/
def Event.transfers (id : ℕ) : Event → Bool
  | .sslRead i _ _ => i = id
  | .sslWrite i _ _ _ _ _ => i = id
  | _ => false

theorem SslResult.wants_of_wantsRead {r : SslResult} (h : r.wantsRead = true) : r.wants = true := by
  simp only [wantsRead, Bool.and_eq_true, beq_iff_eq] at h
  simp [wants, h.1, h.2]

namespace SslEventSocket

variable {e : TlsHost} {id : ℕ} {s t : SslEventSocket} {flags : Flags}

/-- The history of `t` goes on from that of `s` with a call on the session. -/
def Calls (id : ℕ) (s t : SslEventSocket) : Prop :=
  ∃ es ev, Event.transfers id ev = true ∧ s.log ++ es ++ [ev] <+: t.log

/-- The session is not read because its last write wants to read, and `poll` does
not go on with that write: it is a direct one, or the socket is blocking. -/
def stalls (flags : Flags) (s : SslEventSocket) : Bool :=
  s.sendNeedRead && (s.directRetry || s.blocking) && !(s.recvNeedWrite && flags.pollout)

/-- A session whose last write wants to read owes that write. -/
theorem Directed.owes (hs : s.Directed) (hr : s.view.Reachable) (hlive : s.session = some id)
    (hsend : s.sendNeedRead = true) : ∃ origin data, s.view.Owes origin data := by
  have hlast : (latest (Event.writeAnswer id) s.log).any SslResult.wantsRead = true :=
    (hs id hlive).write.symm.trans hsend
  have hanswers : latest (Event.writeAnswer id) s.log =
      (latest (Event.writeOf id) s.log).map fun write => write.2.2 := by
    rw [← latest_map, funext (Event.writeAnswer_eq id)]
  obtain ⟨result, hresult, hwants⟩ := (Option.any_eq_true _ _).mp hlast
  obtain ⟨⟨origin, data, result'⟩, hwrite, rfl⟩ :=
    Option.map_eq_some_iff.mp (hanswers.symm.trans hresult)
  have howed : owed id s.view.log = some (origin, data) := by
    have hview : latest (Event.writeOf id) s.view.log = some (origin, data, result') := hwrite
    rw [owed, hview]
    exact if_pos (SslResult.wants_of_wantsRead hwants)
  exact ⟨origin, data, (hr.retryInv.record id hlive).something origin data howed⟩

/-- If it is not a direct one, its bytes are queued. -/
theorem Directed.queued (hs : s.Directed) (hr : s.view.Reachable) (hlive : s.session = some id)
    (hsend : s.sendNeedRead = true) (hdirect : s.directRetry = false) : s.queuedBytes ≠ 0 := by
  obtain ⟨origin, data, howes⟩ := hs.owes hr hlive hsend
  have hretry : s.pendingWriteLen ≠ 0 := by
    rw [show s.pendingWriteLen = data.length from howes.length]
    exact fun hnil => howes.nonempty (List.length_eq_zero_iff.mp hnil)
  have hqueued : s.pendingWriteQueued = true := by
    simpa [directRetry, hretry] using hdirect
  obtain ⟨-, front, rest, more, hchunks, -⟩ := howes.kept (howes.queued.mp hqueued)
  have hq : s.outgoing.Valid := hr.sound.queue
  intro hzero
  have hnil : s.outgoing.pending = [] :=
    List.length_eq_zero_iff.mp (hq.bytes_eq.symm.trans hzero)
  have hnone : s.outgoing.chunks = [] := hq.tight.eq_nil hnil
  exact List.cons_ne_nil front rest (hchunks.symm.trans hnone)

/-- `poll_step` lets application data move when no shutdown is pending. -/
theorem pollStep_open (hlive : s.session = some id) (hready : s.tlsReady = true)
    (hopen : s.shutdownRequested = false) (hquiet : (flags.pollerr || flags.pollnval) = false) :
    s.pollStep e flags = (1, s) := by
  unfold pollStep
  rw [hlive]
  simp only [hready, hopen, hquiet, if_true, Bool.false_eq_true, if_false]

/-- Everything that has been done keeps a call. -/
theorem Calls.mono {u : SslEventSocket} (h : Calls id s u) (hlog : u.log <+: t.log) :
    Calls id s t := by
  obtain ⟨es, ev, hev, hu⟩ := h
  exact ⟨es, ev, hev, hu.trans hlog⟩

theorem Calls.of_makes (h : Makes id s t .write) : Calls id s t := by
  obtain ⟨es, data, result, retry, -, -, -, hlog⟩ := h
  have hev : Event.transfers id (.sslWrite id .queued data result retry 0) = true :=
    decide_eq_true rfl
  exact ⟨es, _, hev, hlog⟩

theorem not_calls_of_log (hlog : t.log = s.log) : ¬Calls id s t := by
  rintro ⟨es, ev, -, hpre⟩
  have hlen := hpre.length_le
  rw [hlog, List.length_append, List.length_append, List.length_singleton] at hlen
  omega

end SslEventSocket

open SslEventSocket

namespace At

variable {h : LoopHost} {cb : EventNote → Code EventWorld Unit} {id : ℕ} {p : Watch}
variable {ps : List Watch} {s t : SslEventSocket} {flags : Flags} {E : Halt → EventWorld → Prop}

/-- The object of `flush_queued` is as it was while its socket is blocking. -/
theorem flushQueued_blocking {e : NetHost} (hmode : s.blocking = true) :
    (EventObject.tls s).flushQueued e = ({}, .tls s) := by
  have hflush : s.flushQueued e.tls sendBudget = ({}, s) := by
    unfold SslEventSocket.flushQueued EventSocket.flushQueued
    rw [if_pos (by simp [hmode])]
    rfl
  unfold EventObject.flushQueued EventObject.flush
  dsimp only
  rw [hflush]
  rfl

/-- Nothing is read unless there is something to read. -/
theorem no_read {pending : Pending} (hnoread : s.pollReadReady flags = false)
    (hquiet : (flags.pollerr || flags.pollnval) = false) :
    Triple (At p s) (dispatchRead h cb pending p flags) (fun n w => n = 0 ∧ At p s w) E := by
  refine Triple.bind_value (look fun o => o.pollReadReady flags) ?_
  refine .ite (fun hyes => absurd (hnoread.symm.trans hyes) Bool.false_ne_true) fun _ => ?_
  refine .ite (fun hloud => absurd (hquiet.symm.trans hloud) Bool.false_ne_true) fun _ => ?_
  exact .ret fun _ hw => ⟨rfl, hw⟩

/-- A stalled session gets nothing from a dispatch, which counts no event. -/
theorem stalls (hudp : p.udp = false) (hfd : s.sockfd = some p.fd) (hlive : s.session = some id)
    (hready : s.tlsReady = true) (hopen : s.shutdownRequested = false) (hin : flags.pollin = true)
    (hquiet : (flags.pollerr || flags.pollnval) = false) (hstalls : s.stalls flags = true) :
    Triple (At p s) (EventLoop.dispatch h cb ps p flags) (fun n w => n = 0 ∧ At p s w) E := by
  have hany : flags.any = true := by simp [Flags.any, hin]
  simp only [SslEventSocket.stalls, Bool.and_eq_true, Bool.or_eq_true, Bool.not_eq_true'] at hstalls
  obtain ⟨⟨hsend, hwhy⟩, hrecv⟩ := hstalls
  have hnoread : s.pollReadReady flags = false := by
    rw [pollReadReady, hsend, hrecv]
    rfl
  have hqueue : Triple (At p s) (dispatchQueue h cb ps p flags)
      (fun n w => n = 0 ∧ At p s w) E := by
    refine Triple.bind_value (currentAnd hfd false fun o => o.pollQueueReady flags) ?_
    refine .ite (fun _ => .ret fun _ hw => ⟨rfl, hw⟩) fun hgo => ?_
    have hretry : s.directRetry = false := by
      by_contra hdirect
      refine hgo ?_
      show (!s.pollQueueReady flags) = true
      rw [pollQueueReady, if_pos ((Bool.not_eq_false _).mp hdirect)]
      rfl
    have hmode : s.blocking = true := hwhy.resolve_left (by simp [hretry])
    refine Triple.bind_value (use (flushQueued_blocking hmode)) ?_
    refine .ite (fun hbad => absurd rfl hbad) fun _ => ?_
    refine .ite (fun hdrained => absurd hdrained Bool.false_ne_true) fun _ => ?_
    exact .ret fun _ hw => ⟨rfl, hw⟩
  refine dispatch hudp hfd hany (stream_of_pass (pollStep_open hlive hready hopen hquiet) ?_)
  refine Triple.bind_value (no_read hnoread hquiet) (Triple.bind_value hqueue ?_)
  exact .ret fun _ hw => ⟨rfl, hw⟩

theorem left_alone {w : EventWorld} (hw : At p s w) (hudp : p.udp = false)
    (hfd : s.sockfd = some p.fd) (hlive : s.session = some id) (hready : s.tlsReady = true)
    (hopen : s.shutdownRequested = false) (hin : flags.pollin = true)
    (hquiet : (flags.pollerr || flags.pollnval) = false) (hstalls : s.stalls flags = true)
    (ht : (EventLoop.dispatch h cb ps p flags w).2.find p.socket = some (.tls t)) :
    (EventLoop.dispatch h cb ps p flags w).1 = .ok 0 ∧ t = s := by
  have hrun : Triple (At p s) (EventLoop.dispatch h cb ps p flags) (fun n w => n = 0 ∧ At p s w)
      fun _ _ => False := stalls hudp hfd hlive hready hopen hin hquiet hstalls
  have hdone := hrun w hw
  revert hdone ht
  rcases EventLoop.dispatch h cb ps p flags w with ⟨_ | n, w'⟩
  · exact fun _ hdone => hdone.elim
  · rintro ht ⟨rfl, hend⟩
    exact ⟨rfl, EventObject.tls.inj (Option.some.inj (ht.symm.trans hend.object))⟩

/-- A session that is not stalled is read, or else its queue is flushed. -/
theorem serves (hcb : ∀ es n, Keeps (Goes p.socket es) (cb n)) (hdirected : s.Directed)
    (hr : s.view.Reachable) (hudp : p.udp = false) (hfd : s.sockfd = some p.fd)
    (hlive : s.session = some id) (hready : s.tlsReady = true) (hopen : s.shutdownRequested = false)
    (hin : flags.pollin = true) (hquiet : (flags.pollerr || flags.pollnval) = false)
    (hstalls : s.stalls flags = false) :
    Triple (At p s) (EventLoop.dispatch h cb ps p flags)
      (fun _ w => ∃ u, Calls id s u ∧ Goes p.socket u.log w)
      fun _ w => ∃ u, Calls id s u ∧ Goes p.socket u.log w := by
  have hany : flags.any = true := by simp [Flags.any, hin]
  refine dispatch hudp hfd hany (stream_of_pass (pollStep_open hlive hready hopen hquiet) ?_)
  cases hread : s.pollReadReady flags with
  | true =>
    obtain ⟨u, hu, hreach, hlog, -⟩ := receives hlive hready hr (e := h.objects p.socket)
    have hmade : Calls id s u := by
      refine ⟨[], _, ?_, (List.append_nil s.log).symm ▸ hlog⟩
      exact decide_eq_true rfl
    have hI := (Goes.objective h p.socket u.log).undialled.global
    have hall : Triple (At p s) (do
        let read ← dispatchRead h cb ((p, false) :: later ps) p flags
        let flushed ← dispatchQueue h cb ps p flags
        return read + flushed) (fun _ => Goes p.socket u.log) fun _ => Goes p.socket u.log := by
      refine Triple.bind (read_goes hcb _ hread hu hreach.sound) fun read => ?_
      exact .after ((hI.dispatchQueue (hcb _) trivial ps _).bind fun _ => .pure _)
    exact hall.mono (fun _ hw => hw) (fun _ _ hw => ⟨u, hmade, hw⟩) fun _ _ hw => ⟨u, hmade, hw⟩
  | false =>
    -- the last write wants to read, and is one that `poll` may go on with
    simp only [pollReadReady, hin, Bool.or_eq_false_iff, Bool.true_or, Bool.and_true,
      Bool.not_eq_false'] at hread
    obtain ⟨hsend, hrecv⟩ := hread
    simp only [SslEventSocket.stalls, hsend, hrecv, Bool.true_and, Bool.not_false, Bool.and_true,
      Bool.or_eq_false_iff] at hstalls
    obtain ⟨hdirect, hmode⟩ := hstalls
    have hnoread : s.pollReadReady flags = false := by
      rw [pollReadReady, hsend, hrecv]
      rfl
    have hself : Flushing id p.fd s s :=
      ⟨hr, hlive, hready, hdirect, hmode, hfd, rfl, rfl, [], by simp, (List.append_nil _).symm⟩
    have hskip : Triple (At p s) (dispatchRead h cb ((p, false) :: later ps) p flags)
        (fun n w => n = 0 ∧ At p s w) fun _ w => ∃ u, Calls id s u ∧ Goes p.socket u.log w :=
      no_read hnoread hquiet
    refine Triple.bind_value hskip (Triple.bind (Q := fun _ w => ∃ u, Calls id s u ∧
      Goes p.socket u.log w) ?_ fun _ => .ret fun _ hw => hw)
    refine (queue_flushes hcb hself (hdirected.queued hr hlive hsend hdirect) ?_).mono
      (fun _ hw => hw) ?_ ?_
    · rw [if_pos hsend]
      exact hin
    · rintro _ w ⟨u, hmade, hgoes⟩
      exact ⟨u, .of_makes hmade, hgoes⟩
    · rintro _ w ⟨u, hmade, hgoes⟩
      exact ⟨u, .of_makes hmade, hgoes⟩

end At

section Programs

variable {h : LoopHost} {fuel id i tick : ℕ} {w w' : EventWorld} {s t : SslEventSocket} {p : Watch}
variable {ps : List Watch} {flags : Flags} {cb : EventNote → Code EventWorld Unit}

/-- In every program, a session that is reported as readable is read or written,
unless it is stalled.  Then nothing happens to it, and `poll` has handled nothing.
Since the operation before `poll`, the object may have read the clock. -/
theorem readable_served_iff (hw : Reaches h fuel w) (hs : w.find i = some (.tls s))
    (hready : s.tlsReady = true) (hopen : s.shutdownRequested = false)
    (real : Realizable (system h fuel) (fun _ _ => True) (fun _ _ => True) cb)
    (hat : At p (s.later tick) w') (hudp : p.udp = false) (hfd : s.sockfd = some p.fd)
    (hin : flags.pollin = true) (herr : flags.pollerr = false) (hnval : flags.pollnval = false)
    (ht : (dispatch h cb ps p flags w').2.find p.socket = some (.tls t)) :
    ∃ id, s.session = some id ∧ (Calls id s t ↔ s.stalls flags = false) ∧
      (s.stalls flags = true → (dispatch h cb ps p flags w').1 = .ok 0 ∧ t = s.later tick) := by
  have hquiet : (flags.pollerr || flags.pollnval) = false := by rw [herr, hnval]; rfl
  have hr : s.view.Reachable := hw.modelled hs
  have hr' : (s.later tick).view.Reachable := hr
  have hdirected : (s.later tick).Directed := (hw.directed hs).same rfl
  have hsettled : s.Settled := hw.carried (settled_carried h) hs
  obtain ⟨id, hlive⟩ : ∃ id, s.session = some id := by
    refine Option.ne_none_iff_exists'.mp fun hnone => ?_
    exact Bool.false_ne_true ((hsettled.ended hnone).1.symm.trans hready)
  have hstalled (hstalls : s.stalls flags = true) :
      (dispatch h cb ps p flags w').1 = .ok 0 ∧ t = s.later tick :=
    hat.left_alone hudp hfd hlive hready hopen hin hquiet hstalls ht
  refine ⟨id, hlive, ⟨fun hcalls => ?_, fun hstalls => ?_⟩, hstalled⟩
  · by_contra hyes
    obtain ⟨-, rfl⟩ := hstalled ((Bool.not_eq_false _).mp hyes)
    exact not_calls_of_log rfl hcalls
  · have hrun : Triple (At p (s.later tick)) (dispatch h cb ps p flags)
        (fun _ w => ∃ u, Calls id (s.later tick) u ∧ Goes p.socket u.log w)
        fun _ w => ∃ u, Calls id (s.later tick) u ∧ Goes p.socket u.log w :=
      At.serves (fun es n => (Goes.objective h p.socket es).handlers real n) hdirected hr' hudp hfd
        hlive hready hopen hin hquiet hstalls
    have hdone := hrun w' hat
    have hend {u : SslEventSocket} {w'' : EventWorld} (hu : Calls id (s.later tick) u)
        (hgoes : Goes p.socket u.log w'') (ht : w''.find p.socket = some (.tls t)) : Calls id s t :=
      hu.mono (hgoes.log t ht).2
    revert hdone ht
    rcases dispatch h cb ps p flags w' with ⟨_ | n, w''⟩
    · rintro ht ⟨u, hu, hgoes⟩
      exact hend hu hgoes ht
    · rintro ht ⟨u, hu, hgoes⟩
      exact hend hu hgoes ht

theorem unwritable_le (_ length : ℕ) :
    ({ ret := -1, code := .wantRead } : SslResult).ret ≤ length := by
  show (-1 : Int) ≤ length
  omega

/-- A host on which every `SSL_write` waits for the peer to write first, and every
watched descriptor is ready for all that is asked. -/
def unwritable : LoopHost where
  objects _ := ⟨{ TlsHost.steady with
    sslWrite _ _ := { ret := -1, code := .wantRead }
    sslWrite_le := unwritable_le }, .steady⟩
  poll _ watched _ := (⟨watched.length, 0⟩, watched.map fun p => { pollin := true, pollout := p.2 })
  now _ := 0
  getsockopt _ := ⟨0, 0⟩
  recvfrom _ _ := (⟨0, 0⟩, [], .other)

/-- The watch that `poll` has of the client of these runs. -/
def readableWatch : Watch := ⟨0, 0, false, 3, false, 2⟩

/-- A client whose direct write waits for the peer. -/
def waiting : EventWorld := after unwritable 1 (connected ++ [.write 0 (.sized (some [1]))])

/-- The same when its write is sent at once. -/
def served : EventWorld :=
  after (.same ⟨.steady, .steady⟩ { pollin := true, pollout := true }) 1
    (connected ++ [.write 0 (.sized (some [1]))])

theorem readable_served_steady :
    let h : LoopHost := .same ⟨.steady, .steady⟩ { pollin := true, pollout := true }
    ∃ s t, served.find 0 = some (.tls s) ∧
      (dispatch h (fun _ => pure ()) [] readableWatch .readable served).2.find 0 = some (.tls t) ∧
      Calls 0 s t := by
  intro h
  obtain ⟨s, hs, hp⟩ := exists_of_tlsIs 0 (w := served) (p := fun s => s.session = some 0 ∧
    s.tlsReady = true ∧ s.shutdownRequested = false ∧ s.sockfd = some 3 ∧
    s.stalls .readable = false) (by decide +kernel)
  obtain ⟨hlive, hready, hopen, hfd, hgo⟩ := of_decide_eq_true hp
  obtain ⟨t, ht, -⟩ := exists_of_tlsIs 0
    (w := (dispatch h (fun _ => pure ()) [] readableWatch .readable served).2)
    (p := fun _ => true) (by decide +kernel)
  have hat : At readableWatch (s.later s.tick) served := ⟨hs, by decide +kernel⟩
  have hw : Reaches h 1 served := reaches_after _ _ _
  obtain ⟨id, hid, hiff, -⟩ := readable_served_iff hw hs hready hopen (.idle _ _ _) hat rfl hfd
    rfl rfl rfl ht
  obtain rfl : id = 0 := Option.some.inj (hid.symm.trans hlive)
  exact ⟨s, t, hs, ht, hiff.mpr hgo⟩

/-- Nobody goes on with the write of this client, and its input is left alone:
`poll` without a timeout returns at once and has handled nothing, again and again. -/
theorem readable_left_alone :
    (¬∀ (h : LoopHost) (fuel id i : ℕ) (w : EventWorld) (s t : SslEventSocket) (p : Watch)
      (flags : Flags), Reaches h fuel w → w.find i = some (.tls s) → s.session = some id →
      s.tlsReady = true → s.shutdownRequested = false → At p s w → p.udp = false →
      s.sockfd = some p.fd → flags.pollin = true → flags.pollerr = false →
      flags.pollnval = false →
      (dispatch h (fun _ => pure ()) [] p flags w).2.find p.socket = some (.tls t) →
      Calls id s t) ∧
    (poll unwritable (fun _ => pure ()) 1 (-1) waiting).1 = .ok 0 ∧
      (poll unwritable (fun _ => pure ()) 1 (-1)
        (poll unwritable (fun _ => pure ()) 1 (-1) waiting).2).1 = .ok 0 := by
  refine ⟨fun hall => ?_, by decide +kernel, by decide +kernel⟩
  obtain ⟨s, hs, hp⟩ := exists_of_tlsIs 0 (w := waiting) (p := fun s => s.session = some 0 ∧
    s.tlsReady = true ∧ s.shutdownRequested = false ∧ s.sockfd = some 3 ∧
    s.stalls .readable = true) (by decide +kernel)
  obtain ⟨hlive, hready, hopen, hfd, hstalls⟩ := of_decide_eq_true hp
  obtain ⟨t, ht, -⟩ := exists_of_tlsIs 0
    (w := (dispatch unwritable (fun _ => pure ()) [] readableWatch .readable waiting).2)
    (p := fun _ => true) (by decide +kernel)
  have hat : At readableWatch s waiting := ⟨hs, by decide +kernel⟩
  obtain ⟨-, rfl⟩ := hat.left_alone rfl hfd hlive hready hopen rfl rfl hstalls ht
  have hcalls := hall unwritable 1 0 0 waiting t t readableWatch .readable (reaches_after _ _ _) hs
    hlive hready hopen hat rfl hfd rfl rfl rfl ht
  exact not_calls_of_log rfl hcalls

end Programs

end Aeon
