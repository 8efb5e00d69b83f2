import Aeon.PollRegistry
import Aeon.SessionWakeups

/-!
# No lost wakeups

Every call that a session still has to make waits for readiness that `poll` asks
for, and once `poll` is told of it alone, it makes the call.
-/

namespace Aeon

open Program Reentrant History EventWorld EventLoop SslEventSocket

/-- The history of a TLS object begins like this, as long as the object is there. -/
structure Goes (id : ℕ) (es : List Event) (w : EventWorld) : Prop where
  lt : id < w.objects.length
  log : ∀ t, w.find id = some (.tls t) → t.view.Sound ∧ es <+: t.log

theorem Goes.objective (h : LoopHost) (id : ℕ) (es : List Event) : Objective h (Goes id es) where
  object w i o o' ho hstep hw := by
    refine ⟨by simpa [EventWorld.store] using hw.lt, fun t ht => ?_⟩
    by_cases hi : id = i
    · subst hi
      obtain rfl := Option.some.inj ((find_store_same ho).symm.trans ht)
      obtain ⟨s, rfl⟩ := EventObject.exists_of_cls hstep.cls.symm
      obtain ⟨hsound, hlog⟩ := hw.log s ho
      obtain ⟨t', ht', hsteps⟩ := hstep.tls_steps hsound
      obtain rfl := EventObject.tls.inj ht'
      obtain ⟨more, hmore⟩ := hsteps.extends
      have hmore' : t.log = s.log ++ more := hmore
      exact ⟨hsteps.sound hsound, hlog.trans (hmore' ▸ List.prefix_append _ _)⟩
    · rw [find_store_ne hi] at ht
      exact hw.log t ht
  made w o _ hw := by
    refine ⟨by simpa using Nat.lt_succ_of_lt hw.lt, fun t ht => hw.log t ?_⟩
    simpa [EventWorld.find, List.getElem?_append_left hw.lt] using ht
  forget w i _ hw := ⟨by simpa using hw.lt, fun t ht => hw.log t (find_forget ht)⟩
  added w i hw := by
    have hobjects := add_objects i w
    refine ⟨by rw [hobjects]; exact hw.lt, fun t ht => hw.log t ?_⟩
    rwa [EventWorld.find, hobjects] at ht
  removed _ _ _ hw := ⟨hw.lt, hw.log⟩
  objects w w' he hw := by
    refine ⟨he ▸ hw.lt, fun t ht => hw.log t ?_⟩
    rwa [EventWorld.find, he] at ht

/-- What the operations keep, their handlers keep. -/
theorem Objective.handlers {h : LoopHost} {fuel : ℕ} {I : EventWorld → Prop}
    {cb : EventNote → Code EventWorld Unit} (hI : Objective h I)
    (real : Realizable (system h fuel) (fun _ _ => True) (fun _ _ => True) cb) (n : EventNote) :
    Keeps I (cb n) :=
  real.keeps (fun o _ _ hcb t _ => hI.execSystem hcb o t) n

/-- The watched object is a TLS object in the state `s`, and its token is active. -/
structure At (p : Watch) (s : SslEventSocket) (w : EventWorld) : Prop where
  object : w.find p.socket = some (.tls s)
  active : w.active p.token = true

/-- The handlers that are told of the notice leave the object and its token alone. -/
def Gentle (cb : EventNote → Code EventWorld Unit) (p : Watch) (n : Notice) : Prop :=
  ∀ level w, (cb ⟨level, p.socket, n⟩ w).1 = .ok () ∧
    (cb ⟨level, p.socket, n⟩ w).2.find p.socket = w.find p.socket ∧
    (cb ⟨level, p.socket, n⟩ w).2.active p.token = w.active p.token

/-- A read that comes before the write in the same dispatch has failed, or its
handlers do something to the object. -/
def Intervenes (cb : EventNote → Code EventWorld Unit) (p : Watch) (id : ℕ)
    (s t : SslEventSocket) : Prop :=
  ∃ result retry, s.log ++ [.sslRead id result retry] <+: t.log ∧
    (result.fails = true ∨ 0 < result.ret ∧ ¬Gentle cb p (.data result.data))

namespace SslEventSocket

variable {e : NetHost} {id fd : ℕ} {s t u : SslEventSocket}

/-- A call that has been made stays made. -/
theorem Makes.mono {call : TlsCall} (h : Makes id s u call) (hlog : u.log <+: t.log) :
    Makes id s t call := by
  cases call with
  | handshake =>
    obtain ⟨done, strict, verified, answer, hu⟩ := h
    exact ⟨done, strict, verified, answer, hu.trans hlog⟩
  | write =>
    obtain ⟨es, data, result, retry, hes, hne, hdata, hu⟩ := h
    exact ⟨es, data, result, retry, hes, hne, hdata, hu.trans hlog⟩
  | read =>
    obtain ⟨result, retry, hu⟩ := h
    exact ⟨result, retry, hu.trans hlog⟩
  | shutdown =>
    obtain ⟨outstanding, answer, hu⟩ := h
    exact ⟨outstanding, answer, hu.trans hlog⟩

/-- A `poll_receive` with the news of what it has received. -/
theorem receives (hlive : s.session = some id) (hready : s.tlsReady = true) (hr : s.view.Reachable) :
    ∃ u, (EventObject.tls s).pollReceive e = ((s.pollReceive e.tls Socket.maxBufferSize).1, .tls u) ∧
      u.view.Reachable ∧
      s.log ++ [.sslRead id (e.tls.sslRead s.tick Socket.maxBufferSize) s.directRetry] <+: u.log ∧
      ∀ fd old, Flushing id fd old s → Flushing id fd old u := by
  have hspec := s.pollReceive_spec (e := e.tls) Socket.maxBufferSize
  have hread := (pollReceive_refines (e := e.tls) Socket.maxBufferSize).reachable hr
  have hlog := congr_arg Session.log (pollReceive_view (e := e.tls) Socket.maxBufferSize hlive hready)
  have hlog' : (s.pollReceive e.tls Socket.maxBufferSize).2.log =
    s.log ++ [.sslRead id (e.tls.sslRead s.tick Socket.maxBufferSize) s.directRetry] := hlog
  unfold EventObject.pollReceive
  dsimp only
  split
  · refine ⟨_, rfl, hread.steps (notify_ready ?_ (hspec.tlsReady.trans hready) (.inl ⟨_, rfl⟩)), ?_,
      fun _ old hold => (hold.receive _).notice _⟩
    · rw [hspec.session, hlive]
      exact Option.some_ne_none id
    · rw [← hlog']
      exact List.prefix_append _ _
  · exact ⟨_, rfl, hread, hlog' ▸ List.prefix_rfl, fun _ old hold => (hold.receive _)⟩

/-- A `flush_queued` that calls `SSL_write`. -/
theorem flushes {old : SslEventSocket} (hf : Flushing id fd old s) (hbytes : old.queuedBytes ≠ 0) :
    ∃ r u, (EventObject.tls s).flushQueued e = (r, .tls u) ∧ u.view.Sound ∧ Makes id old u .write := by
  have hmade := hf.flush (e := e.tls) hbytes
  have hflush := (flushQueued_refines (e := e.tls)).reachable hf.reachable
  unfold EventObject.flushQueued
  dsimp only
  split
  · obtain ⟨hlive, hready⟩ := flushQueued_drained (e := e.tls) (s := s) ‹_›
    exact ⟨_, _, rfl, (hflush.steps (notify_ready hlive hready (.inr rfl))).sound,
      hmade.mono (List.prefix_append _ _)⟩
  · exact ⟨_, _, rfl, hflush.sound, hmade⟩

end SslEventSocket

namespace At

variable {α : Type} {h : LoopHost} {cb : EventNote → Code EventWorld Unit} {fuel id : ℕ}
variable {p : Watch} {ps : List Watch} {s t u : SslEventSocket} {w : EventWorld} {es : List Event}
variable {E : Halt → EventWorld → Prop} {flags : Flags} {r : IoResult × List UInt8}

theorem goes (hw : At p s w) (hs : s.view.Sound) (hlog : es <+: s.log) : Goes p.socket es w := by
  refine ⟨lt_of_find hw.object, fun t ht => ?_⟩
  obtain rfl : s = t := EventObject.tls.inj (Option.some.inj (hw.object.symm.trans ht))
  exact ⟨hs, hlog⟩

theorem use {a : α} {ev : ℕ → PollEvent} {f : EventObject → α × EventObject}
    (hf : f (.tls s) = (a, .tls u)) :
    Triple (At p s) (EventWorld.use p.token p.socket ev f) (fun b w => b = a ∧ At p u w) E := by
  intro w hw
  rw [EventWorld.use, hw.object]
  dsimp only
  rw [hf]
  exact ⟨rfl, find_store_same hw.object, hw.active⟩

theorem look (g : EventObject → α) :
    Triple (At p s) (EventWorld.look p.token p.socket fun o => (g o, o))
      (fun b w => b = g (.tls s) ∧ At p s w) E := use rfl

theorem currentAnd (hfd : s.sockfd = some p.fd) (none : α) (g : EventObject → α) :
    Triple (At p s) (EventLoop.currentAnd p none fun o => (g o, o))
      (fun b w => b = g (.tls s) ∧ At p s w) E := by
  have hon : Triple (At p s) (getIfActive p.token) (fun b w => b = true ∧ At p s w) E :=
    fun w hw => ⟨hw.active, hw⟩
  refine Triple.bind_value hon ?_
  refine Triple.bind_value (look fun o => o.base.sockfd == some p.fd) ?_
  have hsame : ((EventObject.tls s).base.sockfd == some p.fd) = true := beq_iff_eq.mpr hfd
  rw [hsame]
  exact look g

theorem note (ev : PollEvent) :
    Triple (At p s) (EventWorld.note ev) (fun _ => At p s) E := fun _ hw => ⟨hw.object, hw.active⟩

/-- A handler that leaves the object alone. -/
theorem callback {n : Notice} (hn : Gentle cb p n) (pending : Pending) (level : CallbackLevel) :
    Triple (At p s) (EventLoop.callback cb pending p level n) (fun _ => At p s) E := by
  refine (note _).bind fun _ => Triple.bind (Q := fun _ => At p s) (fun w hw => ?_) fun _ => ?_
  · obtain ⟨hok, hobject, hactive⟩ := hn level w
    rcases hcall : cb ⟨level, p.socket, n⟩ w with ⟨r, w'⟩
    rw [hcall] at hok hobject hactive
    obtain rfl : r = .ok () := hok
    exact ⟨hobject.trans hw.object, hactive.trans hw.active⟩
  · exact Triple.bind (Q := fun _ => At p s) (fun _ hw => ⟨hw.object, hw.active⟩) fun _ => note _

theorem bothCallbacks {n : Notice} (hn : Gentle cb p n) (pending : Pending) :
    Triple (At p s) (EventLoop.bothCallbacks cb pending p n) (fun _ => At p s) E := by
  refine (callback hn pending _).bind fun _ => ?_
  refine Triple.bind (Q := fun _ => At p s) (fun _ hw => hw) fun active => ?_
  exact .whenever (fun _ => callback hn pending _) fun _ _ hw => hw

/-- `poll_step` of a session whose application data may move. -/
theorem pollStep (hstep : s.pollStep (h.objects p.socket).tls flags = (1, u)) :
    Triple (At p s) (EventLoop.pollStep h cb ps p flags) (fun b w => b = 1 ∧ At p u w) E := by
  have hact : (EventObject.tls s).pollStep (h.objects p.socket) flags = (1, .tls u) := by
    show EventObject.ofTls (s.pollStep (h.objects p.socket).tls flags) = (1, .tls u)
    rw [hstep]
    rfl
  refine Triple.bind_value (use hact) ?_
  exact Triple.bind (Q := fun _ => At p u) (.ret fun _ hw => hw) fun _ => .ret fun _ hw => ⟨rfl, hw⟩

section Dispatch

variable (hcb : ∀ es n, Keeps (Goes p.socket es) (cb n))

/-- The turn of a watched TLS object, which is left as `t` when `poll` has asked
whether there is anything to do. -/
theorem dispatch_due {Q : ℕ → EventWorld → Prop} (hudp : p.udp = false)
    (hfd : t.sockfd = some p.fd)
    (hdue : Triple (At p s) (isDue h p flags) (fun b w => b = true ∧ At p t w) E)
    (hstream : Triple (At p t) (dispatchStream h cb ps p flags) Q E) :
    Triple (At p s) (EventLoop.dispatch h cb ps p flags) Q E := by
  refine Triple.bind_value hdue ?_
  rw [hudp]
  refine Triple.bind_value (currentAnd hfd false fun _ => true) ?_
  exact Triple.bind_value (look EventObject.isListener) hstream

/-- Readiness of a watched TLS object is for the session. -/
theorem dispatch {Q : ℕ → EventWorld → Prop} (hudp : p.udp = false) (hfd : s.sockfd = some p.fd)
    (hany : flags.any = true) (hstream : Triple (At p s) (dispatchStream h cb ps p flags) Q E) :
    Triple (At p s) (EventLoop.dispatch h cb ps p flags) Q E := by
  refine dispatch_due hudp hfd ?_ hstream
  rw [isDue, if_pos hany]
  exact .ret fun _ hw => ⟨rfl, hw⟩

/-- Application data may move, in both directions. -/
theorem stream_of_pass {Q : ℕ → EventWorld → Prop}
    (hstep : s.pollStep (h.objects p.socket).tls flags = (1, u))
    (hrest : Triple (At p u) (do
      let read ← dispatchRead h cb ((p, false) :: later ps) p flags
      let flushed ← dispatchQueue h cb ps p flags
      return read + flushed) Q E) : Triple (At p s) (dispatchStream h cb ps p flags) Q E := by
  refine Triple.bind_value (pollStep hstep) ?_
  refine .ite (fun hneg => absurd hneg (by decide)) fun _ => ?_
  refine .ite (fun hzero => absurd hzero (by decide)) fun _ => ?_
  refine .ite (fun hthree => absurd hthree (by decide)) fun _ => ?_
  exact .ite (fun htwo => absurd htwo (by decide)) fun _ => hrest

include hcb

/-- A `poll_step` that makes its call. -/
theorem stream_of_step (hr : s.view.Reachable) :
    Triple (At p s) (dispatchStream h cb ps p flags)
      (fun _ => Goes p.socket (s.pollStep (h.objects p.socket).tls flags).2.log)
      fun _ => Goes p.socket (s.pollStep (h.objects p.socket).tls flags).2.log := by
  have hI := (Goes.objective h p.socket (s.pollStep (h.objects p.socket).tls flags).2.log).undialled.global
  have hstep := (pollStep_refines (e := (h.objects p.socket).tls) flags).reachable hr
  refine Triple.bind (Q := fun _ => Goes p.socket (s.pollStep (h.objects p.socket).tls flags).2.log) ?_
    fun progress => .after (hI.afterStep (hcb _) trivial ps flags progress)
  refine Triple.bind (use (f := EventObject.pollStep (h.objects p.socket) flags) rfl) fun progress => ?_
  refine Triple.mono (.after ((Keeps.whenever (hI.callback (hcb _) _ _ _)).bind fun _ => .pure _))
    (fun w hw => ?_) (fun _ _ hw => hw) fun _ _ hw => hw
  exact hw.2.goes hstep.sound List.prefix_rfl

/-- A `poll_receive`, and whatever follows it. -/
theorem read_goes (pending : Pending) (hready : s.pollReadReady flags = true)
    (hrecv : (EventObject.tls s).pollReceive (h.objects p.socket) = (r, .tls u))
    (hu : u.view.Sound) : Triple (At p s) (dispatchRead h cb pending p flags)
      (fun _ => Goes p.socket u.log) fun _ => Goes p.socket u.log := by
  have hI := (Goes.objective h p.socket u.log).undialled.global
  refine Triple.bind_value (look fun o => o.pollReadReady flags) ?_
  refine .ite (fun _ => ?_) fun hno => absurd hready hno
  refine Triple.bind (use hrecv) fun received => ?_
  refine (Triple.after (hI.afterReceive (hcb _) trivial pending received)).pre fun w hw => ?_
  exact hw.2.goes hu List.prefix_rfl

/-- A session whose last read wants to write is read as soon as it can be written. -/
theorem stream_reads (hlive : s.session = some id) (hfd : s.sockfd = some p.fd)
    (hr : s.view.Reachable) (hdirected : s.Directed)
    (htime : (s.pollTimeoutMs (h.objects p.socket).tls).1 ≠ 0) (hdue : s.Due id .read) :
    Triple (At p s) (dispatchStream h cb ps p .writable)
      (fun _ w => ∃ u, Makes id s u .read ∧ Goes p.socket u.log w)
      fun _ w => ∃ u, Makes id s u .read ∧ Goes p.socket u.log w := by
  obtain ⟨hready, hlast, hopen⟩ := hdue
  obtain ⟨r, hlatest, hwants⟩ := (Option.any_eq_true _ _).mp hlast
  have hrecv := (hdirected id hlive).read r hlatest hwants
  -- `poll_step` has read the clock at most
  obtain ⟨v, hstep, hview, hlive', hready', hrecv', hlog⟩ : ∃ v : SslEventSocket,
      s.pollStep (h.objects p.socket).tls .writable = (1, v) ∧ v.view = s.view ∧
        v.session = some id ∧ v.tlsReady = true ∧ v.recvNeedWrite = true ∧ v.log = s.log := by
    rcases pollStep_passes hlive hfd htime hready (.inr rfl) hopen with hstep | hstep
    · exact ⟨_, hstep, rfl, hlive, hready, hrecv, rfl⟩
    · exact ⟨_, hstep, rfl, hlive, hready, hrecv, rfl⟩
  obtain ⟨u, hu, hreach, hread, -⟩ := receives hlive' hready' (hview ▸ hr)
    (e := h.objects p.socket)
  have hmade : Makes id s u .read := ⟨_, _, hlog ▸ hread⟩
  have hI := (Goes.objective h p.socket u.log).undialled.global
  have hall : Triple (At p s) (dispatchStream h cb ps p .writable) (fun _ => Goes p.socket u.log)
      fun _ => Goes p.socket u.log := by
    refine stream_of_pass hstep ?_
    refine Triple.bind (read_goes hcb _ ?_ hu hreach.sound) fun read => ?_
    · show ((!v.sendNeedRead && (false || false)) || (v.recvNeedWrite && true)) = true
      rw [hrecv', Bool.and_true, Bool.or_true]
    · exact .after ((hI.dispatchQueue (hcb _) trivial ps _).bind fun _ => .pure _)
  exact hall.mono (fun _ hw => hw) (fun _ _ hw => ⟨u, hmade, hw⟩) fun _ _ hw => ⟨u, hmade, hw⟩

/-- A queue that can be flushed is. -/
theorem queue_flushes {old : SslEventSocket} (hf : Flushing id p.fd old s)
    (hbytes : old.queuedBytes ≠ 0)
    (hready : (if old.sendNeedRead then flags.pollin else flags.pollout) = true) :
    Triple (At p s) (dispatchQueue h cb ps p flags)
      (fun _ w => ∃ u, Makes id old u .write ∧ Goes p.socket u.log w)
      fun _ w => ∃ u, Makes id old u .write ∧ Goes p.socket u.log w := by
  obtain ⟨r, u, hu, hsound, hmade⟩ := flushes (e := h.objects p.socket) hf hbytes
  have hI := (Goes.objective h p.socket u.log).undialled.global
  have hqueue : (EventObject.tls s).pollQueueReady flags = true := by
    have hbytes' : s.queuedBytes ≠ 0 := by
      show s.outgoing.bytes ≠ 0
      rw [hf.outgoing]
      exact hbytes
    show s.pollQueueReady flags = true
    simp [pollQueueReady, hf.direct, hf.sendNeedRead, hready, hbytes']
  have hall : Triple (At p s) (dispatchQueue h cb ps p flags) (fun _ => Goes p.socket u.log)
      fun _ => Goes p.socket u.log := by
    refine Triple.bind_value (currentAnd hf.sockfd false fun o => o.pollQueueReady flags) ?_
    rw [hqueue]
    refine Triple.bind (use hu) fun flushed => ?_
    refine (Triple.after (hI.afterFlush (hcb _) trivial ps flushed)).pre fun w hw => ?_
    exact hw.2.goes hsound List.prefix_rfl
  exact hall.mono (fun _ hw => hw) (fun _ _ hw => ⟨u, hmade, hw⟩) fun _ _ hw => ⟨u, hmade, hw⟩

/-- The read that may come before a flush: it leaves the queue to be flushed,
unless it fails or its handlers intervene. -/
theorem reads_before {old : SslEventSocket} (pending : Pending) (hf : Flushing id p.fd old s)
    (hflags : flags = .readable ∨ flags = .writable) :
    Triple (At p s) (dispatchRead h cb pending p flags)
      (fun _ w => (∃ u, Flushing id p.fd old u ∧ At p u w) ∨
        ∃ u, Intervenes cb p id s u ∧ Goes p.socket u.log w)
      fun _ w => ∃ u, Intervenes cb p id s u ∧ Goes p.socket u.log w := by
  cases hready : s.pollReadReady flags with
  | false =>
    have hquiet : ¬(flags.pollerr || flags.pollnval) = true := by
      rcases hflags with rfl | rfl <;> decide
    refine Triple.bind_value (look fun o => o.pollReadReady flags) ?_
    refine .ite (fun hyes => absurd (hready.symm.trans hyes) (by decide)) fun _ => ?_
    exact .ite (fun hloud => absurd hloud hquiet) fun _ => .ret fun w hw => .inl ⟨s, hf, hw⟩
  | true =>
    obtain ⟨u, hu, hreach, hlog, hkeep⟩ := receives (e := h.objects p.socket)
      hf.session hf.ready hf.reachable
    have hresult := pollReceive_result (e := (h.objects p.socket).tls) Socket.maxBufferSize
      hf.session hf.ready
    generalize hanswer : (h.objects p.socket).tls.sslRead s.tick Socket.maxBufferSize = answer
      at hlog hresult
    generalize s.pollReceive (h.objects p.socket).tls Socket.maxBufferSize = received at hu hresult
    generalize received.1 = r at hu hresult
    have hgoes (hint : Intervenes cb p id s u) : Triple (At p s) (dispatchRead h cb pending p flags)
        (fun _ w => (∃ u, Flushing id p.fd old u ∧ At p u w) ∨
          ∃ u, Intervenes cb p id s u ∧ Goes p.socket u.log w)
        fun _ w => ∃ u, Intervenes cb p id s u ∧ Goes p.socket u.log w :=
      (read_goes hcb pending hready hu hreach.sound).mono (fun _ hw => hw)
        (fun _ _ hw => .inr ⟨u, hint, hw⟩) fun _ _ hw => ⟨u, hint, hw⟩
    have hstart {Q : ℕ → EventWorld → Prop} {E : Halt → EventWorld → Prop}
        (hrest : Triple (At p u) (do
          if r.1.ret > 0 then
            EventWorld.note (.event p.token (.data r.2))
            act p .count fun o =>
              ((), o.withBase { o.base with n := r.1.ret })
            EventLoop.bothCallbacks cb pending p
              (.data r.2)
            return 1
          else if r.1.ret = 0 then
            EventLoop.reportClose h cb pending p
            return 1
          else if wouldBlockError r.1.errno then return 0
          else
            let code ← EventWorld.look p.token p.socket fun o =>
              (o.reported r.1.errno, o)
            EventLoop.setAndReportError cb pending p code
            EventLoop.closeTerminal h cb pending p
            return 1) Q E) : Triple (At p s) (dispatchRead h cb pending p flags) Q E := by
      refine Triple.bind_value (look fun o => o.pollReadReady flags) ?_
      exact .ite (fun _ => Triple.bind_value (use hu) hrest) fun hno => absurd hready hno
    by_cases hpos : answer.ret > 0
    · by_cases hgentle : Gentle cb p (.data answer.data)
      · rw [if_pos hpos] at hresult
        refine hstart ?_
        rw [hresult]
        refine .ite (fun _ => (note _).bind fun _ => ?_) fun hno => absurd hpos hno
        refine Triple.bind_value (use (f := fun o => ((), o.withBase { o.base with n := answer.ret }))
          rfl) ?_
        refine (bothCallbacks hgentle pending).bind fun _ => .ret fun w hw => .inl ⟨_, ?_, hw⟩
        exact (hkeep _ old hf).base rfl rfl rfl
      · exact hgoes ⟨answer, _, hlog, .inr ⟨hpos, hgentle⟩⟩
    · cases hfails : answer.fails with
      | true => exact hgoes ⟨answer, _, hlog, .inl hfails⟩
      | false =>
        rw [if_neg hpos, hfails] at hresult
        refine hstart ?_
        rw [hresult]
        refine .ite (fun hyes => absurd hyes (by decide)) fun _ => ?_
        refine .ite (fun hzero => absurd hzero (by decide)) fun _ => ?_
        exact .ite (fun _ => .ret fun w hw => .inl ⟨u, hkeep _ old hf, hw⟩) fun hno => absurd rfl hno

/-- Queued bytes are written as soon as the last write can go on. -/
theorem stream_writes (hlive : s.session = some id) (hfd : s.sockfd = some p.fd)
    (hr : s.view.Reachable) (hdirected : s.Directed)
    (htime : (s.pollTimeoutMs (h.objects p.socket).tls).1 ≠ 0) (hretry : s.directRetry = false)
    (hmode : s.blocking = false) (hdue : s.Due id .write) :
    Triple (At p s) (dispatchStream h cb ps p (s.awaited id .write))
      (fun _ w => ∃ u, (Makes id s u .write ∨ Intervenes cb p id s u) ∧ Goes p.socket u.log w)
      fun _ w => ∃ u, (Makes id s u .write ∨ Intervenes cb p id s u) ∧ Goes p.socket u.log w := by
  obtain ⟨hready, hbytes⟩ := hdue
  have hflags := s.awaited_cases id .write
  have hopen : (if s.sendNeedRead then (s.awaited id .write).pollin else (s.awaited id .write).pollout) =
      true := by
    rw [awaited, ← (hdirected id hlive).write]
    cases s.sendNeedRead <;> rfl
  have hself : Flushing id p.fd s s :=
    ⟨hr, hlive, hready, hretry, hmode, hfd, rfl, rfl, [], by simp, (List.append_nil _).symm⟩
  obtain ⟨v, hstep, hv, hlog⟩ : ∃ v, s.pollStep (h.objects p.socket).tls (s.awaited id .write) =
      (1, v) ∧ Flushing id p.fd s v ∧ v.log = s.log := by
    rcases pollStep_passes hlive hfd htime hready hflags fun hshut => hbytes hshut.2 with hstep | hstep
    · exact ⟨_, hstep, hself, rfl⟩
    · exact ⟨_, hstep, hself.base rfl rfl rfl, rfl⟩
  have hint {u : SslEventSocket} (h : Intervenes cb p id v u) : Intervenes cb p id s u := by
    rwa [Intervenes, hlog] at h
  refine stream_of_pass hstep ?_
  refine Triple.bind ((reads_before hcb _ hv hflags).mono (fun _ hw => hw) (fun _ _ hw => hw) ?_)
    fun read => Triple.bind (Q := fun _ w => ∃ u, (Makes id s u .write ∨ Intervenes cb p id s u) ∧
      Goes p.socket u.log w) ?_ fun _ => .ret fun _ hw => hw
  · rintro _ w ⟨u, hu, hw⟩
    exact ⟨u, .inr (hint hu), hw⟩
  · rintro w (⟨u, hu, hw⟩ | ⟨u, hu, hw⟩)
    · refine (queue_flushes hcb hu hbytes hopen).mono (fun _ hw => hw) ?_ ?_ w hw
      · rintro _ _ ⟨u, hmade, hgoes⟩
        exact ⟨u, .inl hmade, hgoes⟩
      · rintro _ _ ⟨u, hmade, hgoes⟩
        exact ⟨u, .inl hmade, hgoes⟩
    · have hI := (Goes.objective h p.socket u.log).undialled.global
      refine Triple.mono (.after (hI.dispatchQueue (hcb _) trivial ps _)) (fun _ hw => hw) ?_ ?_ w hw
      · exact fun _ _ hgoes => ⟨u, .inr (hint hu), hgoes⟩
      · exact fun _ _ hgoes => ⟨u, .inr (hint hu), hgoes⟩

end Dispatch

end At

/-- What a watch asks for: always `POLLIN`, and `POLLOUT` as it says. -/
def Watch.events (p : Watch) : Flags := { pollin := true, pollout := p.writable }

def Flags.within (f g : Flags) : Bool := (!f.pollin || g.pollin) && (!f.pollout || g.pollout)

/-- `poll` watches the socket in this state. -/
def EventWorld.Watches (w : EventWorld) (p : Watch) : Prop :=
  ∃ ts ps, (watchAll false ts w).1 = .ok ps ∧ p ∈ ps

/-- What a watch says of the object that it is made from. -/
structure Watched (w : EventWorld) (p : Watch) : Prop where
  udp : p.udp = false
  object : ∃ o, w.find p.socket = some o ∧ o.base.sockfd = some p.fd ∧ p.writable = o.pollWantsWrite

theorem EventWorld.Watches.watched {w : EventWorld} {p : Watch} (h : w.Watches p) : Watched w p := by
  have hall (ts : List ℕ) : Triple (fun w' => ∀ i, w'.find i = w.find i) (watchAll false ts)
      (fun ps w' => (∀ i, w'.find i = w.find i) ∧ ∀ p ∈ ps, Watched w p) fun _ _ => True := by
    induction ts with
    | nil => exact .ret fun _ hw => ⟨hw, by simp⟩
    | cons t ts ih =>
      have hread {α : Type} (f : EventWorld → α) {E : Halt → EventWorld → Prop} :
          Triple (fun w' => ∀ i, w'.find i = w.find i) (Code.read f)
            (fun _ w' => ∀ i, w'.find i = w.find i) E := fun _ hw => hw
      refine (hread _).bind fun active => .ite (fun _ => ih) fun _ => (hread _).bind fun id => ?_
      refine Triple.bind (Q := fun seen w' => (∀ i, w'.find i = w.find i) ∧ ∃ o, w.find id = some o ∧
        seen = (o.base.sockfd, o.pollWantsWrite, o.connection)) (fun w' hw => ?_) fun seen => ?_
      · unfold EventWorld.look EventWorld.use
        cases ho : w'.find id with
        | none => trivial
        | some o =>
          refine ⟨fun i => ?_, o, (hw id).symm.trans ho, rfl⟩
          show (w'.store id o).find i = w.find i
          by_cases hi : i = id
          · subst hi
            rw [find_store_same ho, ← hw, ho]
          · rw [find_store_ne hi, hw]
      · obtain ⟨_ | fd, wants, connection⟩ := seen
        · exact ih.pre fun _ hw => hw.1
        · refine .assume fun w' hw => ?_
          obtain ⟨hsame, o, ho, hseen⟩ := hw
          simp only [Prod.mk.injEq] at hseen
          obtain ⟨hfd, rfl, rfl⟩ := hseen
          refine Triple.bind (ih.pre fun _ he => he ▸ hsame) fun ps => .ret fun w' hps => ⟨hps.1, ?_⟩
          exact List.forall_mem_cons.mpr ⟨⟨rfl, o, ho, hfd.symm, rfl⟩, hps.2⟩
  obtain ⟨ts, ps, hps, hp⟩ := h
  have hrun := hall ts w fun _ => rfl
  rcases hwatch : watchAll false ts w with ⟨r, w'⟩
  rw [hwatch] at hps hrun
  obtain rfl : r = .ok ps := hps
  exact hrun.2 p hp

/-- The object has read the clock, or been asked for buffered input. -/
def SslEventSocket.later (tick : ℕ) (s : SslEventSocket) : SslEventSocket := { s with tick := tick }

/-- Readiness that a due call waits for, reported alone, makes `poll` call OpenSSL. -/
theorem At.calls {h : LoopHost} {fuel id : ℕ} {p : Watch} {s t : SslEventSocket} {call : TlsCall}
    {cb : EventNote → Code EventWorld Unit} {ps : List Watch} {w : EventWorld} (hw : At p s w)
    (real : Realizable (system h fuel) (fun _ _ => True) (fun _ _ => True) cb)
    (hr : s.view.Reachable) (hdirected : s.Directed) (hlive : s.session = some id)
    (hretry : s.directRetry = false) (hdue : s.Due id call)
    (hmode : call = .write → s.blocking = false) (hudp : p.udp = false)
    (hfd : s.sockfd = some p.fd) (htime : (s.pollTimeoutMs (h.objects p.socket).tls).1 ≠ 0)
    (ht : (EventLoop.dispatch h cb ps p (s.awaited id call) w).2.find p.socket = some (.tls t)) :
    Makes id s t call ∨ call = .write ∧ Intervenes cb p id s t := by
  have hcb (es : List Event) (n : EventNote) : Keeps (Goes p.socket es) (cb n) :=
    (Goes.objective h p.socket es).handlers real n
  have hany : (s.awaited id call).any = true := by
    rcases s.awaited_cases id call with he | he <;> rw [he] <;> rfl
  -- what the history says when the stream is dispatched, it says in the end
  have hrun {P : SslEventSocket → Prop}
      (hP : ∀ u, P u → Makes id s u call ∨ call = .write ∧ Intervenes cb p id s u)
      (hstream : Triple (At p s) (dispatchStream h cb ps p (s.awaited id call))
        (fun _ w => ∃ u, P u ∧ Goes p.socket u.log w)
        fun _ w => ∃ u, P u ∧ Goes p.socket u.log w) :
      Makes id s t call ∨ call = .write ∧ Intervenes cb p id s t := by
    have hend {u : SslEventSocket} (hu : P u)
        (hgoes : Goes p.socket u.log (EventLoop.dispatch h cb ps p (s.awaited id call) w).2) :
        Makes id s t call ∨ call = .write ∧ Intervenes cb p id s t := by
      have hlog := (hgoes.log t ht).2
      refine (hP u hu).imp (fun hmade => hmade.mono hlog) fun hint => ⟨hint.1, ?_⟩
      obtain ⟨result, retry, hread, hwhy⟩ := hint.2
      exact ⟨result, retry, hread.trans hlog, hwhy⟩
    have hdone := At.dispatch hudp hfd hany hstream w hw
    revert hdone hend
    rcases EventLoop.dispatch h cb ps p (s.awaited id call) w with ⟨_ | _, w'⟩
    · rintro hend ⟨u, hu, hgoes⟩
      exact hend hu hgoes
    · rintro hend ⟨u, hu, hgoes⟩
      exact hend hu hgoes
  have hstep (hmade : Makes id s (s.pollStep (h.objects p.socket).tls (s.awaited id call)).2 call) :
      Makes id s t call ∨ call = .write ∧ Intervenes cb p id s t :=
    hrun (P := fun u => Makes id s u call) (fun u hu => .inl hu)
      ((At.stream_of_step hcb hr).mono (fun _ hw => hw) (fun _ _ hw => ⟨_, hmade, hw⟩)
        fun _ _ hw => ⟨_, hmade, hw⟩)
  cases call with
  | handshake => exact hstep (pollStep_handshakes hdirected hlive hfd htime hdue)
  | shutdown => exact hstep (pollStep_shuts hdirected hlive hfd htime hdue)
  | read => exact hrun (fun u hu => .inl hu) (At.stream_reads hcb hlive hfd hr hdirected htime hdue)
  | write =>
    exact hrun (fun u hu => hu.imp_right fun hint => ⟨rfl, hint⟩)
      (At.stream_writes hcb hlive hfd hr hdirected htime hretry (hmode rfl) hdue)

/-- The call that a session has to make is made once `poll` is told of nothing
but the readiness that it waits for, and `poll` asks for that readiness.  Until
then the object may have read the clock, and no deadline has passed. -/
structure Wakes (h : LoopHost) (fuel : ℕ) (w : EventWorld) (id : ℕ) (s : SslEventSocket)
    (call : TlsCall) : Prop where
  watched : ∀ p, w.Watches p → w.find p.socket = some (.tls s) → (s.awaited id call).within p.events
  dispatched : ∀ p, w.Watches p → w.find p.socket = some (.tls s) →
    ∀ cb, Realizable (system h fuel) (fun _ _ => True) (fun _ _ => True) cb →
    ∀ ps tick w', At p (s.later tick) w' →
      ((s.later tick).pollTimeoutMs (h.objects p.socket).tls).1 ≠ 0 →
    ∀ t, (dispatch h cb ps p (s.awaited id call) w').2.find p.socket = some (.tls t) →
      Makes id s t call ∨ call = .write ∧ Intervenes cb p id s t

section Programs

variable {h : LoopHost} {fuel id i : ℕ} {w : EventWorld} {s : SslEventSocket} {call : TlsCall}

/-- In every program, no call of a live session waits for readiness that `poll`
does not ask for.  Queued bytes are written by `poll` while the socket is nonblocking. -/
theorem no_lost_wakeup (hw : Reaches h fuel w) (hs : w.find i = some (.tls s))
    (hlive : s.session = some id) (hretry : s.directRetry = false) (hdue : s.Due id call)
    (hmode : call = .write → s.blocking = false) : Wakes h fuel w id s call := by
  have hdirected := hw.directed hs
  refine ⟨fun p hp ho => ?_, fun p hp ho cb real ps tick w' hat htime t ht => ?_⟩
  · obtain ⟨-, o, ho', -, hwritable⟩ := hp.watched
    obtain rfl := Option.some.inj (ho.symm.trans ho')
    rcases s.awaited_cases id call with hread | hwrite
    · rw [hread]
      rfl
    · rw [hwrite, Watch.events, hwritable]
      exact pollWantsWrite_of_due hdirected hlive hretry hdue hwrite
  · obtain ⟨hudp, o, ho', hfd, -⟩ := hp.watched
    obtain rfl := Option.some.inj (ho.symm.trans ho')
    have hr : s.view.Reachable := hw.modelled hs
    have hr' : (s.later tick).view.Reachable := hr
    exact hat.calls real hr' (hdirected.same rfl) hlive hretry hdue hmode hudp hfd htime ht

/-- A client that has bytes to send and a writable socket. -/
def sending : EventWorld :=
  after (.same ⟨.steady, .steady⟩ { pollout := true }) 1
    (connected ++ [.call 0 (.queueWrite (some [1]))])

theorem no_lost_wakeup_sending : ∃ s, sending.find 0 = some (.tls s) ∧ s.Due 0 .write ∧
    Wakes (.same ⟨.steady, .steady⟩ { pollout := true }) 1 sending 0 s .write := by
  obtain ⟨s, hs, hp⟩ := exists_of_tlsIs 0 (w := sending) (p := fun s => s.session = some 0 ∧
    s.tlsReady = true ∧ s.queuedBytes ≠ 0 ∧ s.directRetry = false ∧ s.blocking = false)
    (by decide +kernel)
  obtain ⟨hlive, hready, hbytes, hretry, hmode⟩ := of_decide_eq_true hp
  exact ⟨s, hs, ⟨hready, hbytes⟩, no_lost_wakeup (reaches_after _ _ _) hs hlive hretry
    ⟨hready, hbytes⟩ fun _ => hmode⟩

/-- A call of `SSL_read` or `SSL_write`. -/
def Event.recordCall : Event → Bool
  | .sslRead .. | .sslWrite .. => true
  | _ => false

/-- The same client, once it has been made blocking. -/
def blocked : EventWorld :=
  after (.same ⟨.steady, .steady⟩ { pollout := true }) 1
    (connected ++ [.call 0 (.queueWrite (some [1])), .call 0 (.set (.blocking true))])

/-- The watch that `poll` has of the client. -/
def blockedWatch : Watch := ⟨0, 0, false, 3, true, 2⟩

/-- While the socket is blocking, `poll` leaves the queue alone. -/
theorem queue_waits_while_blocking : ¬∀ (h : LoopHost) (fuel id i : ℕ) (w : EventWorld)
    (s : SslEventSocket) (call : TlsCall), Reaches h fuel w → w.find i = some (.tls s) →
      s.session = some id → s.directRetry = false → s.Due id call → Wakes h fuel w id s call := by
  intro hall
  let h : LoopHost := .same ⟨.steady, .steady⟩ { pollout := true }
  obtain ⟨s, hs, hp⟩ := exists_of_tlsIs 0 (w := blocked) (p := fun s => s.session = some 0 ∧
    s.tlsReady = true ∧ s.queuedBytes ≠ 0 ∧ s.directRetry = false ∧
    s.awaited 0 .write = .writable ∧ (s.pollTimeoutMs TlsHost.steady).1 ≠ 0) (by decide +kernel)
  obtain ⟨hlive, hready, hbytes, hretry, hflags, htime⟩ := of_decide_eq_true hp
  have hwakes := hall h 1 0 0 blocked s .write (reaches_after _ _ _) hs hlive hretry ⟨hready, hbytes⟩
  have hwatches : blocked.Watches blockedWatch :=
    ⟨[0], [blockedWatch], by decide +kernel, List.mem_singleton_self _⟩
  obtain ⟨t, ht, hsilent⟩ := exists_of_tlsIs 0
    (w := (dispatch h (fun _ => pure ()) [] blockedWatch .writable blocked).2)
    (p := fun t => t.log.all fun ev => !ev.recordCall)
    (by decide +kernel)
  rw [List.all_eq_true] at hsilent
  have hcalls := hwakes.dispatched blockedWatch hwatches hs _ (.idle _ _ _) [] s.tick blocked
    ⟨hs, by decide +kernel⟩ htime t (by rw [hflags]; exact ht)
  rcases hcalls with ⟨es, data, result, retry, -, -, -, hlog⟩ | ⟨-, result, retry, hlog, -⟩
  · exact Bool.false_ne_true (hsilent _ (hlog.subset
      (List.mem_append_right _ (List.mem_singleton_self _))))
  · exact Bool.false_ne_true (hsilent _ (hlog.subset
      (List.mem_append_right _ (List.mem_singleton_self _))))

end Programs

end Aeon
