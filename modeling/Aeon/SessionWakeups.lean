import Aeon.SessionDirections
import Aeon.SessionPrograms

/-!
# The calls that a session still has to make

Which call of OpenSSL is due, and which readiness it waits for.  The poller asks
for that readiness, and the functions that `poll` runs make the call when it is
reported.
-/

namespace Aeon

open Errno History Session

inductive TlsCall
  | handshake | write | read | shutdown
  deriving DecidableEq, Repr

namespace Flags

def readable : Flags := { pollin := true }

def writable : Flags := { pollout := true }

end Flags

/-- What the peer has closed or what has to be tried again is no failure. -/
def SslResult.fails (r : SslResult) : Bool := r.ret ≤ 0 && !r.closes && !r.wants

/-- An `SSL_read` of the session, or news of what it has given. -/
def Event.ofRead (id : ℕ) : Event → Bool
  | .sslRead i _ _ => i = id
  | .notify i (.data _) => i = some id
  | _ => false

theorem remainingMs_eq_zero {deadline now : ℕ} :
    SslEventSocket.remainingMs deadline now = 0 ↔ deadline ≤ now := by
  unfold SslEventSocket.remainingMs
  split
  · rename_i hpassed
    simp [hpassed]
  · rename_i hahead
    generalize (deadline - now) / nsPerMs = left
    exact iff_of_false (by omega) hahead

namespace SslEventSocket

variable {e : TlsHost} {id fd : ℕ} {s t u : SslEventSocket}

/-- The session has this call to make. -/
def Due (id : ℕ) (s : SslEventSocket) : TlsCall → Prop
  | .handshake => s.tlsReady = false
  | .write => s.tlsReady = true ∧ s.queuedBytes ≠ 0
  | .read => s.tlsReady = true ∧ (latest (Event.readAnswer id) s.log).any SslResult.wantsWrite = true ∧
      ¬(s.shutdownRequested = true ∧ s.queuedBytes = 0)
  | .shutdown => s.tlsReady = true ∧ s.shutdownRequested = true ∧ s.queuedBytes = 0

/-- The readiness that the call waits for: what OpenSSL asked for last.  A call that
has not asked yet writes first, but for the handshake of an accepted connection. -/
def awaited (id : ℕ) (s : SslEventSocket) : TlsCall → Flags
  | .handshake =>
    match latest (Event.handshakeAsks id) s.log with
    | some readiness => if readiness = .write then .writable else .readable
    | none => if !s.serverSide || s.needWrite then .writable else .readable
  | .write =>
    if (latest (Event.writeAnswer id) s.log).any SslResult.wantsRead then .readable else .writable
  | .read => .writable
  | .shutdown =>
    if latest (Event.shutdownAsks id) s.log = some .read then .readable else .writable

/-- The flag of the handshake says what it waits for. -/
theorem Directed.awaited_handshake (hs : s.Directed) (hlive : s.session = some id)
    (hready : s.tlsReady = false) :
    s.awaited id .handshake = if s.needWrite then .writable else .readable := by
  have hshakes := (hs id hlive).handshake hready
  unfold awaited
  dsimp only
  cases hasked : latest (Event.handshakeAsks id) s.log with
  | some readiness =>
    rw [hasked] at hshakes
    rw [show s.needWrite = (readiness == .write) from hshakes]
    cases readiness <;> rfl
  | none =>
    rw [hasked] at hshakes
    cases hside : s.serverSide with
    | true => rfl
    | false =>
      rw [show s.needWrite = true from hshakes hside]
      rfl

/-- So do the flags of the shutdown. -/
theorem Directed.awaited_shutdown (hs : s.Directed) (hlive : s.session = some id) :
    s.awaited id .shutdown = .readable ∧ s.shutdownNeedRead = true ∧ s.shutdownNeedWrite = false ∨
      s.awaited id .shutdown = .writable ∧ s.shutdownNeedRead = false ∧
        (s.shutdownNeedWrite = true ∨ s.shutdownNotifySent = false) := by
  obtain ⟨hread, hwrite, hunsent, -⟩ := (hs id hlive).shutdown
  unfold awaited
  dsimp only
  rw [hread, hwrite]
  cases hasked : latest (Event.shutdownAsks id) s.log with
  | none => exact .inr ⟨rfl, rfl, .inr (hunsent hasked)⟩
  | some readiness =>
    cases readiness with
    | read => exact .inl ⟨rfl, rfl, rfl⟩
    | write => exact .inr ⟨rfl, rfl, .inl rfl⟩

theorem awaited_cases (id : ℕ) (s : SslEventSocket) (call : TlsCall) :
    s.awaited id call = .readable ∨ s.awaited id call = .writable := by
  have hite {c : Prop} [Decidable c] {a b : Flags} (ha : a = .readable ∨ a = .writable)
      (hb : b = .readable ∨ b = .writable) :
      (if c then a else b) = .readable ∨ (if c then a else b) = .writable := by
    split
    · exact ha
    · exact hb
  cases call with
  | handshake =>
    unfold awaited
    dsimp only
    split
    · exact hite (.inr rfl) (.inl rfl)
    · exact hite (.inr rfl) (.inl rfl)
  | write => exact hite (.inl rfl) (.inr rfl)
  | read => exact .inr rfl
  | shutdown => exact hite (.inl rfl) (.inr rfl)

/-- The history goes on with the call.  A write of queued bytes may come after a
read of the same dispatch. -/
def Makes (id : ℕ) (s t : SslEventSocket) : TlsCall → Prop
  | .handshake => ∃ done strict verified answer,
    s.log ++ [.handshake id done strict verified answer] <+: t.log
  | .write => ∃ es data result retry, (∀ ev ∈ es, Event.ofRead id ev = true) ∧ data ≠ [] ∧
      data <+: s.outgoing.pending ∧ s.log ++ es ++ [.sslWrite id .queued data result retry 0] <+: t.log
  | .read => ∃ result retry, s.log ++ [.sslRead id result retry] <+: t.log
  | .shutdown => ∃ outstanding answer,
    s.log ++ [.sslShutdown id .pollStep outstanding answer] <+: t.log

/-- A call that waits for writability is one that the poller asks for. -/
theorem pollWantsWrite_of_due {call : TlsCall} (hs : s.Directed) (hlive : s.session = some id)
    (hretry : s.directRetry = false) (hdue : s.Due id call) (hw : s.awaited id call = .writable) :
    s.pollWantsWrite = true := by
  have hne : Flags.readable ≠ .writable := by decide
  cases call with
  | handshake =>
    have hready : s.tlsReady = false := hdue
    have hneed : s.needWrite = true := by
      by_contra hno
      exact hne (by rw [← hw, hs.awaited_handshake hlive hready, if_neg hno])
    simp [pollWantsWrite, hready, hneed]
  | write =>
    obtain ⟨hready, hbytes⟩ := hdue
    have hsend : s.sendNeedRead = false := by
      rw [(hs id hlive).write]
      by_contra hno
      exact hne (by rw [← hw, awaited, if_pos ((Bool.not_eq_false _).mp hno)])
    simp [pollWantsWrite, hready, hbytes, hsend, hretry]
  | read =>
    obtain ⟨hready, hlast, hopen⟩ := hdue
    obtain ⟨r, hr, hwants⟩ := (Option.any_eq_true _ _).mp hlast
    have hrecv := (hs id hlive).read r hr hwants
    have hshut : (s.shutdownRequested && s.queuedBytes = 0) = false := by simpa using hopen
    simp [pollWantsWrite, hready, hshut, hrecv]
  | shutdown =>
    obtain ⟨hready, hrequested, hbytes⟩ := hdue
    rcases hs.awaited_shutdown hlive with ⟨hread, -⟩ | ⟨-, hread, hwrite | hunsent⟩
    · exact absurd (hread.symm.trans hw) hne
    · simp [pollWantsWrite, hready, hrequested, hbytes, hread, hwrite]
    · simp [pollWantsWrite, hready, hrequested, hbytes, hread, hunsent]

/-- No deadline of an open session has passed. -/
theorem deadlines_of_unexpired (hlive : s.session = some id) (hfd : s.sockfd = some fd)
    (htime : (s.pollTimeoutMs e).1 ≠ 0) :
    (s.tlsReady = false → ¬e.now s.tick ≥ s.handshakeDeadline) ∧
      (s.tlsReady = true → s.shutdownRequested = true → ¬e.now s.tick ≥ s.shutdownDeadline) := by
  have hopen : ¬(s.session.isNone || !s.isValidSocket) = true := by
    simp [hlive, Socket.isValidSocket, hfd]
  rw [pollTimeoutMs, if_neg hopen] at htime
  refine ⟨fun hready hpassed => htime ?_, fun hready hrequested hpassed => htime ?_⟩
  · simp only [hready, Bool.false_and, Bool.false_eq_true, if_false]
    exact remainingMs_eq_zero.mpr hpassed
  · simp only [hready, hrequested, Bool.true_and, if_true]
    exact remainingMs_eq_zero.mpr hpassed

/-- `poll_step` continues the handshake in the direction it waits for. -/
theorem pollStep_handshakes (hs : s.Directed) (hlive : s.session = some id) (hfd : s.sockfd = some fd)
    (htime : (s.pollTimeoutMs e).1 ≠ 0) (hready : s.tlsReady = false) :
    Makes id s (s.pollStep e (s.awaited id .handshake)).2 .handshake := by
  have hearly : ¬(s.clock e).1 ≥ s.handshakeDeadline :=
    (deadlines_of_unexpired hlive hfd htime).1 hready
  have hcall (c : Bool) (hc : s.needWrite = c) (flags : Flags)
      (hflags : flags = if c then .writable else .readable) :
      Makes id s ((s.clock e).2.handshakeStep e id flags).2 .handshake := by
    have hquiet : (flags.pollerr || flags.pollnval || flags.pollhup) = false := by
      rw [hflags]
      cases c <;> rfl
    have hgo : ¬(((s.clock e).2.needWrite && !flags.pollout) ||
        (!(s.clock e).2.needWrite && !(flags.pollin || flags.pollhup))) = true := by
      show ¬((s.needWrite && !flags.pollout) || (!s.needWrite && !(flags.pollin || flags.pollhup))) = true
      rw [hc, hflags]
      cases c <;> decide
    unfold handshakeStep
    rw [if_neg (by rw [hquiet]; exact Bool.false_ne_true), if_neg hgo]
    dsimp only
    generalize hmade : ((s.clock e).2.ticked.record _) = made
    have hlog : ∃ done strict verified answer,
        made.log = s.log ++ [.handshake id done strict verified answer] :=
      ⟨_, _, _, _, by rw [← hmade]; rfl⟩
    obtain ⟨done, strict, verified, answer, hlog⟩ := hlog
    refine ⟨done, strict, verified, answer, ?_⟩
    rw [← hlog]
    split
    · split
      · exact List.prefix_rfl
      · exact List.prefix_append _ _
    · split
      · exact List.prefix_rfl
      · split
        · exact List.prefix_rfl
        · split <;> exact List.prefix_rfl
  unfold pollStep
  rw [hlive]
  simp only [hready, Bool.false_eq_true, if_false]
  rw [if_neg hearly]
  exact hcall s.needWrite rfl _ (hs.awaited_handshake hlive hready)

/-- `poll_step` continues a shutdown of an empty queue in the direction it waits for. -/
theorem pollStep_shuts (hs : s.Directed) (hlive : s.session = some id) (hfd : s.sockfd = some fd)
    (htime : (s.pollTimeoutMs e).1 ≠ 0) (hdue : s.Due id .shutdown) :
    Makes id s (s.pollStep e (s.awaited id .shutdown)).2 .shutdown := by
  obtain ⟨hready, hrequested, hbytes⟩ := hdue
  have hearly : ¬(s.clock e).1 ≥ (s.clock e).2.shutdownDeadline :=
    (deadlines_of_unexpired hlive hfd htime).2 hready hrequested
  have hflags := s.awaited_cases id .shutdown
  have hwaits : s.shutdownWaits (s.awaited id .shutdown) = false := by
    rcases hs.awaited_shutdown hlive with ⟨hflags, hread, hwrite⟩ | ⟨hflags, hread, hwrite | hunsent⟩
    · simp [shutdownWaits, hflags, hread, hwrite, Flags.readable]
    · simp [shutdownWaits, hflags, hread, hwrite, Flags.writable]
    · simp [shutdownWaits, hflags, hread, hunsent, Flags.writable]
  have hcall : Makes id s ((s.clock e).2.callShutdown e id (s.awaited id .shutdown)).2 .shutdown := by
    refine ⟨s.pendingWriteLen, some (e.sslShutdown (s.clock e).2.tick), ?_⟩
    unfold callShutdown
    dsimp only
    split
    · exact List.prefix_rfl
    · split
      · exact List.prefix_rfl
      · split
        · split <;> exact List.prefix_rfl
        · split <;> exact List.prefix_rfl
  generalize s.awaited id .shutdown = flags at hflags hwaits hcall ⊢
  have hquiet : (flags.pollerr || flags.pollnval) = false ∧ flags.pollhup = false := by
    rcases hflags with rfl | rfl <;> decide
  unfold pollStep
  rw [hlive]
  simp only [hready, hrequested, if_true]
  unfold shutdownStep
  dsimp only
  rw [if_neg hearly, if_neg (by rw [hquiet.1]; exact Bool.false_ne_true),
    if_neg (by rw [hquiet.2, Bool.and_false]; exact Bool.false_ne_true),
    if_neg (show ¬(s.clock e).2.queuedBytes ≠ 0 from fun h => h hbytes),
    if_neg (show ¬(s.clock e).2.shutdownWaits flags = true from
      fun h => Bool.false_ne_true (hwaits.symm.trans h))]
  exact hcall

/-- `poll_step` lets application data move, and has read the clock at most. -/
theorem pollStep_passes {flags : Flags} (hlive : s.session = some id) (hfd : s.sockfd = some fd)
    (htime : (s.pollTimeoutMs e).1 ≠ 0) (hready : s.tlsReady = true)
    (hflags : flags = .readable ∨ flags = .writable)
    (hopen : ¬(s.shutdownRequested = true ∧ s.queuedBytes = 0)) :
    s.pollStep e flags = (1, s) ∨ s.pollStep e flags = (1, s.ticked) := by
  have hquiet : (flags.pollerr || flags.pollnval) = false ∧ flags.pollhup = false := by
    rcases hflags with rfl | rfl <;> decide
  have hloud : ¬(flags.pollerr || flags.pollnval) = true := by
    rw [hquiet.1]
    exact Bool.false_ne_true
  unfold pollStep
  rw [hlive]
  simp only [hready, if_true]
  cases hrequested : s.shutdownRequested with
  | false =>
    rw [if_neg Bool.false_ne_true, if_neg hloud]
    exact .inl rfl
  | true =>
    have hearly : ¬(s.clock e).1 ≥ (s.clock e).2.shutdownDeadline :=
      (deadlines_of_unexpired hlive hfd htime).2 hready hrequested
    have hbytes : s.queuedBytes ≠ 0 := fun hzero => hopen ⟨hrequested, hzero⟩
    unfold shutdownStep
    dsimp only
    rw [if_pos rfl, if_neg hearly, if_neg hloud,
      if_neg (by rw [hquiet.2, Bool.and_false]; exact Bool.false_ne_true)]
    exact .inr (if_pos hbytes)

/-- What `poll_receive` tells `poll`. -/
theorem pollReceive_result (room : ℕ) (hlive : s.session = some id) (hready : s.tlsReady = true) :
    (s.pollReceive e room).1 =
      if (e.sslRead s.tick room).ret > 0 then (⟨(e.sslRead s.tick room).ret, 0⟩, (e.sslRead s.tick room).data)
      else (⟨-1, if (e.sslRead s.tick room).fails then EPROTO else EWOULDBLOCK⟩, []) := by
  unfold pollReceive
  simp only [hlive, hready, Bool.not_true, Bool.false_eq_true, if_false]
  by_cases hpos : (e.sslRead s.tick room).ret > 0
  · rw [if_pos hpos, if_pos hpos]
  · have hret : (e.sslRead s.tick room).ret ≤ 0 := by omega
    rw [if_neg hpos, if_neg hpos]
    by_cases hzero : (e.sslRead s.tick room).code = .zeroReturn
    · have hfails : (e.sslRead s.tick room).fails = false := by
        simp [SslResult.fails, SslResult.closes, hret, hzero]
      rw [if_pos hzero, hfails]
      split <;> rfl
    · rw [if_neg hzero]
      by_cases hwants : (e.sslRead s.tick room).code = .wantRead ∨ (e.sslRead s.tick room).code = .wantWrite
      · have hfails : (e.sslRead s.tick room).fails = false := by
          simp [SslResult.fails, (wants_iff hpos).mpr hwants]
        rw [if_pos hwants, hfails]
        rfl
      · have hfails : (e.sslRead s.tick room).fails = true := by
          have hnot : (e.sslRead s.tick room).wants = false :=
            (Bool.not_eq_true _).mp fun h => hwants ((wants_iff hpos).mp h)
          simp [SslResult.fails, SslResult.closes, hret, hzero, hnot]
        rw [if_neg hwants, hfails]
        rfl

/-- A read leaves alone what a flush looks at. -/
theorem pollReceive_aside (room : ℕ) (s : SslEventSocket) :
    (s.pollReceive e room).2.blocking = s.blocking ∧ (s.pollReceive e room).2.sendNeedRead = s.sendNeedRead ∧
      (s.pollReceive e room).2.outgoing = s.outgoing ∧
      (s.pollReceive e room).2.directRetry = s.directRetry := by
  unfold pollReceive
  dsimp only
  split
  · exact ⟨rfl, rfl, rfl, rfl⟩
  · split
    · exact ⟨rfl, rfl, rfl, rfl⟩
    · split
      · exact ⟨rfl, rfl, rfl, rfl⟩
      · split
        · split <;> exact ⟨rfl, rfl, rfl, rfl⟩
        · split <;> exact ⟨rfl, rfl, rfl, rfl⟩

/-- The queue of `s` can be flushed in `u`, where at most reads have been made since. -/
structure Flushing (id fd : ℕ) (s u : SslEventSocket) : Prop where
  reachable : u.view.Reachable
  session : u.session = some id
  ready : u.tlsReady = true
  direct : u.directRetry = false
  nonblocking : u.blocking = false
  sockfd : u.sockfd = some fd
  outgoing : u.outgoing = s.outgoing
  sendNeedRead : u.sendNeedRead = s.sendNeedRead
  log : ∃ es, (∀ ev ∈ es, Event.ofRead id ev = true) ∧ u.log = s.log ++ es

namespace Flushing

theorem base (h : Flushing id fd s u) {b : Socket} (hlog : b.log = u.log)
    (hfd : b.sockfd = u.sockfd) (hmode : b.blocking = u.blocking) :
    Flushing id fd s { u with toSocket := b } := by
  have hview : view { u with toSocket := b } = u.view := by simp only [view, hlog]
  exact { h with
    reachable := hview ▸ h.reachable
    nonblocking := hmode.trans h.nonblocking
    sockfd := hfd.trans h.sockfd
    log := by
      obtain ⟨es, hes, hu⟩ := h.log
      exact ⟨es, hes, hlog.trans hu⟩ }

/-- A read, with the news of what it has given. -/
theorem receive (room : ℕ) (h : Flushing id fd s u) : Flushing id fd s (u.pollReceive e room).2 := by
  have hspec := u.pollReceive_spec (e := e) room
  obtain ⟨hmode, hsend, hqueue, hretry⟩ := u.pollReceive_aside (e := e) room
  obtain ⟨es, hes, hlog⟩ := h.log
  have hview := pollReceive_view (e := e) room h.session h.ready
  refine ⟨(pollReceive_refines room).reachable h.reachable, hspec.session.trans h.session,
    hspec.tlsReady.trans h.ready, hretry.trans h.direct, hmode.trans h.nonblocking,
    hspec.sockfd.trans h.sockfd, hqueue.trans h.outgoing, hsend.trans h.sendNeedRead,
    es ++ [.sslRead id (e.sslRead u.tick room) u.directRetry], fun ev hev => ?_, ?_⟩
  · rcases List.mem_append.mp hev with hold | hnew
    · exact hes ev hold
    · rw [List.mem_singleton.mp hnew]
      exact decide_eq_true rfl
  · rw [show (u.pollReceive e room).2.log = u.log ++ [.sslRead id (e.sslRead u.tick room) u.directRetry] from
      congr_arg Session.log hview, hlog, List.append_assoc]

theorem notice (h : Flushing id fd s u) (bytes : List UInt8) :
    Flushing id fd s (u.record (.notify u.session (.data bytes))) := by
  obtain ⟨es, hes, hlog⟩ := h.log
  have hlive : u.session ≠ none := by simp [h.session]
  have hsteps := notify_ready hlive h.ready (.inl ⟨bytes, rfl⟩)
  refine ⟨h.reachable.steps hsteps, h.session, h.ready, h.direct, h.nonblocking, h.sockfd,
    h.outgoing, h.sendNeedRead, es ++ [.notify u.session (.data bytes)], fun ev hev => ?_, ?_⟩
  · rcases List.mem_append.mp hev with hold | hnew
    · exact hes ev hold
    · rw [List.mem_singleton.mp hnew, h.session]
      exact decide_eq_true rfl
  · show u.log ++ _ = _
    rw [hlog, List.append_assoc]

end Flushing

/-- A send only adds to the history. -/
theorem sendTls_extends (data : List UInt8) (queued : Bool) (s : SslEventSocket) :
    s.log <+: (s.sendTls e data queued).2.log := by
  rcases s.sendTls_cases (e := e) data queued with
    ⟨he, -⟩ | ⟨he, -⟩ | ⟨he, -⟩ | ⟨id, requested, -, -, -, -, -, -, -, he⟩
  · rw [he]
    exact List.prefix_rfl
  · rw [he]
    exact List.prefix_rfl
  · rw [he]
    exact List.prefix_append _ _
  · obtain ⟨hview, -⟩ := afterWrite_view requested queued (e.sslWrite s.tick requested.length)
      (s.ticked.record (.sslWrite id (origin queued) requested (e.sslWrite s.tick requested.length)
        (s.pendingWriteLen ≠ 0) (if queued then 0 else s.queuedBytes)))
    rw [he, show (afterWrite _ _ _ _).2.log = _ from congr_arg Session.log hview, settle_log]
    exact List.prefix_append _ _

/-- The first send of a flush calls `SSL_write` with the front of the queue. -/
theorem Flushing.flush (h : Flushing id fd s u) (hbytes : s.queuedBytes ≠ 0) :
    Makes id s (u.flushQueued e sendBudget).2 .write := by
  obtain ⟨es, hes, hlog⟩ := h.log
  have hsound := h.reachable.sound
  have hq : u.outgoing.Valid := hsound.queue
  have hb : u.outgoing.bytes ≠ 0 := by
    rw [h.outgoing]
    exact hbytes
  have hpos : 0 < u.outgoing.requested sendBudget := hq.requested_pos hb (by decide)
  obtain ⟨hrequest, hlength, -⟩ := hq.request_eq sendBudget hb
  have hd : u.outgoing.request sendBudget ≠ [] := by
    intro hnil
    rw [hnil, List.length_nil] at hlength
    omega
  have hqueued (hretry : u.pendingWriteLen ≠ 0) : u.pendingWriteQueued = true := by
    simpa [directRetry, hretry] using h.direct
  have hfront (n : ℕ) : (u.outgoing.request sendBudget).take n <+: s.outgoing.pending := by
    rw [hrequest, ← h.outgoing, List.take_take]
    exact List.take_prefix _ _
  obtain ⟨data, result, retry, hne, hpre, hwrite⟩ : ∃ data result retry, data ≠ [] ∧
      data <+: s.outgoing.pending ∧ u.log ++ [.sslWrite id .queued data result retry 0] <+:
        (u.sendTls e (u.outgoing.request sendBudget) true).2.log := by
    rcases u.sendTls_cases (e := e) (u.outgoing.request sendBudget) true with
      ⟨-, hwhy⟩ | ⟨-, hwhy⟩ | ⟨-, hlive, hready, hretry, -, hbad⟩ |
        ⟨i, requested, hlive, -, -, -, -, -, hreq, he⟩
    · rcases hwhy with hnone | hready | hnil | ⟨-, hdirect⟩
      · exact absurd (hnone.symm.trans h.session) (by simp)
      · exact absurd (hready.symm.trans h.ready) (by simp)
      · exact absurd hnil hd
      · exact absurd hdirect (by decide)
    · rcases hwhy with ⟨hdirect, -⟩ | ⟨hretry, hother⟩
      · exact absurd hdirect (by decide)
      · exact absurd (hqueued hretry).symm hother
    · obtain ⟨hlen, hhash⟩ :=
        h.reachable.retryInv.offers (v := u.view) hq hlive hretry (hqueued hretry)
      have hok : u.retryMismatch (u.outgoing.request sendBudget) true = false := by
        have hlen' : ¬(u.outgoing.request sendBudget).length < u.pendingWriteLen := by
          exact Nat.not_lt.mpr hlen
        have hhash' : bytesHash ((u.outgoing.request sendBudget).take u.pendingWriteLen) =
          u.pendingWriteHash := hhash
        simp [retryMismatch, hlen', hhash']
      exact absurd (hok.symm.trans hbad) (by decide)
    · obtain rfl : i = id := Option.some.inj (hlive.symm.trans h.session)
      obtain ⟨hview, -⟩ := afterWrite_view requested true (e.sslWrite u.tick requested.length)
        (u.ticked.record (.sslWrite i (origin true) requested (e.sslWrite u.tick requested.length)
          (u.pendingWriteLen ≠ 0) (if true then 0 else u.queuedBytes)))
      have hlog' := congr_arg Session.log hview
      rw [settle_log] at hlog'
      refine ⟨requested, _, _, ?_, ?_, by rw [he, show (afterWrite _ _ _ _).2.log = _ from hlog']; exact List.prefix_rfl⟩
      · rw [hreq]
        split
        · rename_i hretry
          intro hnil
          rcases List.take_eq_nil_iff.mp hnil with hzero | hnil
          · exact hretry hzero
          · exact hd hnil
        · exact hd
      · rw [hreq]
        split
        · exact hfront _
        · have hall := hfront (u.outgoing.request sendBudget).length
          rwa [List.take_length] at hall
  refine ⟨es, data, result, retry, hes, hne, hpre, ?_⟩
  rw [← hlog]
  unfold flushQueued EventSocket.flushQueued
  have hgo : ¬(!u.isValidSocket || u.blocking || sendBudget == 0) = true := by
    simp [Socket.isValidSocket, h.sockfd, h.nonblocking, sendBudget]
  rw [if_neg hgo]
  have hfirst : u.outgoing.bytes ≠ 0 ∧ ({} : FlushResult).bytes < sendBudget := ⟨hb, by decide⟩
  have hloop := flushLoop_first (t := transport e) (I := fun v => u.log ++ _ <+: v.log) (i := 0)
    (fun data v hv => hv.trans (sendTls_extends data true v)) hfirst hwrite
  unfold flushed drain
  dsimp only
  split
  · exact hloop.trans (List.prefix_append _ _)
  · exact hloop

end SslEventSocket

end Aeon
