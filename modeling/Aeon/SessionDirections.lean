import Aeon.SessionUpkeep

/-!
# What a session waits for

The last answers of `SSL_do_handshake`, `SSL_read`, `SSL_write` and `SSL_shutdown`
decide which readiness lets a session go on.  The flags of a TLS object say what its
history says.
-/

namespace Aeon

open Errno History

def SslResult.wantsRead (r : SslResult) : Bool := r.ret ≤ 0 && r.code == .wantRead

def SslResult.wantsWrite (r : SslResult) : Bool := r.ret ≤ 0 && r.code == .wantWrite

/-- A call of OpenSSL has to be repeated once the socket can be read, or written. -/
inductive Readiness
  | read | write
  deriving DecidableEq, Repr

/-- What `SSL_get_error` makes of an answer that asks for readiness. -/
def SslResult.asked (r : SslResult) : Option Readiness :=
  if r.code = .wantRead then some .read else if r.code = .wantWrite then some .write else none

/-- The readiness that an answer of `SSL_do_handshake` asks for. -/
def SslResult.handshakeAsks (r : SslResult) : Option Readiness := if r.ret = 1 then none else r.asked

/-- The readiness that an answer of `SSL_shutdown` asks for.  Once the notification
is sent, that of the peer is read. -/
def SslResult.shutdownAsks (r : SslResult) : Option Readiness :=
  if r.ret = 1 then none else if r.ret = 0 then some .read else r.asked

namespace Event

/-- The answers of `SSL_write` on a session. -/
def writeAnswer (id : ℕ) : Event → Option SslResult
  | .sslWrite i _ _ result _ _ => if i = id then some result else none
  | _ => none

/-- The answers of `SSL_read` on a session. -/
def readAnswer (id : ℕ) : Event → Option SslResult
  | .sslRead i result _ => if i = id then some result else none
  | _ => none

/-- What the calls of `SSL_do_handshake` on a session have asked for. -/
def handshakeAsks (id : ℕ) : Event → Option Readiness
  | .handshake i _ _ _ answer => if i = id then answer.bind SslResult.handshakeAsks else none
  | _ => none

/-- What the calls of `SSL_shutdown` on a session have asked for. -/
def shutdownAsks (id : ℕ) : Event → Option Readiness
  | .sslShutdown i _ _ answer => if i = id then answer.bind SslResult.shutdownAsks else none
  | _ => none

/-- The event is no answer of any of them. -/
structure Silent (e : Event) (id : ℕ) : Prop where
  write : e.writeAnswer id = none
  read : e.readAnswer id = none
  handshake : e.handshakeAsks id = none
  shutdown : e.shutdownAsks id = none

theorem silent_native {e : Event} (h : e.native = true) (id : ℕ) : e.Silent id := by
  cases e with
  | sslWrite | sslRead | handshake | sslShutdown => cases h
  | _ => exact ⟨rfl, rfl, rfl, rfl⟩

/-- An answer belongs to its session. -/
theorem silent_of_session {e : Event} {id : ℕ} (h : e.session ≠ some id) : e.Silent id := by
  cases e with
  | sslWrite i => exact ⟨if_neg fun hi => h (congr_arg some hi), rfl, rfl, rfl⟩
  | sslRead i => exact ⟨rfl, if_neg fun hi => h (congr_arg some hi), rfl, rfl⟩
  | handshake i => exact ⟨rfl, rfl, if_neg fun hi => h (congr_arg some hi), rfl⟩
  | sslShutdown i => exact ⟨rfl, rfl, rfl, if_neg fun hi => h (congr_arg some hi)⟩
  | _ => exact ⟨rfl, rfl, rfl, rfl⟩

end Event

namespace SslEventSocket

variable {e : TlsHost} {s t u : SslEventSocket}

/-- The handshake goes on in the direction that OpenSSL has asked for.  Until then a
client writes first. -/
def Shakes (s : SslEventSocket) : Option Readiness → Prop
  | some readiness => s.needWrite = (readiness == .write)
  | none => s.serverSide = false → s.needWrite = true

/-- The shutdown goes on in the direction that OpenSSL has asked for.  Until then its
notification has not been sent, and only a shutdown that is requested has asked. -/
structure Shuts (s : SslEventSocket) (asked : Option Readiness) : Prop where
  needRead : s.shutdownNeedRead = (asked == some .read)
  needWrite : s.shutdownNeedWrite = (asked == some .write)
  unsent : asked = none → s.shutdownNotifySent = false
  unrequested : s.shutdownRequested = false → asked = none

/-- The flags are what these last answers ask for. -/
structure Obeys (s : SslEventSocket) (write read : Option SslResult)
    (handshake shutdown : Option Readiness) : Prop where
  write : s.sendNeedRead = write.any SslResult.wantsRead
  read : ∀ r, read = some r → r.wantsWrite = true → s.recvNeedWrite = true
  handshake : s.tlsReady = false → s.Shakes handshake
  shutdown : s.Shuts shutdown

/-- The flags follow the last answers of the live session. -/
def Directed (s : SslEventSocket) : Prop :=
  ∀ id, s.session = some id → s.Obeys (latest (Event.writeAnswer id) s.log)
    (latest (Event.readAnswer id) s.log) (latest (Event.handshakeAsks id) s.log)
    (latest (Event.shutdownAsks id) s.log)

/-- What the handshake depends on. -/
def shaking (s : SslEventSocket) := (s.tlsReady, s.serverSide, s.needWrite)

/-- What the shutdown depends on. -/
def shutting (s : SslEventSocket) :=
  (s.shutdownRequested, s.shutdownNotifySent, s.shutdownNeedRead, s.shutdownNeedWrite)

/-- What the directions depend on. -/
def steering (s : SslEventSocket) :=
  (s.session, s.sendNeedRead, s.recvNeedWrite, s.shaking, s.shutting, s.log)

theorem shakes_of_shaking {asked : Option Readiness} (hs : t.shaking = s.shaking)
    (h : s.tlsReady = false → s.Shakes asked) (hready : t.tlsReady = false) : t.Shakes asked := by
  simp only [shaking, Prod.mk.injEq] at hs
  obtain ⟨hsame, hside, hwrite⟩ := hs
  have hold := h (hsame.symm.trans hready)
  cases asked with
  | none => exact fun hclient => hwrite.trans (hold (hside.symm.trans hclient))
  | some readiness => exact hwrite.trans hold

theorem Shuts.of_eq {asked : Option Readiness} (h : s.Shuts asked) (hs : t.shutting = s.shutting) :
    t.Shuts asked := by
  simp only [shutting, Prod.mk.injEq] at hs
  obtain ⟨hrequested, hsent, hread, hwrite⟩ := hs
  exact ⟨hread.trans h.needRead, hwrite.trans h.needWrite, fun hnone => hsent.trans (h.unsent hnone),
    fun hreq => h.unrequested (hrequested.symm.trans hreq)⟩

/-- A shutdown that begins has asked for nothing yet. -/
theorem Shuts.begun {asked : Option Readiness} (h : s.Shuts asked) (hs : s.shutdownRequested = false)
    (ht : t.shutting = (true, false, false, false)) : t.Shuts asked := by
  simp only [shutting, Prod.mk.injEq] at ht
  obtain ⟨-, hsent, hread, hwrite⟩ := ht
  rw [h.unrequested hs]
  exact ⟨hread, hwrite, fun _ => hsent, fun _ => rfl⟩

/-- The flags that a function leaves alone. -/
theorem Obeys.of_eq {write read : Option SslResult} {handshake shutdown : Option Readiness}
    (h : s.Obeys write read handshake shutdown) (hsend : t.sendNeedRead = s.sendNeedRead)
    (hrecv : t.recvNeedWrite = s.recvNeedWrite) (hshake : t.shaking = s.shaking)
    (hshut : t.shutting = s.shutting) : t.Obeys write read handshake shutdown where
  write := hsend.trans h.write
  read r hr hwants := hrecv.trans (h.read r hr hwants)
  handshake := shakes_of_shaking hshake h.handshake
  shutdown := h.shutdown.of_eq hshut

namespace Directed

/-- Nothing is answered, and the flags stay what the answers ask for. -/
theorem frame (h : Directed s) (es : List Event) (hlog : t.log = s.log ++ es)
    (hes : ∀ ev ∈ es, ∀ id, ev.Silent id) (hlive : ∀ id, t.session = some id → s.session = some id)
    (hobeys : ∀ write read handshake shutdown, s.Obeys write read handshake shutdown →
      t.Obeys write read handshake shutdown) : Directed t := by
  intro id hid
  rw [hlog, latest_append fun ev hev => (hes ev hev id).write,
    latest_append fun ev hev => (hes ev hev id).read,
    latest_append fun ev hev => (hes ev hev id).handshake,
    latest_append fun ev hev => (hes ev hev id).shutdown]
  exact hobeys _ _ _ _ (h id (hlive id hid))

/-- An event of the live session, after which the flags are what it asks for. -/
theorem answered {id : ℕ} (h : Directed s) (hid : s.session = some id) (ev : Event)
    (hlog : t.log = s.log ++ [ev]) (hlive : t.session = s.session)
    (hobeys : ∀ write read handshake shutdown, s.Obeys write read handshake shutdown →
      t.Obeys ((ev.writeAnswer id).or write) ((ev.readAnswer id).or read)
        ((ev.handshakeAsks id).or handshake) ((ev.shutdownAsks id).or shutdown)) : Directed t := by
  intro i hi
  obtain rfl : id = i := by
    rw [hlive, hid] at hi
    exact Option.some.inj hi
  rw [hlog, latest_snoc, latest_snoc, latest_snoc, latest_snoc]
  exact hobeys _ _ _ _ (h id hid)

theorem same (h : Directed s) (hs : t.steering = s.steering) : Directed t := by
  simp only [steering, Prod.mk.injEq] at hs
  obtain ⟨hlive, hsend, hrecv, hshake, hshut, hlog⟩ := hs
  exact h.frame [] (by rw [hlog, List.append_nil]) (by simp) (fun id hid => hlive ▸ hid)
    fun _ _ _ _ hobeys => hobeys.of_eq hsend hrecv hshake hshut

/-- One event is added. -/
theorem adds (h : Directed s) (ev : Event) (hev : ∀ id, ev.Silent id)
    (hs : t.steering = (s.record ev).steering) : Directed t := by
  refine Directed.same ?_ hs
  exact h.frame [ev] rfl (fun _ hmem => List.mem_singleton.mp hmem ▸ hev) (fun _ hid => hid)
    fun _ _ _ _ hobeys => hobeys.of_eq rfl rfl rfl rfl

/-- A session that has ended waits for nothing. -/
theorem ended (hnone : s.session = none) : Directed s := by
  intro id hid
  rw [hnone] at hid
  cases hid

theorem onSocket {α : Type} {f : Socket → α × Socket} (hf : Socket.Silent f) (h : Directed s) :
    Directed (s.onSocket f).2 := by
  obtain ⟨es, hes, hlog⟩ := hf s.toSocket
  exact h.frame es hlog (fun ev hev => Event.silent_native (hes ev hev)) (fun _ hid => hid)
    fun _ _ _ _ hobeys => hobeys.of_eq rfl rfl rfl rfl

theorem close (s : SslEventSocket) : Directed (s.close e).2 := ended s.close_none.1

/-- An `SSL_shutdown` that leaves the flags as its answer asks. -/
theorem shut_answered {id outstanding : ℕ} {r : SslResult} (h : Directed s)
    (hid : s.session = some id)
    (hlog : t.log = s.log ++ [.sslShutdown id .pollStep outstanding (some r)])
    (hlive : t.session = s.session) (hsend : t.sendNeedRead = s.sendNeedRead)
    (hrecv : t.recvNeedWrite = s.recvNeedWrite) (hshake : t.shaking = s.shaking)
    (hshut : ∀ asked, s.Shuts asked → t.Shuts (r.shutdownAsks.or asked)) : Directed t := by
  have hasks : Event.shutdownAsks id (.sslShutdown id .pollStep outstanding (some r)) =
      r.shutdownAsks := if_pos rfl
  refine h.answered hid _ hlog hlive fun write read handshake shutdown hobeys => ?_
  rw [hasks]
  exact ⟨hsend.trans hobeys.write, fun a ha hwants => hrecv.trans (hobeys.read a ha hwants),
    shakes_of_shaking hshake hobeys.handshake, hshut shutdown hobeys.shutdown⟩

theorem callShutdown {id : ℕ} (flags : Flags) (hid : s.session = some id)
    (hrequested : s.shutdownRequested = true) (h : Directed s) :
    Directed (s.callShutdown e id flags).2 := by
  -- an answer that asks for nothing leaves the flags alone
  have hquiet {t : SslEventSocket} (hasks : (e.sslShutdown s.tick).shutdownAsks = none)
      (hs : t.steering = (s.record (.sslShutdown id .pollStep s.pendingWriteLen
        (some (e.sslShutdown s.tick)))).steering) : Directed t := by
    simp only [steering, Prod.mk.injEq] at hs
    obtain ⟨hlive, hsend, hrecv, hshake, hshut, hlog⟩ := hs
    refine h.shut_answered hid hlog hlive hsend hrecv hshake fun asked hasked => ?_
    rw [hasks]
    exact hasked.of_eq hshut
  have hturned {t : SslEventSocket} (readiness : Readiness)
      (hasks : (e.sslShutdown s.tick).shutdownAsks = some readiness)
      (hshut : t.shutdownRequested = true ∧ t.shutdownNeedRead = (readiness == .read) ∧
        t.shutdownNeedWrite = (readiness == .write))
      (hlive : t.session = s.session) (hsend : t.sendNeedRead = s.sendNeedRead)
      (hrecv : t.recvNeedWrite = s.recvNeedWrite) (hshake : t.shaking = s.shaking)
      (hlog : t.log = s.log ++ [.sslShutdown id .pollStep s.pendingWriteLen
        (some (e.sslShutdown s.tick))]) : Directed t := by
    obtain ⟨hreq, hread, hwrite⟩ := hshut
    refine h.shut_answered hid hlog hlive hsend hrecv hshake fun asked _ => ?_
    rw [hasks]
    refine ⟨hread.trans ?_, hwrite.trans ?_, fun hnone => ?_, fun hno => ?_⟩
    · cases readiness <;> rfl
    · cases readiness <;> rfl
    · cases hnone
    · rw [hreq] at hno
      cases hno
  unfold SslEventSocket.callShutdown
  dsimp only
  split
  · rename_i hdone
    exact hquiet (if_pos hdone) rfl
  · rename_i hopen
    split
    · rename_i hsent
      refine hturned .read ?_ ⟨hrequested, rfl, rfl⟩ rfl rfl rfl rfl rfl
      rw [SslResult.shutdownAsks, if_neg hopen, if_pos hsent]
    · rename_i hunsent
      have hasked : (e.sslShutdown s.tick).shutdownAsks = (e.sslShutdown s.tick).asked := by
        rw [SslResult.shutdownAsks, if_neg hopen, if_neg hunsent]
      split
      · rename_i hwant
        obtain ⟨readiness, hreadiness, hread, hwrite⟩ : ∃ readiness,
            (e.sslShutdown s.tick).asked = some readiness ∧
              ((e.sslShutdown s.tick).code == SslCode.wantRead) = (readiness == .read) ∧
              ((e.sslShutdown s.tick).code == .wantWrite) = (readiness == .write) := by
          rcases hwant with hwant | hwant
          · exact ⟨.read, by simp [SslResult.asked, hwant], by simp [hwant]⟩
          · exact ⟨.write, by simp [SslResult.asked, hwant], by simp [hwant]⟩
        split <;> exact hturned readiness (hasked.trans hreadiness) ⟨hrequested, hread, hwrite⟩ rfl rfl
          rfl rfl rfl
      · rename_i hwant
        obtain ⟨hread, hwrite⟩ := not_or.mp hwant
        have hnone : (e.sslShutdown s.tick).shutdownAsks = none := by
          rw [hasked, SslResult.asked, if_neg hread, if_neg hwrite]
        split
        · exact hquiet hnone rfl
        · exact hquiet hnone rfl

theorem shutdownStep {id : ℕ} (flags : Flags) (hid : s.session = some id)
    (hrequested : s.shutdownRequested = true) (h : Directed s) :
    Directed (s.shutdownStep e id flags).2 := by
  have hnow : Directed (s.clock e).2 := h.same rfl
  unfold SslEventSocket.shutdownStep
  dsimp only
  split
  · exact hnow.same rfl
  · split
    · split
      · exact hnow
      · exact hnow.same rfl
    · split
      · exact hnow
      · split
        · exact hnow
        · split
          · exact hnow
          · exact hnow.callShutdown flags hid hrequested

/-- An `SSL_do_handshake` that leaves the flag as its answer asks. -/
theorem shake_answered {id : ℕ} {done strict verified : Bool} {r : SslResult} (h : Directed s)
    (hid : s.session = some id) (hready : s.tlsReady = false)
    (hlog : t.log = s.log ++ [.handshake id done strict verified (some r)])
    (hlive : t.session = s.session) (hsend : t.sendNeedRead = s.sendNeedRead)
    (hrecv : t.recvNeedWrite = s.recvNeedWrite) (hshut : t.shutting = s.shutting)
    (hshake : ∀ asked, s.Shakes asked → t.tlsReady = false → t.Shakes (r.handshakeAsks.or asked)) :
    Directed t := by
  have hasks : Event.handshakeAsks id (.handshake id done strict verified (some r)) =
      r.handshakeAsks := if_pos rfl
  refine h.answered hid _ hlog hlive fun write read handshake shutdown hobeys => ?_
  rw [hasks]
  exact ⟨hsend.trans hobeys.write, fun a ha hwants => hrecv.trans (hobeys.read a ha hwants),
    hshake handshake (hobeys.handshake hready), hobeys.shutdown.of_eq hshut⟩

theorem handshakeStep {id : ℕ} (flags : Flags) (hid : s.session = some id)
    (hready : s.tlsReady = false) (h : Directed s) : Directed (s.handshakeStep e id flags).2 := by
  unfold SslEventSocket.handshakeStep
  split
  · exact h.same rfl
  · split
    · exact h
    · dsimp only
      have hquiet {t : SslEventSocket} (hasks : (e.doHandshake s.tick).handshakeAsks = none)
          (hs : t.steering = (s.record (.handshake id ((e.doHandshake s.tick).ret = 1)
            (!s.serverSide && s.verifyMode == .strict) (e.verifyOk s.tick)
            (some (e.doHandshake s.tick)))).steering) : Directed t := by
        simp only [steering, Prod.mk.injEq] at hs
        obtain ⟨hlive, hsend, hrecv, hshake, hshut, hlog⟩ := hs
        refine h.shake_answered hid hready hlog hlive hsend hrecv hshut fun asked hasked => ?_
        rw [hasks]
        exact shakes_of_shaking hshake fun _ => hasked
      have hturned {t : SslEventSocket} (readiness : Readiness)
          (hasks : (e.doHandshake s.tick).handshakeAsks = some readiness)
          (hwrite : t.needWrite = (readiness == .write)) (hlive : t.session = s.session)
          (hsend : t.sendNeedRead = s.sendNeedRead) (hrecv : t.recvNeedWrite = s.recvNeedWrite)
          (hshut : t.shutting = s.shutting)
          (hlog : t.log = s.log ++ [.handshake id ((e.doHandshake s.tick).ret = 1)
            (!s.serverSide && s.verifyMode == .strict) (e.verifyOk s.tick)
            (some (e.doHandshake s.tick))]) : Directed t := by
        refine h.shake_answered hid hready hlog hlive hsend hrecv hshut fun asked _ _ => ?_
        rw [hasks]
        exact hwrite
      split
      · rename_i hdone
        have hnone : (e.doHandshake s.tick).handshakeAsks = none := if_pos hdone
        split
        · exact hquiet hnone rfl
        · refine Directed.adds (s := { s.ticked.record (.handshake id _ _ _ _) with
            tlsReady := true, needWrite := false }.setError errNone) ?_ (.notify s.session .connect)
            (fun _ => ⟨rfl, rfl, rfl, rfl⟩) rfl
          exact h.shake_answered hid hready rfl rfl rfl rfl rfl fun _ _ hno => Bool.noConfusion hno
      · rename_i hpending
        have hasked : (e.doHandshake s.tick).handshakeAsks = (e.doHandshake s.tick).asked :=
          if_neg hpending
        split
        · rename_i hread
          refine hturned .read ?_ rfl rfl rfl rfl rfl rfl
          rw [hasked, SslResult.asked, if_pos hread]
        · rename_i hread
          split
          · rename_i hwrite
            refine hturned .write ?_ rfl rfl rfl rfl rfl rfl
            rw [hasked, SslResult.asked, if_neg hread, if_pos hwrite]
          · rename_i hwrite
            have hnone : (e.doHandshake s.tick).handshakeAsks = none := by
              rw [hasked, SslResult.asked, if_neg hread, if_neg hwrite]
            split <;> exact hquiet hnone rfl

theorem pollStep (flags : Flags) (h : Directed s) : Directed (s.pollStep e flags).2 := by
  unfold SslEventSocket.pollStep
  split
  · exact h.same rfl
  · rename_i id hid
    split
    · split
      · rename_i hrequested
        exact h.shutdownStep flags hid hrequested
      · split
        · exact h.same rfl
        · exact h
    · rename_i hready
      have hnow : Directed (s.clock e).2 := h.same rfl
      dsimp only
      split
      · exact hnow.same rfl
      · exact hnow.handshakeStep flags hid (Bool.eq_false_of_not_eq_true hready)

/-- An `SSL_read` that leaves the flag as its answer asks. -/
theorem read_answered {id : ℕ} {r : SslResult} {retry : Bool} (h : Directed s)
    (hid : s.session = some id) (hlog : t.log = s.log ++ [.sslRead id r retry])
    (hlive : t.session = s.session) (hsend : t.sendNeedRead = s.sendNeedRead)
    (hshake : t.shaking = s.shaking) (hrecv : r.wantsWrite = true → t.recvNeedWrite = true)
    (hshut : ∀ asked, s.Shuts asked → t.Shuts asked) : Directed t := by
  have hanswer : Event.readAnswer id (.sslRead id r retry) = some r := if_pos rfl
  refine h.answered hid _ hlog hlive fun write read handshake shutdown hobeys => ?_
  rw [hanswer]
  refine ⟨hsend.trans hobeys.write, fun a ha hwants => hrecv ?_,
    shakes_of_shaking hshake hobeys.handshake, hshut shutdown hobeys.shutdown⟩
  rwa [show r = a from Option.some.inj ha]

theorem pollReceive (room : ℕ) (h : Directed s) : Directed (s.pollReceive e room).2 := by
  unfold SslEventSocket.pollReceive
  dsimp only
  split
  · exact h.same rfl
  · rename_i id hid
    split
    · exact h.same rfl
    · split
      · rename_i hpos
        refine h.read_answered hid rfl rfl rfl rfl (fun hwants => ?_) fun _ hasked => hasked.of_eq rfl
        have hle : (e.sslRead s.tick room).ret ≤ 0 := by
          simp only [SslResult.wantsWrite, Bool.and_eq_true, decide_eq_true_eq] at hwants
          exact hwants.1
        omega
      · split
        · rename_i hzero
          have hnot (hwants : (e.sslRead s.tick room).wantsWrite = true) : s.recvNeedWrite = true := by
            simp [SslResult.wantsWrite, hzero] at hwants
          split
          · exact h.read_answered hid rfl rfl rfl rfl hnot fun _ hasked => hasked.of_eq rfl
          · rename_i hopen
            exact h.read_answered hid rfl rfl rfl rfl hnot fun _ hasked =>
              hasked.begun (Bool.eq_false_of_not_eq_true hopen) rfl
        · split
          · refine h.read_answered hid rfl rfl rfl rfl (fun hwants => ?_) fun _ hasked => hasked.of_eq rfl
            simp only [SslResult.wantsWrite, Bool.and_eq_true] at hwants
            exact hwants.2
          · rename_i hother
            refine h.read_answered hid rfl rfl rfl rfl (fun hwants => absurd ?_ hother)
              fun _ hasked => hasked.of_eq rfl
            simp only [SslResult.wantsWrite, Bool.and_eq_true, beq_iff_eq] at hwants
            exact .inr hwants.2

/-- An `SSL_write` that leaves the flag as its answer asks. -/
theorem write_answered {id waiting : ℕ} {origin : Origin} {data : List UInt8} {r : SslResult}
    {retry : Bool} (h : Directed s) (hid : s.session = some id)
    (hlog : t.log = s.log ++ [.sslWrite id origin data r retry waiting])
    (hlive : t.session = s.session) (hsend : t.sendNeedRead = r.wantsRead)
    (hrecv : t.recvNeedWrite = s.recvNeedWrite) (hshake : t.shaking = s.shaking)
    (hshut : t.shutting = s.shutting) : Directed t := by
  have hanswer : Event.writeAnswer id (.sslWrite id origin data r retry waiting) = some r := if_pos rfl
  refine h.answered hid _ hlog hlive fun write read handshake shutdown hobeys => ?_
  rw [hanswer]
  exact ⟨hsend, fun a ha hwants => hrecv.trans (hobeys.read a ha hwants),
    shakes_of_shaking hshake hobeys.handshake, hobeys.shutdown.of_eq hshut⟩

/-- The flag of a write is what the answer asks for. -/
theorem afterWrite_sendNeedRead (data : List UInt8) (queued : Bool) (answer : SslResult)
    (s : SslEventSocket) : (s.afterWrite data queued answer).2.sendNeedRead = answer.wantsRead := by
  unfold SslEventSocket.afterWrite SslResult.wantsRead
  split
  · rename_i hpos
    have hle : ¬answer.ret ≤ 0 := by omega
    rw [decide_eq_false hle]
    rfl
  · rename_i hle
    rw [decide_eq_true (by omega : answer.ret ≤ 0), Bool.true_and]
    split
    · rfl
    · rename_i hother
      have hread : answer.code ≠ .wantRead := fun h => hother (.inl h)
      exact (beq_eq_false_iff_ne.mpr hread).symm

/-- The rest of what the directions depend on stays. -/
theorem afterWrite_steering (data : List UInt8) (queued : Bool) (answer : SslResult)
    (s : SslEventSocket) :
    { (s.afterWrite data queued answer).2 with sendNeedRead := s.sendNeedRead }.steering =
      s.steering := by
  unfold SslEventSocket.afterWrite
  split
  · rfl
  · split
    · dsimp only
      split <;> rfl
    · rfl

theorem sendTls (data : List UInt8) (queued : Bool) (h : Directed s) :
    Directed (s.sendTls e data queued).2 := by
  rcases s.sendTls_cases (e := e) data queued with
    ⟨he, -⟩ | ⟨he, -⟩ | ⟨he, -⟩ | ⟨id, requested, hid, -, -, -, -, -, -, he⟩
  · exact he ▸ h.same rfl
  · exact he ▸ h
  · exact he ▸ h.adds (.retryRejected (origin queued)) (fun _ => ⟨rfl, rfl, rfl, rfl⟩) rfl
  · rw [he]
    have hsteering := afterWrite_steering requested queued (e.sslWrite s.tick requested.length)
      (s.ticked.record (.sslWrite id (origin queued) requested (e.sslWrite s.tick requested.length)
        (s.pendingWriteLen ≠ 0) (if queued then 0 else s.queuedBytes)))
    simp only [steering, Prod.mk.injEq] at hsteering
    obtain ⟨hlive, -, hrecv, hshake, hshut, hlog⟩ := hsteering
    exact h.write_answered hid hlog hlive (afterWrite_sendNeedRead _ _ _ _) hrecv hshake hshut

theorem flushQueued (budget : ℕ) (h : Directed s) : Directed (s.flushQueued e budget).2 := by
  have hflushed (f : Flushed SslEventSocket) (hf : Directed f.state) : Directed (flushed f) := by
    unfold flushed
    dsimp only
    split
    · exact hf.adds (.discarded f.state.session) (fun _ => ⟨rfl, rfl, rfl, rfl⟩) rfl
    · exact hf.same rfl
  refine hflushed _ ?_
  exact flushQueued_keeps (fun data _ ht => ht.sendTls data true) budget s.toEventSocket s h

theorem queueWrite (data : Option (List UInt8)) (h : Directed s) :
    Directed (s.queueWrite data).2 := by
  have hsocket : (s.toEventSocket.queueWrite (!s.shutdownRequested) data).2.log = s.log := by
    rcases s.toEventSocket.queueWrite_cases (!s.shutdownRequested) data with
      he | ⟨he, -⟩ | ⟨-, -, -, -, -, he⟩
    · rw [he]
    · rw [he]
    · rw [he]
      unfold EventSocket.withOutgoing
      rfl
  unfold SslEventSocket.queueWrite
  dsimp only
  split
  · refine h.adds (.accepted s.session (data.getD [])) (fun _ => ⟨rfl, rfl, rfl, rfl⟩) ?_
    simp only [steering, shaking, shutting, record, Socket.record, hsocket]
  · exact h.same (by simp only [steering, shaking, shutting, hsocket])

theorem beginGracefulShutdown (timeoutMs : Int) (h : Directed s) :
    Directed (s.beginGracefulShutdown e timeoutMs).2 := by
  unfold SslEventSocket.beginGracefulShutdown
  split
  · exact h.same rfl
  · split
    · exact h
    · rename_i hopen
      refine h.frame [] (List.append_nil _).symm (by simp) (fun _ hid => hid) fun _ _ _ _ hobeys => ?_
      exact ⟨hobeys.write, hobeys.read, shakes_of_shaking rfl hobeys.handshake,
        hobeys.shutdown.begun (Bool.eq_false_of_not_eq_true hopen) rfl⟩

/-- No answer of a session still to come is in the history. -/
theorem silent_fresh (hn : s.view.Numbered) (ev : Event) (hev : ev ∈ s.log) : ev.Silent s.nextSession := by
  refine Event.silent_of_session fun hid => ?_
  have hlt : s.nextSession < s.view.fresh := hn.events ev hev _ hid
  exact Nat.lt_irrefl _ hlt

/-- A session on which nothing has been answered, with the flags it begins with. -/
theorem unanswered {id : ℕ} (hid : s.session = some id) (hlog : ∀ ev ∈ s.log, ev.Silent id)
    (hunused : s.Unused) (hfirst : s.serverSide = false → s.needWrite = true) : Directed s := by
  intro i hi
  obtain rfl : id = i := Option.some.inj (hid.symm.trans hi)
  have hall : s.log = [] ++ s.log := rfl
  rw [hall, latest_append fun ev hev => (hlog ev hev).write,
    latest_append fun ev hev => (hlog ev hev).read, latest_append fun ev hev => (hlog ev hev).handshake,
    latest_append fun ev hev => (hlog ev hev).shutdown]
  refine ⟨hunused.sendNeedRead, fun r hr => ?_, fun _ => hfirst, hunused.shutdownNeedRead,
    hunused.shutdownNeedWrite, fun _ => hunused.shutdownNotifySent, fun _ => rfl⟩
  cases hr

/-- A session that has just been made has no answers yet. -/
theorem opened (hn : s.view.Numbered) (h : Opened s t) (hfirst : t.needWrite = true) : Directed t := by
  obtain ⟨es, hlog, hnative⟩ := h.log
  refine unanswered h.session (fun ev hev => ?_) h.unused fun _ => hfirst
  rw [hlog, List.append_assoc, List.mem_append, List.mem_append, List.mem_cons] at hev
  rcases hev with hev | hev | rfl | hev
  · exact silent_fresh hn ev hev
  · obtain ⟨id, -, rfl⟩ := List.mem_map.mp hev
    exact ⟨rfl, rfl, rfl, rfl⟩
  · exact ⟨rfl, rfl, rfl, rfl⟩
  · exact Event.silent_native (hnative ev hev) _

/-- A client writes first. -/
theorem startClient_first (identity : String) (s : SslEventSocket) :
    (s.startClient e identity).2.session = none ∨ (s.startClient e identity).2.needWrite = true := by
  have hrefuse (code : Int) (u : SslEventSocket) : (u.refuseClient e code).2.session = none :=
    (u.setError code).close_none.1
  unfold SslEventSocket.startClient
  dsimp only
  split
  · exact .inl (hrefuse _ _)
  · generalize ({ s with
        expectedIdentity := identity
        toSocket := (s.toSocket.setBlocking e.toHost false).2 } : SslEventSocket) = t
    split
    · exact .inl (hrefuse _ _)
    · have hmade (hdone : (t.initSession e false).1 = true) : (t.initSession e false).2.needWrite = true := by
        unfold initSession at hdone ⊢
        split at hdone
        · cases hdone
        · rename_i hguard
          rw [if_neg hguard]
          dsimp only at hdone ⊢
          split at hdone
          · cases hdone
          · rename_i hnew
            rw [if_neg hnew]
            split at hdone
            · cases hdone
            · rename_i hset
              rw [if_neg hset]
              rfl
      generalize t.initSession e false = made at hmade ⊢
      split
      · exact .inl (hrefuse _ _)
      · rename_i hdone
        have hnamed : (made.2.requireIdentity e).2.needWrite = made.2.needWrite := by
          unfold requireIdentity
          split
          · dsimp only
            split <;> rfl
          · rfl
        split
        · exact .inl (hrefuse _ _)
        · have hsni : ((made.2.requireIdentity e).2.requestServerName e identity).2.needWrite = true := by
            refine Eq.trans ?_ (hnamed.trans (hmade (by simpa using hdone)))
            unfold requestServerName
            split <;> rfl
          split
          · exact .inl (hrefuse _ _)
          · exact .inr hsni

theorem startClient (identity : String) (hn : s.view.Numbered) :
    Directed (s.startClient e identity).2 := by
  rcases startClient_first (e := e) identity s with hnone | hfirst
  · exact ended hnone
  · rcases s.startClient_ends (e := e) identity with ⟨u, hu⟩ | hopened
    · exact hu ▸ close u
    · exact opened hn hopened hfirst

theorem upheld : Upheld e (fun s => s.view.Reachable) Directed where
  base s b hb hs := hs.same (by simp only [steering, shaking, shutting, hb.log])
  notice s n _ hs := hs.adds (.notify s.session n) (fun _ => ⟨rfl, rfl, rfl, rfl⟩) rfl
  settings _ _ _ _ _ hs := hs.same rfl
  modeChanged s hs := hs.adds (.verifyMode s.session (s.verifyMode == .strict))
    (fun _ => ⟨rfl, rfl, rfl, rfl⟩) rfl
  setMaxQueuedBytes _ _ hs := hs.same rfl
  close s _ := .close s
  pollStep flags _ hs := hs.pollStep flags
  pollReceive _ room hs := hs.pollReceive room
  sendTls data _ hs := hs.sendTls data false
  queueWrite data _ _ hs := hs.queueWrite data
  flushQueued _ _ hs := hs.flushQueued sendBudget
  beginGracefulShutdown timeoutMs _ hs := hs.beginGracefulShutdown timeoutMs
  startClient identity _ hr _ := .startClient identity hr.numbered

end Directed

theorem initSession_serverSide (server : Bool) (s : SslEventSocket) :
    (s.initSession e server).2.serverSide = s.serverSide := by
  have hfreed : s.freeSession.serverSide = s.serverSide := by
    unfold freeSession
    split <;> rfl
  unfold initSession
  split
  · rfl
  · dsimp only
    generalize s.freeSession = u at hfreed
    split
    · exact hfreed
    · split
      · exact hfreed
      · exact hfreed

theorem adoptAccepted_serverSide (retained : Bool) (base : EventSocket) :
    (adoptAccepted e retained base).serverSide = true := by
  unfold adoptAccepted
  dsimp only
  split
  · rfl
  · have hmade := initSession_serverSide (e := e) true
      { toEventSocket := base, serverSide := true, verifyMode := .off, hasCtx := retained }
    generalize initSession e true _ = made at hmade
    split <;> exact hmade

theorem setHandshakeTimeout_serverSide (milliseconds : Int) (s : SslEventSocket) :
    (s.setHandshakeTimeout e milliseconds).2.serverSide = s.serverSide := by
  unfold setHandshakeTimeout
  split
  · rfl
  · dsimp only
    split <;> rfl

end SslEventSocket

open SslEventSocket

/-- A TLS object is in a state of the session model, and follows its answers. -/
def EventObject.Steered : EventObject → Prop
  | .tls s => s.view.Reachable ∧ s.Directed
  | _ => True

namespace ObjectStep

variable {e : NetHost} {o o' : EventObject}

/-- Only an accepted connection has its session from the start. -/
theorem new_served {s : SslEventSocket} (h : NewObject e (.tls s)) (hlive : s.session ≠ none) :
    s.serverSide = true := by
  generalize ho : EventObject.tls s = o at h
  cases h with
  | tcp | listener | udp | acceptedTcp => cases ho
  | tls ctx =>
    obtain rfl := EventObject.tls.inj ho
    cases ctx <;> exact absurd rfl hlive
  | @acceptedTls fd retained timeoutMs t ht =>
    obtain rfl := EventObject.tls.inj ho
    unfold EventLoop.acceptedTls at ht
    dsimp only at ht
    split at ht
    · cases ht
    · split at ht
      · obtain rfl := Option.some.inj ht
        exact (setHandshakeTimeout_serverSide timeoutMs _).trans (adoptAccepted_serverSide retained _)
      · cases ht

theorem new_steered (h : NewObject e o) : o.Steered := by
  cases o with
  | tls s =>
    have hs := h.untouched
    refine ⟨new_modelled h, ?_⟩
    by_cases hlive : s.session = none
    · exact .ended hlive
    · obtain ⟨id, hid⟩ := Option.ne_none_iff_exists'.mp hlive
      refine .unanswered hid (fun ev hev => ?_) hs.unused fun hclient => ?_
      · rcases hs.log ev hev with hnative | ⟨i, rfl⟩
        · exact Event.silent_native hnative id
        · exact ⟨rfl, rfl, rfl, rfl⟩
      · exact Bool.noConfusion ((new_served h hlive).symm.trans hclient)
  | _ => trivial

theorem steered (h : ObjectStep e o o') (ho : o.Steered) : o'.Steered := by
  cases o with
  | tls s =>
    obtain ⟨hr, hs⟩ := ho
    obtain ⟨t, rfl, ht⟩ := h.part.upheld Directed.upheld
      (fun f hf s hs => Directed.onSocket hf hs)
      (fun s hs => Directed.onSocket (Socket.silent_close e.tls.toHost) hs) hr hs
    exact ⟨h.modelled hr, ht⟩
  | _ =>
    cases o' with
    | tls s => cases h.cls
    | _ => trivial

end ObjectStep

/-- Every TLS object of every program follows its answers. -/
theorem EventLoop.Reaches.directed {h : LoopHost} {fuel id : ℕ} {w : EventWorld}
    {s : SslEventSocket} (hw : Reaches h fuel w) (hs : w.find id = some (.tls s)) : s.Directed := by
  have hsteered : (EventObject.tls s).Steered :=
    hw.each (fun _ _ => ObjectStep.new_steered) (fun _ _ _ => ObjectStep.steered) hs
  exact hsteered.2

end Aeon
