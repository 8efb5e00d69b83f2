import Aeon.EventSocket
import Aeon.Library.Threads

/-!
# Producers against `close`

Any thread may call `queue_write` while the owner closes the socket.  The checks
of `queue_write` and its append under the queue lock are two steps, and so are
the clear under the lock and the native close of `event_socket::close`.
-/

namespace Aeon

open Threads

/-- The socket, with the writes that were appended after a `close` had cleared the queue. -/
structure ProducedSocket where
  socket : EventSocket
  cleared : Bool := false
  late : List (List UInt8) := []
  deriving DecidableEq

inductive ProducerOp
  | queueWrite (accepts : Bool) (data : Option (List UInt8))
  | close (h : Host)

inductive ProducerCall
  | calling (o : ProducerOp)
  | admitted (data : List UInt8)
  | emptied (h : Host)
  | done (r : Bool)

namespace ProducedSocket

variable {ι : Type}

/-- The checks of `queue_write`: the answer they give already, or the data to append. -/
def precheck (accepts : Bool) (data : Option (List UInt8)) (s : EventSocket) : ProducerCall :=
  if !s.isValidSocket || !s.connected || s.blocking || data.isNone || !accepts then .done false
  else if (data.getD []).length = 0 then .done true else .admitted (data.getD [])

/-- The append under the queue lock. -/
def enqueue (data : List UInt8) (w : ProducedSocket) : Bool × ProducedSocket :=
  let r := w.socket.withOutgoing (w.socket.outgoing.append data)
  (r.1, { w with socket := r.2, late := if w.cleared && r.1 then w.late ++ [data] else w.late })

/-- The clear under the queue lock. -/
def empty (w : ProducedSocket) : ProducedSocket :=
  { w with socket := { w.socket with outgoing := w.socket.outgoing.clear }, cleared := true }

/-- The native close, once the queue lock is free again. -/
def shut (h : Host) (w : ProducedSocket) : Bool × ProducedSocket :=
  let r := w.socket.toSocket.close h
  (r.1, { w with socket := { w.socket with toSocket := r.2 } })

def step : ProducerCall → ProducedSocket → ProducerCall × ProducedSocket
  | .calling (.queueWrite accepts data), w => (precheck accepts data w.socket, w)
  | .calling (.close h), w => (.emptied h, w.empty)
  | .admitted data, w => (.done (w.enqueue data).1, (w.enqueue data).2)
  | .emptied h, w => (.done (w.shut h).1, (w.shut h).2)
  | .done r, w => (.done r, w)

def object : Object ProducedSocket ProducerCall ProducerOp Bool where
  start := .calling
  step := step
  result
    | .done r => some r
    | _ => none

/-- Without other threads a `queue_write` is the one of the event socket. -/
theorem queueWrite_alone (accepts : Bool) (data : Option (List UInt8)) (w : ProducedSocket) :
    ∃ k, step (.calling (.queueWrite accepts data)) w = (k, w) ∧
      ((w.socket.queueWrite accepts data).1, (w.socket.queueWrite accepts data).2) =
        match k with
        | .admitted data => ((w.enqueue data).1, (w.enqueue data).2.socket)
        | k => ((object.result k).getD false, w.socket) := by
  refine ⟨_, rfl, ?_⟩
  unfold precheck EventSocket.queueWrite
  split
  · rfl
  · by_cases hempty : (data.getD []).length = 0
    · simp only [hempty, if_true]
      rfl
    · simp only [hempty, if_false]
      rfl

theorem close_alone (h : Host) (w : ProducedSocket) :
    step (.calling (.close h)) w = (.emptied h, w.empty) ∧
      ((w.empty.shut h).1, (w.empty.shut h).2.socket) = w.socket.close h :=
  ⟨rfl, rfl⟩

/-- What `close` promises: nothing is queued, and no write was accepted after the clear. -/
structure Settled (w : ProducedSocket) : Prop where
  chunks : w.socket.outgoing.chunks = []
  bytes : w.socket.queuedBytes = 0
  late : w.late = []

/-- The data is longer than what is left of the limit. -/
def Overflows (data : List UInt8) (q : Outgoing) : Prop := sizeSub q.limit q.bytes < data.length

/-- A write that passed its checks has the queue lock before a `close` clears the queue,
or does not fit. -/
def Timely (c : Config ProducedSocket ProducerCall ι) (i : ι) : Prop :=
  match c.calls i with
  | some (.admitted data) => c.shared.cleared = true → Overflows data c.shared.socket.outgoing
  | _ => True

/-- A cleared queue is empty unless a late write has filled it. -/
structure Drained (w : ProducedSocket) : Prop where
  late : w.late = []
  chunks : w.cleared = true → w.socket.outgoing.chunks = []
  bytes : w.cleared = true → w.socket.outgoing.bytes = 0

theorem enqueue_fails {data : List UInt8} {w : ProducedSocket} (h : Overflows data w.socket.outgoing) :
    (w.enqueue data).2 = w := by
  have hsame : w.socket.outgoing.append data = (false, w.socket.outgoing) := if_pos h
  unfold enqueue
  rw [hsame]
  simp [EventSocket.withOutgoing]

theorem enqueue_early {data : List UInt8} {w : ProducedSocket} (h : w.cleared = false) :
    (w.enqueue data).2.late = w.late ∧ (w.enqueue data).2.cleared = false := by
  unfold enqueue
  rw [h]
  exact ⟨rfl, rfl⟩

/-- A late write that fits is recorded. -/
theorem enqueue_late {data : List UInt8} {w : ProducedSocket} (h : w.cleared = true)
    (hlate : (w.enqueue data).2.late = []) : Overflows data w.socket.outgoing := by
  by_contra hfits
  have hgrown : (w.socket.outgoing.append data).1 = true := by
    unfold Overflows at hfits
    rw [Outgoing.append, if_neg hfits]
  unfold enqueue at hlate
  dsimp only [EventSocket.withOutgoing] at hlate
  rw [h, hgrown] at hlate
  exact absurd hlate (by simp)

theorem enqueue_keeps_late {data : List UInt8} {w : ProducedSocket}
    (hlate : (w.enqueue data).2.late = []) : w.late = [] := by
  unfold enqueue at hlate
  dsimp only at hlate
  split at hlate
  · exact absurd hlate (by simp)
  · exact hlate

theorem Drained.step {w : ProducedSocket} {k : ProducerCall} (hw : Drained w)
    (htimely : ∀ data, k = .admitted data → w.cleared = true → Overflows data w.socket.outgoing) :
    Drained (ProducedSocket.step k w).2 := by
  cases k with
  | calling o =>
    cases o with
    | queueWrite accepts data => exact hw
    | close h => exact ⟨hw.late, fun _ => rfl, fun _ => rfl⟩
  | admitted data =>
    show Drained (w.enqueue data).2
    by_cases hcleared : w.cleared = true
    · rw [enqueue_fails (htimely data rfl hcleared)]
      exact hw
    · obtain ⟨hlate, hno⟩ : (w.enqueue data).2.late = w.late ∧ (w.enqueue data).2.cleared = false :=
        enqueue_early (Bool.eq_false_of_not_eq_true hcleared)
      exact ⟨hlate.trans hw.late, fun hyes => absurd (hyes.symm.trans hno) nofun,
        fun hyes => absurd (hyes.symm.trans hno) nofun⟩
  | emptied h => exact ⟨hw.late, hw.chunks, hw.bytes⟩
  | done r => exact hw

/-- A step neither undoes a clear nor takes back a late write. -/
theorem step_monotone (k : ProducerCall) (w : ProducedSocket) :
    (w.cleared = true → (step k w).2.cleared = true) ∧ ((step k w).2.late = [] → w.late = []) := by
  cases k with
  | calling o =>
    cases o with
    | queueWrite accepts data => exact ⟨id, id⟩
    | close h => exact ⟨fun _ => rfl, id⟩
  | admitted data => exact ⟨id, enqueue_keeps_late⟩
  | emptied h => exact ⟨id, id⟩
  | done r => exact ⟨id, id⟩

variable [DecidableEq ι] {w : ProducedSocket} {tr : List (Label ProducerOp Bool ι)}
variable {c : Config ProducedSocket ProducerCall ι} {ok : Config ProducedSocket ProducerCall ι → ι → Prop}

/-- A call of `close` that has not cleared the queue is still running. -/
theorem cleared_or_closing (hrun : Run object ok (.start w) tr c) :
    (∃ i h, .call i (.close h) ∈ tr) →
      c.shared.cleared = true ∨ ∃ i h, c.calls i = some (.calling (.close h)) := by
  refine hrun.keeps (I := fun tr c => (∃ i h, .call i (.close h) ∈ tr) →
      c.shared.cleared = true ∨ ∃ i h, c.calls i = some (.calling (.close h)))
    ⟨?call, ?step, ?ret⟩ (by simp)
  case call =>
    rintro tr c i o idle ih ⟨j, h, hmem⟩
    rcases List.mem_append.mp hmem with hmem | hmem
    · refine (ih ⟨j, h, hmem⟩).imp_right ?_
      rintro ⟨j', h', hj'⟩
      have hne : j' ≠ i := by
        rintro rfl
        rw [idle] at hj'
        cases hj'
      exact ⟨j', h', (Config.set_other hne ..).trans hj'⟩
    · obtain ⟨rfl, rfl⟩ : j = i ∧ .close h = o := by simpa using hmem
      exact .inr ⟨j, h, Config.set_self ..⟩
  case step =>
    intro tr c i k running more _ ih hclosed
    rcases ih hclosed with hyes | ⟨j, h, hj⟩
    · exact .inl ((step_monotone k c.shared).1 hyes)
    · by_cases hji : j = i
      · subst hji
        obtain rfl : .calling (.close h) = k := Option.some.inj (hj.symm.trans running)
        exact .inl rfl
      · exact .inr ⟨j, h, (Config.set_other hji ..).trans hj⟩
  case ret =>
    rintro tr c i k r running ended ih ⟨j, h, hmem⟩
    refine (ih ⟨j, h, by simpa using hmem⟩).imp_right ?_
    rintro ⟨j', h', hj'⟩
    have hne : j' ≠ i := by
      rintro rfl
      obtain rfl := Option.some.inj (hj'.symm.trans running)
      cases ended
    exact ⟨j', h', (Config.set_other hne ..).trans hj'⟩

theorem timely_drained (hrun : Run object Timely (.start w) tr c) (hw : Drained w) :
    Drained c.shared := by
  refine hrun.keeps (I := fun _ c => Drained c.shared)
    ⟨fun _ _ _ _ _ hc => hc, fun _ c i k running _ htimely hc => ?_,
      fun _ _ _ _ _ _ _ hc => hc⟩ hw
  have hstep : Drained (step k c.shared).2 := by
    refine hc.step fun data hk => ?_
    subst hk
    rw [Timely, running] at htimely
    exact htimely
  exact hstep

/-- A run without a late write has kept to the condition. -/
theorem timely_of_settled (hrun : Run object (fun _ _ => True) (.start w) tr c) :
    c.shared.late = [] → Run object Timely (.start w) tr c := by
  induction hrun with
  | start => exact fun _ => .start
  | call i o _ idle ih => exact fun hlate => .call i o (ih hlate) idle
  | @step tr c i k _ running more _ ih =>
    intro hlate
    refine .step i k (ih ((step_monotone k c.shared).2 hlate)) running more ?_
    rw [Timely, running]
    cases k with
    | admitted data => exact fun hcleared => enqueue_late hcleared hlate
    | _ => trivial
  | ret i k r _ running ended ih => exact fun hlate => .ret i k r (ih hlate) running ended

/-- Once a `close` and all other calls have returned, the socket is settled if and only
if every write that had passed its checks got the lock before the clear. -/
theorem close_settles_iff {s : EventSocket}
    (hrun : Run object (fun _ _ => True) (.start { socket := s }) tr c)
    (hclosed : ∃ i h, .call i (.close h) ∈ tr) (hidle : ∀ i, c.calls i = none) :
    Settled c.shared ↔ Run object Timely (.start { socket := s }) tr c := by
  refine ⟨fun hsettled => timely_of_settled hrun hsettled.late, fun htimely => ?_⟩
  have hdrained := timely_drained htimely ⟨rfl, nofun, nofun⟩
  rcases cleared_or_closing htimely hclosed with hcleared | ⟨i, h, hi⟩
  · exact ⟨hdrained.chunks hcleared, hdrained.bytes hcleared, hdrained.late⟩
  · rw [hidle i] at hi
    cases hi

end ProducedSocket

open ProducedSocket

/-- A connected nonblocking socket. -/
def producing : EventSocket := { sockfd := some 3, connected := true, blocking := false }

/-- A producer has passed its checks when the owner clears the queue, and appends then. -/
def lateTrace : List (Label ProducerOp Bool Bool) :=
  [.call true (.queueWrite true (some [1])), .call false (.close .steady), .ret true true,
    .ret false true]

theorem late_run : ∃ c, Run object (fun _ _ => True) (.start { socket := producing }) lateTrace c ∧
    (∀ i, c.calls i = none) ∧ c.shared.late = [[1]] := by
  have hstart : Run object (fun _ _ => True) (.start { socket := producing }) []
    (.start { socket := producing } (ι := Bool)) := .start
  have hadmitted := (hstart.call true (.queueWrite true (some [1])) rfl).step true
    (.calling (.queueWrite true (some [1]))) rfl rfl trivial
  have hcleared := (hadmitted.call false (.close .steady) rfl).step false
    (.calling (.close .steady)) rfl rfl trivial
  have happended := (hcleared.step true (.admitted [1]) rfl rfl trivial).ret true
    (.done true) true rfl rfl
  have hclosed := (happended.step false (.emptied .steady) rfl rfl trivial).ret false
    (.done true) true rfl rfl
  exact ⟨_, hclosed, fun i => by cases i <;> rfl, rfl⟩

theorem close_settles_late : ¬∀ (s : EventSocket) (tr : List (Label ProducerOp Bool Bool))
    (c : Config ProducedSocket ProducerCall Bool),
    Run object (fun _ _ => True) (.start { socket := s }) tr c →
    (∃ i h, .call i (.close h) ∈ tr) → (∀ i, c.calls i = none) → ProducedSocket.Settled c.shared := by
  intro hall
  obtain ⟨c, hrun, hidle, hlate⟩ := late_run
  have hsettled := hall producing lateTrace c hrun ⟨false, .steady, by simp [lateTrace]⟩ hidle
  exact List.cons_ne_nil _ _ (hlate.symm.trans hsettled.late)

/-- A producer that has the lock before the owner. -/
theorem close_settles_alone : ∃ c, Run object Timely (.start { socket := producing }) lateTrace c ∧
    ProducedSocket.Settled c.shared := by
  have hstart : Run object (fun _ _ => True) (.start { socket := producing }) []
    (.start { socket := producing } (ι := Bool)) := .start
  have hadmitted := (hstart.call true (.queueWrite true (some [1])) rfl).step true
    (.calling (.queueWrite true (some [1]))) rfl rfl trivial
  have happended := ((hadmitted.call false (.close .steady) rfl).step true (.admitted [1]) rfl rfl
    trivial).ret true (.done true) true rfl rfl
  have hclosed := ((happended.step false (.calling (.close .steady)) rfl rfl trivial).step false
    (.emptied .steady) rfl rfl trivial).ret false (.done true) true rfl rfl
  have hiff := close_settles_iff hclosed ⟨false, .steady, by simp⟩ fun i => by cases i <;> rfl
  have hsettled := hiff.mp ⟨rfl, rfl, rfl⟩
  exact ⟨_, hsettled, rfl, rfl, rfl⟩

end Aeon
