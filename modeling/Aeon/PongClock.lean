import Aeon.PongGame
import Mathlib.Logic.Function.Iterate
import Mathlib.Algebra.Order.BigOperators.Group.List

/-!
# The clock of the game

Between a start and a stop the server handles datagrams and ticks.  How many ticks there
are depends on the time that has passed and not on how it is cut into calls of `advance`,
as long as no call brings more than four of them.
-/

namespace Aeon.Pong

/-- What changes the game. -/
inductive Input
  | datagram (bytes : List UInt8) (sender : Sockaddr)
  | tick
  deriving DecidableEq, Repr

/-- The time that a call of `advance` counts for. -/
def credit (elapsedMs : ℤ) : ℤ := if elapsedMs ≤ 0 then 0 else min elapsedMs (tickMs * 4)

/-- What the server handles in a list of calls that stop nothing, and what is left of the
time afterwards. -/
def timeline : ℤ → List Op → List Input × ℤ
  | left, [] => ([], left)
  | left, .poll datagrams :: ops =>
    let r := timeline left ops
    (datagrams.map (fun d => .datagram d.1 d.2) ++ r.1, r.2)
  | left, .advance elapsedMs :: ops =>
    let total := left + credit elapsedMs
    let r := timeline (total % tickMs) ops
    (List.replicate (total / tickMs).toNat .tick ++ r.1, r.2)
  | left, .start _ _ :: ops => timeline left ops
  | left, .stop :: ops => timeline left ops

theorem credit_range (e : ℤ) : 0 ≤ credit e ∧ credit e ≤ tickMs * 4 := by
  unfold credit
  dsimp only [tickMs]
  split <;> omega

namespace Server

def handle (s : Server) : Input → Server
  | .datagram bytes sender => s.datagram bytes sender
  | .tick => s.step

/-- The server with another time left, or at another moment of `poll`. -/
def set (left : ℤ) (polling : Bool) (s : Server) : Server := { s with accumulatorMs := left, polling }

section Setting

variable {left left' : ℤ} {polling polling' : Bool} {s : Server}

theorem set_self (s : Server) : s.set s.accumulatorMs s.polling = s := rfl

theorem set_set : (s.set left polling).set left' polling' = s.set left' polling' := rfl

theorem reply_set (target : Sockaddr) (payload : List UInt8) :
    (s.set left polling).reply target payload = (s.reply target payload).set left polling := rfl

theorem resetBall_set (direction : ℤ) :
    (s.set left polling).resetBall direction = (s.resetBall direction).set left polling := rfl

theorem setPlayer_set (i : Seat) (p : Player) :
    (s.set left polling).setPlayer i p = (s.setPlayer i p).set left polling := rfl

theorem snapshot_set : (s.set left polling).snapshot = s.snapshot.set left polling := by
  rw [snapshot_eq, snapshot_eq]
  rfl

theorem greet_set (who : Seat) (sender : Sockaddr) :
    (s.set left polling).greet who sender = (s.greet who sender).set left polling := by
  unfold greet
  rw [show (s.set left polling).players = s.players from rfl, setPlayer_set, reply_set, snapshot_set]

theorem seat_set (sender : Sockaddr) : (s.set left polling).seat sender = s.seat sender := rfl

theorem join_set (sender : Sockaddr) : (s.set left polling).join sender = (s.join sender).set left polling := by
  unfold join
  rw [seat_set, show (s.set left polling).players = s.players from rfl]
  split
  · exact greet_set _ sender
  · split
    · rw [setPlayer_set, greet_set]
    · rfl

theorem datagram_set (bytes : List UInt8) (sender : Sockaddr) :
    (s.set left polling).datagram bytes sender = (s.datagram bytes sender).set left polling := by
  unfold datagram
  rw [seat_set, show (s.set left polling).running = s.running from rfl,
    show (s.set left polling).players = s.players from rfl]
  split
  · rfl
  · split
    · exact join_set sender
    · split
      · rfl
      · split
        · rw [setPlayer_set, resetBall_set, snapshot_set]
        · split <;> rfl

theorem age_set (i : Seat) : (s.set left polling).age i = (s.age i).set left polling := by
  unfold age
  dsimp only
  rw [show (s.set left polling).players = s.players from rfl]
  split
  · rfl
  · split <;> rfl

theorem goal_set : (s.set left polling).goal = s.goal.set left polling := by
  unfold goal
  rw [show (s.set left polling).state = s.state from rfl]
  split
  · rfl
  · split <;> rfl

theorem move_set : (s.set left polling).move = s.move.set left polling := rfl

theorem step_set : (s.set left polling).step = s.step.set left polling := by
  unfold step
  have haged : seats.foldl age (s.set left polling) = (seats.foldl age s).set left polling := by
    simp only [seats, List.foldl_cons, List.foldl_nil, age_set]
  rw [haged]
  dsimp only
  rw [show ((seats.foldl age s).set left polling).playerCount = (seats.foldl age s).playerCount from rfl]
  split
  · rw [move_set, goal_set, snapshot_set]
  · exact snapshot_set

theorem handle_set (x : Input) : (s.set left polling).handle x = (s.handle x).set left polling := by
  cases x with
  | datagram bytes sender => exact datagram_set bytes sender
  | tick => exact step_set

theorem foldl_set (xs : List Input) :
    xs.foldl handle (s.set left polling) = (xs.foldl handle s).set left polling := by
  induction xs generalizing s with
  | nil => rfl
  | cons x xs ih => rw [List.foldl_cons, List.foldl_cons, handle_set, ih]

end Setting

section Running

variable {s : Server}

theorem snapshot_running : s.snapshot.running = s.running := by rw [snapshot_eq]

theorem greet_running (who : Seat) (sender : Sockaddr) : (s.greet who sender).running = s.running := snapshot_running

theorem datagram_running (bytes : List UInt8) (sender : Sockaddr) :
    (s.datagram bytes sender).running = s.running := by
  unfold datagram join
  split
  · rfl
  · split
    · split
      · exact greet_running _ sender
      · split
        · exact greet_running _ sender
        · rfl
    · split
      · rfl
      · split
        · exact snapshot_running
        · split <;> rfl

theorem age_running (i : Seat) : (s.age i).running = s.running := by
  unfold age
  dsimp only
  split
  · rfl
  · split <;> rfl

theorem goal_running : s.goal.running = s.running := by
  unfold goal
  split
  · rfl
  · split <;> rfl

theorem step_running : s.step.running = s.running := by
  unfold step
  dsimp only
  rw [snapshot_running]
  have haged : (seats.foldl age s).running = s.running := by
    rw [seats, List.foldl_cons, List.foldl_cons, List.foldl_nil, age_running, age_running]
  split
  · exact goal_running.trans haged
  · exact haged

theorem handle_running (x : Input) : (s.handle x).running = s.running := by
  cases x with
  | datagram bytes sender => exact datagram_running bytes sender
  | tick => exact step_running

end Running

/-- The loop of `advance` does a tick for each whole tick that is left. -/
theorem catchUp_eq (fuel : ℕ) (s : Server) (hleft : 0 ≤ s.accumulatorMs)
    (hfuel : s.accumulatorMs < tickMs * (fuel + 1)) :
    catchUp fuel s = (step^[(s.accumulatorMs / tickMs).toNat] s).set (s.accumulatorMs % tickMs) s.polling := by
  induction fuel generalizing s with
  | zero =>
    have hless : s.accumulatorMs < tickMs := by simpa using hfuel
    rw [Int.ediv_eq_zero_of_lt hleft hless, Int.emod_eq_of_lt hleft hless]
    rfl
  | succ fuel ih =>
    unfold catchUp
    split
    · rename_i hmore
      have hturn : { s with accumulatorMs := s.accumulatorMs - tickMs }.step =
          s.step.set (s.accumulatorMs - tickMs) s.polling :=
        @step_set (s.accumulatorMs - tickMs) s.polling s
      have hdiv : (s.accumulatorMs / tickMs).toNat = ((s.accumulatorMs - tickMs) / tickMs).toNat + 1 := by
        dsimp only [tickMs] at hmore ⊢
        omega
      have hmod : (s.accumulatorMs - tickMs) % tickMs = s.accumulatorMs % tickMs := by
        dsimp only [tickMs]
        omega
      rw [hturn, ih _ (Int.sub_nonneg.mpr hmore) ?_]
      · show (step^[((s.accumulatorMs - tickMs) / tickMs).toNat] (s.step.set _ _)).set
          ((s.accumulatorMs - tickMs) % tickMs) _ = _
        have hiterate (k : ℕ) (t : Server) (a : ℤ) (b : Bool) : step^[k] (t.set a b) = (step^[k] t).set a b := by
          induction k generalizing t with
          | zero => rfl
          | succ k ih => rw [Function.iterate_succ_apply, Function.iterate_succ_apply, step_set, ih]
        rw [hiterate, set_set, hmod, hdiv, Function.iterate_succ_apply]
        rfl
      · show s.accumulatorMs - tickMs < tickMs * (fuel + 1)
        push_cast at hfuel
        dsimp only [tickMs] at hfuel ⊢
        omega
    · rename_i hless
      rw [Int.not_le] at hless
      rw [Int.ediv_eq_zero_of_lt hleft hless, Int.emod_eq_of_lt hleft hless]
      rfl

theorem foldl_ticks (n : ℕ) (s : Server) : (List.replicate n Input.tick).foldl handle s = step^[n] s := by
  induction n generalizing s with
  | zero => rfl
  | succ n ih => rw [List.replicate_succ, List.foldl_cons, Function.iterate_succ_apply, ih, handle]

section Calls

variable {s : Server} (hrun : s.running = true) (hpolling : s.polling = false)

include hrun hpolling

theorem advance_eq (hleft : 0 ≤ s.accumulatorMs ∧ s.accumulatorMs < tickMs) (e : ℤ) :
    s.advance e = ((List.replicate ((s.accumulatorMs + credit e) / tickMs).toNat .tick).foldl handle s).set
      ((s.accumulatorMs + credit e) % tickMs) false := by
  have hgo : (!s.running || s.polling || decide (e ≤ 0)) = decide (e ≤ 0) := by
    rw [hrun, hpolling]
    rfl
  unfold advance
  rw [hgo, foldl_ticks]
  by_cases he : e ≤ 0
  · have hnone : credit e = 0 := if_pos he
    rw [hnone, Int.add_zero, Int.ediv_eq_zero_of_lt hleft.1 hleft.2, Int.emod_eq_of_lt hleft.1 hleft.2]
    have hself := set_self s
    rw [hpolling] at hself
    simpa [he] using hself.symm
  · have hcredit : min e (tickMs * 4) = credit e := (if_neg he).symm
    obtain ⟨hlow, hhigh⟩ := credit_range e
    have hsum : 0 ≤ s.accumulatorMs + credit e := Int.add_nonneg hleft.1 hlow
    have hloop := catchUp_eq (s.accumulatorMs + credit e).toNat (s.set (s.accumulatorMs + credit e) false)
      hsum (by
        show s.accumulatorMs + credit e < tickMs * ((s.accumulatorMs + credit e).toNat + 1)
        dsimp only [tickMs]
        omega)
    rw [hcredit]
    have hiterate : step^[((s.accumulatorMs + credit e) / tickMs).toNat] (s.set (s.accumulatorMs + credit e) false) =
        (step^[((s.accumulatorMs + credit e) / tickMs).toNat] s).set (s.accumulatorMs + credit e) false := by
      rw [← foldl_ticks, foldl_set, foldl_ticks]
    have hset : s.set (s.accumulatorMs + credit e) false =
        { s with accumulatorMs := s.accumulatorMs + credit e } := by
      rw [set, ← hpolling]
    have heq : catchUp (s.accumulatorMs + credit e).toNat { s with accumulatorMs := s.accumulatorMs + credit e } =
        (step^[((s.accumulatorMs + credit e) / tickMs).toNat] s).set
          ((s.accumulatorMs + credit e) % tickMs) false := by
      rw [← hset, hloop]
      show (step^[((s.accumulatorMs + credit e) / tickMs).toNat] _).set _ _ = _
      rw [hiterate, set_set]
      rfl
    simpa [he] using heq

theorem poll_eq (datagrams : List (List UInt8 × Sockaddr)) :
    s.poll datagrams =
      ((datagrams.map fun d => Input.datagram d.1 d.2).foldl handle s).set s.accumulatorMs false := by
  have hfold : datagrams.foldl (fun s d => s.datagram d.1 d.2) (s.set s.accumulatorMs true) =
      ((datagrams.map fun d => Input.datagram d.1 d.2).foldl handle s).set s.accumulatorMs true := by
    rw [← foldl_set, List.foldl_map]
    rfl
  have hgo : (!s.running || s.polling) = false := by
    rw [hrun, hpolling]
    rfl
  unfold poll
  rw [hgo, if_neg Bool.false_ne_true]
  show (datagrams.foldl _ (s.set s.accumulatorMs true)).set
    (datagrams.foldl _ (s.set s.accumulatorMs true)).accumulatorMs false = _
  rw [hfold]
  rfl

/-- Between a start and a stop the calls come down to datagrams and ticks. -/
theorem exec_timeline (hleft : 0 ≤ s.accumulatorMs ∧ s.accumulatorMs < tickMs) (ops : List Op)
    (hops : ∀ o ∈ ops, o ≠ .stop) :
    ops.foldl exec s = ((timeline s.accumulatorMs ops).1.foldl handle s).set
      (timeline s.accumulatorMs ops).2 false := by
  induction ops generalizing s with
  | nil =>
    have hself := set_self s
    rw [hpolling] at hself
    exact hself.symm
  | cons o ops ih =>
    have hops' := fun o ho => hops o (List.mem_cons_of_mem _ ho)
    have hrunning (xs : List Input) (left : ℤ) : ((xs.foldl handle s).set left false).running = true :=
      List.foldlRecOn (motive := fun t : Server => t.running = true) xs handle hrun
        fun t ht x _ => (handle_running x).trans ht
    rw [List.foldl_cons]
    cases o with
    | start port listens =>
      have hnone : exec s (.start port listens) = s := by
        unfold exec start
        rw [hrun]
        rfl
      rw [hnone]
      exact ih hrun hpolling hleft hops'
    | poll datagrams =>
      have hpoll : exec s (.poll datagrams) = _ := poll_eq hrun hpolling datagrams
      rw [hpoll, ih (hrunning _ _) rfl hleft hops', timeline, List.foldl_append, foldl_set, set_set]
      rfl
    | advance e =>
      have hadvance : exec s (.advance e) = _ := advance_eq hrun hpolling hleft e
      have hrest : 0 ≤ (s.accumulatorMs + credit e) % tickMs ∧ (s.accumulatorMs + credit e) % tickMs < tickMs :=
        ⟨Int.emod_nonneg _ (by decide), Int.emod_lt_of_pos _ (by decide)⟩
      rw [hadvance, ih (hrunning _ _) rfl hrest hops', timeline, List.foldl_append, foldl_set, set_set]
      rfl
    | stop => exact absurd rfl (hops _ List.mem_cons_self)

end Calls

/-- What holds of the server between any two calls. -/
structure Regular (s : Server) : Prop where
  fair : s.Fair s.published.length
  polling : s.polling = false
  left : 0 ≤ s.accumulatorMs ∧ s.accumulatorMs < tickMs
  stopped : s.running = false → s.players = fun _ => {}

section Runs

variable {s : Server}

theorem Fair.handle (hs : s.Fair s.published.length) (x : Input) :
    (s.handle x).Fair (s.handle x).published.length := by
  cases x with
  | datagram bytes sender => exact hs.datagram bytes sender
  | tick => exact hs.step

theorem Fair.foldl (hs : s.Fair s.published.length) (xs : List Input) :
    (xs.foldl Server.handle s).Fair (xs.foldl Server.handle s).published.length :=
  List.foldlRecOn (motive := fun t : Server => t.Fair t.published.length) xs Server.handle hs
    fun _ ht x _ => ht.handle x

theorem Fair.set {n : ℕ} (hs : s.Fair n) (left : ℤ) (polling : Bool) : (s.set left polling).Fair n :=
  ⟨hs.state, hs.dx, hs.dy, hs.players, hs.distinct, hs.sequence, hs.published, hs.sent⟩

theorem timeline_range {left : ℤ} (hleft : 0 ≤ left ∧ left < tickMs) (ops : List Op) :
    0 ≤ (timeline left ops).2 ∧ (timeline left ops).2 < tickMs := by
  induction ops generalizing left with
  | nil => exact hleft
  | cons o ops ih =>
    cases o with
    | start port listens => exact ih hleft
    | poll datagrams => exact ih hleft
    | advance e => exact ih ⟨Int.emod_nonneg _ (by decide), Int.emod_lt_of_pos _ (by decide)⟩
    | stop => exact ih hleft

/-- A call to a server that runs, but for `stop`. -/
theorem Regular.call (hs : s.Regular) (hrun : s.running = true) {o : Op} (ho : o ≠ .stop) :
    (exec s o).Regular := by
  have hcall := exec_timeline hrun hs.polling hs.left [o] (by simpa using ho)
  rw [List.foldl_cons, List.foldl_nil] at hcall
  rw [hcall]
  refine ⟨(hs.fair.foldl _).set _ _, rfl, timeline_range hs.left [o], fun hstop => ?_⟩
  have hrunning := List.foldlRecOn (motive := fun t : Server => t.running = true)
    (timeline s.accumulatorMs [o]).1 Server.handle hrun fun t ht x _ => (handle_running x).trans ht
  exact absurd (hrunning.symm.trans hstop) Bool.noConfusion

theorem Regular.stop (hs : s.Regular) : s.stop.Regular := by
  unfold Server.stop
  rw [hs.polling, if_neg Bool.false_ne_true]
  refine ⟨⟨hs.fair.state, hs.fair.dx, hs.fair.dy, fun _ => fair_vacant, fun _ _ _ => nofun,
    hs.fair.sequence, hs.fair.published, hs.fair.sent⟩, rfl, ?_, fun _ => rfl⟩
  show 0 ≤ (0 : ℤ) ∧ (0 : ℤ) < tickMs
  decide

theorem Regular.start (hs : s.Regular) (port : ℤ) (listens : Bool) : (s.start port listens).Regular := by
  unfold Server.start
  split
  · exact hs
  · exact ⟨⟨hs.fair.state, hs.fair.dx, hs.fair.dy, hs.fair.players, hs.fair.distinct, hs.fair.sequence,
      hs.fair.published, hs.fair.sent⟩, hs.polling, hs.left, fun hstop => Bool.noConfusion hstop⟩

theorem Regular.exec (hs : s.Regular) (o : Op) : (s.exec o).Regular := by
  by_cases ho : o = .stop
  · rw [ho]
    exact hs.stop
  · cases hrun : s.running with
    | true => exact hs.call hrun ho
    | false =>
      have hgo (b : Bool) : (!s.running || b) = true := by
        rw [hrun]
        rfl
      cases o with
      | start port listens => exact hs.start port listens
      | poll datagrams =>
        show (if _ then s else _ : Server).Regular
        rw [if_pos (hgo _)]
        exact hs
      | advance e =>
        show (if _ then s else _ : Server).Regular
        rw [Bool.or_assoc, if_pos (hgo _)]
        exact hs
      | stop => exact absurd rfl ho

theorem regular_new : ({} : Server).Regular where
  fair := {
    state := ⟨by decide, by decide, by decide, by decide, by decide⟩
    dx := .inl rfl
    dy := .inl rfl
    players := fun _ => fair_vacant
    distinct := fun _ _ _ => nofun
    sequence := rfl
    published := nofun
    sent := nofun }
  polling := rfl
  left := by decide
  stopped _ := rfl

theorem regular_run (ops : List Op) : (run ops).Regular :=
  List.foldlRecOn ops exec regular_new fun _ hs o _ => hs.exec o

theorem timeline_advances {left : ℤ} (hleft : 0 ≤ left ∧ left < tickMs) (es : List ℤ) :
    timeline left (es.map .advance) =
      (List.replicate ((left + (es.map credit).sum) / tickMs).toNat .tick,
        (left + (es.map credit).sum) % tickMs) := by
  induction es generalizing left with
  | nil =>
    have hzero : left + ([].map credit).sum = left := Int.add_zero left
    rw [hzero, Int.ediv_eq_zero_of_lt hleft.1 hleft.2, Int.emod_eq_of_lt hleft.1 hleft.2]
    rfl
  | cons e es ih =>
    have hrest : 0 ≤ (left + credit e) % tickMs ∧ (left + credit e) % tickMs < tickMs :=
      ⟨Int.emod_nonneg _ (by decide), Int.emod_lt_of_pos _ (by decide)⟩
    have hcredit := (credit_range e).1
    have hsum : 0 ≤ (es.map credit).sum := List.sum_nonneg fun c hc => by
      obtain ⟨e, -, rfl⟩ := List.mem_map.mp hc
      exact (credit_range e).1
    rw [List.map_cons, timeline, ih hrest, List.map_cons, List.sum_cons]
    dsimp only
    rw [← List.replicate_add]
    dsimp only [tickMs] at hleft hrest ⊢
    refine Prod.ext (congrArg (List.replicate · Input.tick) ?_) ?_
    · omega
    · dsimp only
      omega

/-- How the time is cut into calls of `advance` makes no difference to the game, as long as
it counts for the same. -/
theorem run_cut (ops rest : List Op) (es fs : List ℤ) (hsum : (es.map credit).sum = (fs.map credit).sum) :
    run (ops ++ es.map .advance ++ rest) = run (ops ++ fs.map .advance ++ rest) := by
  have hregular := regular_run ops
  have hsame : (es.map Op.advance).foldl exec (run ops) = (fs.map Op.advance).foldl exec (run ops) := by
    have hno (gs : List ℤ) : ∀ o ∈ gs.map Op.advance, o ≠ .stop := fun o ho heq => by
      obtain ⟨e, -, rfl⟩ := List.mem_map.mp ho
      cases heq
    cases hrun : (run ops).running with
    | true =>
      rw [exec_timeline hrun hregular.polling hregular.left _ (hno es),
        exec_timeline hrun hregular.polling hregular.left _ (hno fs),
        timeline_advances hregular.left, timeline_advances hregular.left, hsum]
    | false =>
      have hidle (gs : List ℤ) : (gs.map Op.advance).foldl exec (run ops) = run ops := by
        refine List.foldlRecOn (motive := fun t => t = run ops) _ exec rfl fun t ht o ho => ?_
        obtain ⟨e, -, rfl⟩ := List.mem_map.mp ho
        rw [ht]
        unfold exec advance
        rw [hrun]
        rfl
      rw [hidle, hidle]
  unfold run at hsame ⊢
  simp only [List.foldl_append, hsame]

/-- Half a second in one call, and in three. -/
theorem run_cut_thrice : run ([.start 2302 true, .advance 30] ++ [400, 100].map .advance ++ [.advance 70]) =
    run ([.start 2302 true, .advance 30] ++ [170, -5, 330].map .advance ++ [.advance 70]) :=
  run_cut _ _ _ _ (by decide)

end Runs

end Server

end Aeon.Pong
