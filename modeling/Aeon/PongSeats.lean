import Aeon.PongClock

/-!
# Who keeps a seat

What becomes of a player depends on what comes from its own endpoint and on the clock.
Nothing that anybody else sends moves its paddle, keeps its seat or takes it, and nobody
keeps a seat in silence.
-/

namespace Aeon.Pong

open Http (ascii)

/-- The input of the player at an endpoint. -/
def Input.concerns (endpoint : Sockaddr) : Input → Bool
  | .datagram _ sender => sameEndpoint endpoint sender
  | .tick => true

/-- What its own input makes of a player.  It may lose its seat. -/
def Player.fate (p : Player) : Input → Option Player
  | .tick =>
    let p := { p with inactivityMs := p.inactivityMs + tickMs }
    if idleTimeoutMs ≤ p.inactivityMs then none else some p
  | .datagram bytes _ =>
    if bytes.isEmpty || 32 < bytes.length then some p
    else if bytes = ascii "J" then some { p with inactivityMs := 0 }
    else if bytes = ascii "Q" then none
    else if isCommand bytes then some (p.command bytes)
    else some p

theorem sameEndpoint_trans {a b c : Sockaddr} (hab : sameEndpoint a b = true) (hbc : sameEndpoint b c = true) :
    sameEndpoint a c = true := by
  cases a <;> cases b <;> cases c <;> simp_all [sameEndpoint]

theorem Player.fate_same {p q : Player} {x : Input} (h : p.fate x = some q) :
    q.active = p.active ∧ q.endpoint = p.endpoint := by
  unfold fate at h
  split at h
  · dsimp only at h
    split at h
    · cases h
    · cases h
      exact ⟨rfl, rfl⟩
  · split at h
    · cases h
      exact ⟨rfl, rfl⟩
    · split at h
      · cases h
        exact ⟨rfl, rfl⟩
      · split at h
        · cases h
        · split at h
          · cases h
            exact ⟨rfl, rfl⟩
          · cases h
            exact ⟨rfl, rfl⟩

namespace Server

variable {n : ℕ} {s : Server} {i : Seat}

theorem snapshot_players : s.snapshot.players = s.players := by rw [snapshot_eq]

theorem greet_players (who : Seat) (sender : Sockaddr) :
    (s.greet who sender).players = (s.setPlayer who { s.players who with inactivityMs := 0 }).players :=
  snapshot_players

theorem goal_players : s.goal.players = s.players := by
  unfold goal
  split
  · rfl
  · split <;> rfl

/-- The one seat that is held from an endpoint. -/
theorem Fair.seat_eq (hs : s.Fair n) {sender : Sockaddr} (hactive : (s.players i).active = true)
    (hsame : sameEndpoint (s.players i).endpoint sender = true) : s.seat sender = some i := by
  cases hseat : s.seat sender with
  | none => exact absurd (hsame.symm.trans (seat_eq_none hseat hactive)) Bool.noConfusion
  | some j =>
    obtain ⟨hother, hsender⟩ := seat_eq_some hseat
    by_contra hne
    have hne : j ≠ i := fun heq => hne (congrArg some heq)
    have hpair : sameEndpoint (s.players j).endpoint (s.players i).endpoint = true :=
      sameEndpoint_trans hsender (by rw [sameEndpoint_symm]; exact hsame)
    exact absurd (hpair.symm.trans (hs.distinct j i hne hother hactive)) Bool.noConfusion

theorem age_players (j : Seat) : (s.age j).players i =
    if i = j ∧ (s.players i).active then
      if idleTimeoutMs ≤ (s.players i).inactivityMs + tickMs then {}
      else { s.players i with inactivityMs := (s.players i).inactivityMs + tickMs }
    else s.players i := by
  unfold age
  dsimp only
  by_cases hactive : (s.players j).active = true
  · rw [if_neg (by simp [hactive])]
    by_cases hij : i = j
    · subst hij
      have hself : i = i ∧ (s.players i).active = true := ⟨rfl, hactive⟩
      rw [if_pos hself]
      split
      · exact setPlayer_self
      · exact setPlayer_self
    · have hother : ¬(i = j ∧ (s.players i).active = true) := fun h => hij h.1
      rw [if_neg hother]
      split
      · exact setPlayer_ne hij
      · exact setPlayer_ne hij
  · rw [if_pos (by simpa using hactive), if_neg]
    rintro ⟨rfl, h⟩
    exact hactive h

theorem step_aged : s.step.players = (seats.foldl age s).players := by
  unfold step
  dsimp only
  rw [snapshot_players]
  split
  · rw [goal_players]
    rfl
  · rfl

/-- A tick is the fate of whoever plays. -/
theorem step_players (hactive : (s.players i).active = true) :
    s.step.players i = ((s.players i).fate .tick).getD {} := by
  have hfate : ((s.players i).fate .tick).getD {} =
      if idleTimeoutMs ≤ (s.players i).inactivityMs + tickMs then {}
      else { s.players i with inactivityMs := (s.players i).inactivityMs + tickMs } := by
    unfold Player.fate
    dsimp only
    split <;> rfl
  rw [step_aged, hfate, seats, List.foldl_cons, List.foldl_cons, List.foldl_nil]
  cases i with
  | left => rw [age_players, if_neg (by simp), age_players, if_pos ⟨rfl, hactive⟩]
  | right =>
    have hfirst : (s.age .left).players .right = s.players .right := by
      rw [age_players, if_neg (by simp)]
    rw [age_players, hfirst, if_pos ⟨rfl, hactive⟩]

/-- A datagram is the fate of its sender. -/
theorem datagram_own (hs : s.Fair n) (hrun : s.running = true) (hactive : (s.players i).active = true)
    (bytes : List UInt8) {sender : Sockaddr} (hsame : sameEndpoint (s.players i).endpoint sender = true) :
    (s.datagram bytes sender).players i = ((s.players i).fate (.datagram bytes sender)).getD {} := by
  have hseat := hs.seat_eq hactive hsame
  have hgo (b : Bool) : (!s.running || b) = b := by
    rw [hrun]
    rfl
  unfold datagram Player.fate
  dsimp only
  rw [Bool.or_assoc, hgo]
  by_cases hsize : (bytes.isEmpty || decide (32 < bytes.length)) = true
  · rw [if_pos hsize, if_pos hsize]
    rfl
  rw [if_neg hsize, if_neg hsize]
  by_cases hjoin : bytes = ascii "J"
  · rw [if_pos hjoin, if_pos hjoin]
    unfold join
    rw [hseat]
    dsimp only
    rw [greet_players]
    exact setPlayer_self
  rw [if_neg hjoin, if_neg hjoin, hseat]
  dsimp only
  by_cases hquit : bytes = ascii "Q"
  · rw [if_pos hquit, if_pos hquit, snapshot_players]
    exact setPlayer_self
  rw [if_neg hquit, if_neg hquit]
  split
  · exact setPlayer_self
  · rfl

/-- A datagram from elsewhere does nothing to a player. -/
theorem datagram_other (hactive : (s.players i).active = true) (bytes : List UInt8) {sender : Sockaddr}
    (hother : sameEndpoint (s.players i).endpoint sender = false) :
    (s.datagram bytes sender).players i = s.players i := by
  have hne {j : Seat} (hseat : s.seat sender = some j) : i ≠ j := by
    rintro rfl
    exact absurd ((seat_eq_some hseat).2.symm.trans hother) Bool.noConfusion
  unfold datagram
  split
  · rfl
  · split
    · unfold join
      split
      · rename_i hseat
        rw [greet_players]
        exact setPlayer_ne (hne hseat)
      · split
        · rename_i who hfind
          have hfree : i ≠ who := by
            rintro rfl
            have hvacant := List.find?_some hfind
            rw [hactive] at hvacant
            cases hvacant
          rw [greet_players]
          exact (setPlayer_ne hfree).trans (setPlayer_ne hfree)
        · rfl
    · split
      · rfl
      · rename_i hseat
        split
        · rw [snapshot_players]
          exact setPlayer_ne (hne hseat)
        · split
          · exact setPlayer_ne (hne hseat)
          · rfl

theorem handle_players (hs : s.Fair n) (hrun : s.running = true) (hactive : (s.players i).active = true)
    (x : Input) : (s.handle x).players i =
      if x.concerns (s.players i).endpoint then ((s.players i).fate x).getD {} else s.players i := by
  cases x with
  | tick => exact step_players hactive
  | datagram bytes sender =>
    by_cases hsame : sameEndpoint (s.players i).endpoint sender = true
    · have hconcerns : (Input.datagram bytes sender).concerns (s.players i).endpoint = true := hsame
      rw [if_pos hconcerns]
      exact datagram_own hs hrun hactive bytes hsame
    · have hconcerns : ¬(Input.datagram bytes sender).concerns (s.players i).endpoint = true := hsame
      rw [if_neg hconcerns]
      exact datagram_other hactive bytes (Bool.eq_false_iff.mpr hsame)

/-- A player after any input is what its own input has made of it, if that has let it keep
its seat. -/
theorem foldl_players (hs : s.Fair s.published.length) (hrun : s.running = true)
    (hactive : (s.players i).active = true) (xs : List Input) :
    let own := (xs.filter (Input.concerns (s.players i).endpoint)).foldlM Player.fate (s.players i)
    (∀ q, own = some q → (xs.foldl handle s).players i = q ∧ q.active = true) ∧
      (own = none → ∃ pre rest, xs = pre ++ rest ∧ (pre.foldl handle s).players i = {}) := by
  induction xs generalizing s with
  | nil =>
    refine ⟨fun q hq => ?_, nofun⟩
    obtain rfl : s.players i = q := Option.some.inj hq
    exact ⟨rfl, hactive⟩
  | cons x xs ih =>
    have hplayers := handle_players hs hrun hactive x
    have hnext := hs.handle x
    have hgoes := (handle_running x).trans hrun
    rw [List.filter_cons]
    by_cases hconcerns : x.concerns (s.players i).endpoint = true
    · rw [if_pos hconcerns] at hplayers ⊢
      rw [List.foldlM_cons]
      cases hfate : (s.players i).fate x with
      | none =>
        rw [hfate] at hplayers
        exact ⟨nofun, fun _ => ⟨[x], xs, rfl, hplayers⟩⟩
      | some p =>
        obtain ⟨hsame, hendpoint⟩ := Player.fate_same hfate
        rw [hfate] at hplayers
        have hplayers : (s.handle x).players i = p := hplayers
        obtain ⟨hkept, hlost⟩ := ih hnext hgoes (by rw [hplayers, hsame, hactive])
        rw [hplayers, hendpoint] at hkept hlost
        refine ⟨hkept, fun hnone => ?_⟩
        obtain ⟨pre, rest, rfl, hgone⟩ := hlost hnone
        exact ⟨x :: pre, rest, rfl, hgone⟩
    · rw [if_neg hconcerns] at hplayers ⊢
      obtain ⟨hkept, hlost⟩ := ih hnext hgoes (by rw [hplayers, hactive])
      rw [hplayers] at hkept hlost
      refine ⟨hkept, fun hnone => ?_⟩
      obtain ⟨pre, rest, rfl, hgone⟩ := hlost hnone
      exact ⟨x :: pre, rest, rfl, hgone⟩

/-- A run of calls but `stop` is one of inputs. -/
theorem run_timeline (ops more : List Op) (hrun : (run ops).running = true) (hmore : ∀ o ∈ more, o ≠ .stop) :
    run (ops ++ more) = ((timeline (run ops).accumulatorMs more).1.foldl handle (run ops)).set
      (timeline (run ops).accumulatorMs more).2 false := by
  have hs := regular_run ops
  rw [← exec_timeline hrun hs.polling hs.left more hmore]
  exact List.foldl_append

/-- Whatever anybody else sends, a player is after any calls but `stop` what its own input
and the clock have made of it, or has lost its seat by them. -/
theorem run_seats (ops more : List Op) (i : Seat) (hrun : (run ops).running = true)
    (hactive : ((run ops).players i).active = true) (hmore : ∀ o ∈ more, o ≠ .stop) :
    let s := run ops
    let inputs := (timeline s.accumulatorMs more).1
    let own := (inputs.filter (Input.concerns (s.players i).endpoint)).foldlM Player.fate (s.players i)
    (∀ q, own = some q → (run (ops ++ more)).players i = q ∧ q.active = true) ∧
      (own = none → ∃ pre rest, inputs = pre ++ rest ∧ (pre.foldl handle s).players i = {}) := by
  intro s inputs own
  have hs := regular_run ops
  obtain ⟨hkept, hlost⟩ := foldl_players hs.fair hrun hactive inputs
  refine ⟨fun q hq => ?_, hlost⟩
  rw [run_timeline ops more hrun hmore]
  exact hkept q hq

/-- The first player turns upwards while somebody else is refused and cannot stop it. -/
theorem run_seats_upwards :
    let player (port : UInt16) : Sockaddr := .inet port (dotted 127 0 0 1)
    let ops : List Op := [.start 2302 true, .poll [(ascii "J", player 1), (ascii "J", player 2)]]
    let more : List Op := [.advance 170, .poll [(ascii "Q", player 3), (ascii "U", player 1),
      (ascii "J", player 3), (ascii "D", player 3)], .advance 280, .poll [(ascii "Q", player 2)]]
    (run (ops ++ more)).players .left = ⟨true, player 1, -1, 300⟩ := by
  intro player ops more
  refine ((run_seats ops more .left (by decide +kernel) (by decide +kernel) ?_).1 _ ?_).1
  · intro o ho heq
    subst heq
    simp [more] at ho
  · decide +kernel

section Silence

/-- The time that a call brings. -/
def elapsed : Op → ℤ
  | .advance elapsedMs => credit elapsedMs
  | _ => 0

theorem count_ticks {left : ℤ} (hleft : 0 ≤ left ∧ left < tickMs) (ops : List Op) :
    tickMs * ((timeline left ops).1.count .tick : ℕ) + (timeline left ops).2 = left + (ops.map elapsed).sum := by
  induction ops generalizing left with
  | nil => simp [timeline]
  | cons o ops ih =>
    rw [List.map_cons, List.sum_cons]
    cases o with
    | start port listens =>
      have hrest := ih hleft
      simp only [timeline, elapsed, Int.zero_add]
      exact hrest
    | poll datagrams =>
      have hrest := ih hleft
      have hnone : (datagrams.map fun d => Input.datagram d.1 d.2).count .tick = 0 := by
        simp [List.count_eq_zero]
      simp only [timeline, elapsed, Int.zero_add, List.count_append, hnone, Nat.zero_add]
      exact hrest
    | advance e =>
      have hcredit := (credit_range e).1
      have hmod : 0 ≤ (left + credit e) % tickMs ∧ (left + credit e) % tickMs < tickMs :=
        ⟨Int.emod_nonneg _ (by decide), Int.emod_lt_of_pos _ (by decide)⟩
      have hrest := ih hmod
      have hdiv := Int.mul_ediv_add_emod (left + credit e) tickMs
      have hpos : 0 ≤ (left + credit e) / tickMs := Int.ediv_nonneg (by omega) (by decide)
      simp only [timeline, elapsed, List.count_append, List.count_replicate_self]
      push_cast
      rw [Int.toNat_of_nonneg hpos, Int.mul_add]
      omega
    | stop =>
      have hrest := ih hleft
      simp only [timeline, elapsed, Int.zero_add]
      exact hrest

theorem mem_timeline {left : ℤ} {ops : List Op} {bytes : List UInt8} {sender : Sockaddr}
    (h : .datagram bytes sender ∈ (timeline left ops).1) : ∃ ds, .poll ds ∈ ops ∧ (bytes, sender) ∈ ds := by
  induction ops generalizing left with
  | nil => cases h
  | cons o ops ih =>
    have hlater {left : ℤ} (h : .datagram bytes sender ∈ (timeline left ops).1) :
        ∃ ds, .poll ds ∈ o :: ops ∧ (bytes, sender) ∈ ds := by
      obtain ⟨ds, hds, hmem⟩ := ih h
      exact ⟨ds, List.mem_cons_of_mem _ hds, hmem⟩
    cases o with
    | start port listens => exact hlater h
    | poll datagrams =>
      rcases List.mem_append.mp h with h | h
      · obtain ⟨d, hd, heq⟩ := List.mem_map.mp h
        cases heq
        exact ⟨datagrams, List.mem_cons_self, hd⟩
      · exact hlater h
    | advance e =>
      rcases List.mem_append.mp h with h | h
      · cases List.eq_of_mem_replicate h
      · exact hlater h
    | stop => exact hlater h

/-- The clock alone takes the seat of a player. -/
theorem fate_ticks (k : ℕ) (p : Player) (hp : idleTimeoutMs ≤ p.inactivityMs + tickMs * k)
    (hidle : p.inactivityMs < idleTimeoutMs) : (List.replicate k Input.tick).foldlM Player.fate p = none := by
  induction k generalizing p with
  | zero => exact absurd hidle (by simpa using hp)
  | succ k ih =>
    rw [List.replicate_succ, List.foldlM_cons]
    unfold Player.fate
    dsimp only
    by_cases hlost : idleTimeoutMs ≤ p.inactivityMs + tickMs
    · rw [if_pos hlost]
      rfl
    · rw [if_neg hlost]
      refine ih { p with inactivityMs := p.inactivityMs + tickMs } ?_ (Int.not_le.mp hlost)
      dsimp only
      push_cast at hp
      rw [Int.mul_add] at hp
      omega

/-- A player from which nothing comes for the timeout loses its seat, however the time is
cut and whatever comes from others. -/
theorem run_silent (ops more : List Op) (i : Seat) (hrun : (run ops).running = true)
    (hactive : ((run ops).players i).active = true) (hmore : ∀ o ∈ more, o ≠ .stop)
    (hsilent : ∀ ds, .poll ds ∈ more → ∀ d ∈ ds, sameEndpoint ((run ops).players i).endpoint d.2 = false)
    (hlong : idleTimeoutMs ≤ (more.map elapsed).sum) :
    ∃ pre rest, (timeline (run ops).accumulatorMs more).1 = pre ++ rest ∧
      (pre.foldl handle (run ops)).players i = {} ∧ run (ops ++ more) =
        (rest.foldl handle (pre.foldl handle (run ops))).set (timeline (run ops).accumulatorMs more).2 false := by
  have hs := regular_run ops
  have hend := run_timeline ops more hrun hmore
  suffices hnone : ((timeline (run ops).accumulatorMs more).1.filter
      (Input.concerns ((run ops).players i).endpoint)).foldlM Player.fate ((run ops).players i) = none by
    obtain ⟨pre, rest, hsplit, hgone⟩ := (foldl_players hs.fair hrun hactive _).2 hnone
    rw [hsplit, List.foldl_append] at hend
    exact ⟨pre, rest, hsplit, hgone, hend⟩
  have hown : (timeline (run ops).accumulatorMs more).1.filter
      (Input.concerns ((run ops).players i).endpoint) =
      List.replicate ((timeline (run ops).accumulatorMs more).1.count .tick) .tick := by
    rw [← List.filter_eq]
    refine List.filter_congr fun x hx => ?_
    cases x with
    | tick => rfl
    | datagram bytes sender =>
      obtain ⟨ds, hds, hmem⟩ := mem_timeline hx
      have hother := hsilent ds hds _ hmem
      simpa [Input.concerns] using hother
  rw [hown]
  have hidle := (hs.fair.players i).inactivity
  have hcount := count_ticks hs.left more
  have hleft := timeline_range hs.left more
  have hstart := hs.left
  refine fate_ticks _ _ ?_ hidle.2.1
  dsimp only [idleTimeoutMs, tickMs] at hlong hidle hcount hleft hstart ⊢
  omega

/-- The first player is silent, the second one is not. -/
theorem run_silent_left :
    let player (port : UInt16) : Sockaddr := .inet port (dotted 127 0 0 1)
    let ops : List Op := [.start 2302 true, .poll [(ascii "J", player 1), (ascii "J", player 2)]]
    let more := (List.replicate 13 [.advance 400, .poll [(ascii "H", player 2)]]).flatten
    ∃ (pre rest : List Input) (left : ℤ), (pre.foldl handle (run ops)).players .left = {} ∧
      run (ops ++ more) = (rest.foldl handle (pre.foldl handle (run ops))).set left false := by
  intro player ops more
  have hcalls : ∀ o ∈ more, o = .advance 400 ∨ o = .poll [(ascii "H", player 2)] := by
    intro o ho
    obtain ⟨calls, hcalls, ho⟩ := List.mem_flatten.mp ho
    rw [List.eq_of_mem_replicate hcalls] at ho
    simpa using ho
  obtain ⟨pre, rest, -, hgone, hend⟩ := run_silent ops more .left (by decide +kernel) (by decide +kernel)
    (fun o ho hstop => by rcases hcalls o ho with heq | heq <;> cases heq.symm.trans hstop)
    (fun ds hds d hd => by
      rcases hcalls _ hds with heq | heq <;> cases heq
      rw [List.mem_singleton.mp hd]
      decide +kernel)
    (by decide +kernel)
  exact ⟨pre, rest, _, hgone, hend⟩

end Silence

section Hearing

/-- A datagram that takes or keeps the seat of an endpoint. -/
def KeepsSeat (endpoint : Sockaddr) (d : List UInt8 × Sockaddr) : Prop :=
  (endpoint = d.2 ∨ sameEndpoint endpoint d.2 = true) ∧ (d.1 = ascii "J" ∨ isCommand d.1 = true)

/-- Such a datagram has come in the run, and since then no stop and no more than this time. -/
def HeardWithin (ops : List Op) (endpoint : Sockaddr) (time : ℤ) : Prop :=
  ∃ before datagrams after, ops = before ++ .poll datagrams :: after ∧
    (∃ d ∈ datagrams, KeepsSeat endpoint d) ∧ (∀ o ∈ after, o ≠ .stop) ∧ (after.map elapsed).sum ≤ time

theorem HeardWithin.poll (ops : List Op) {datagrams : List (List UInt8 × Sockaddr)} {endpoint : Sockaddr}
    {time : ℤ} (h : ∃ d ∈ datagrams, KeepsSeat endpoint d) (htime : 0 ≤ time) :
    HeardWithin (ops ++ [.poll datagrams]) endpoint time :=
  ⟨ops, datagrams, [], rfl, h, nofun, htime⟩

theorem HeardWithin.call {ops : List Op} {endpoint : Sockaddr} {time time' : ℤ} {o : Op}
    (h : HeardWithin ops endpoint time) (ho : o ≠ .stop) (htime : time + elapsed o ≤ time') :
    HeardWithin (ops ++ [o]) endpoint time' := by
  obtain ⟨before, datagrams, after, rfl, hkeeps, hgoes, hsum⟩ := h
  refine ⟨before, datagrams, after ++ [o], by simp, hkeeps, fun o' ho' => ?_, ?_⟩
  · rcases List.mem_append.mp ho' with ho' | ho'
    · exact hgoes o' ho'
    · rwa [List.mem_singleton.mp ho']
  · rw [List.map_append, List.sum_append, List.map_singleton, List.sum_singleton]
    exact (Int.add_le_add_right hsum _).trans htime

/-- Nobody comes to play by a tick. -/
theorem step_active (h : (s.step.players i).active = true) :
    (s.players i).active = true ∧
      s.step.players i = { s.players i with inactivityMs := (s.players i).inactivityMs + tickMs } := by
  have hactive : (s.players i).active = true := by
    by_contra hvacant
    have hnone (j : Seat) {t : Server} (ht : ¬(t.players i).active = true) : ¬((t.age j).players i).active = true := by
      rwa [age_players, if_neg fun h => ht h.2]
    rw [step_aged, seats, List.foldl_cons, List.foldl_cons, List.foldl_nil] at h
    exact hnone .right (hnone .left hvacant) h
  have hplayers := step_players hactive
  refine ⟨hactive, ?_⟩
  unfold Player.fate at hplayers
  dsimp only at hplayers
  split at hplayers
  · rw [hplayers] at h
    cases h
  · exact hplayers

theorem foldl_ticks_active (k : ℕ) (h : (((List.replicate k Input.tick).foldl handle s).players i).active = true) :
    (s.players i).active = true ∧ ((List.replicate k Input.tick).foldl handle s).players i =
      { s.players i with inactivityMs := (s.players i).inactivityMs + tickMs * k } := by
  induction k generalizing s with
  | zero =>
    refine ⟨h, ?_⟩
    rw [Nat.cast_zero, Int.mul_zero, Int.add_zero]
    rfl
  | succ k ih =>
    rw [List.replicate_succ, List.foldl_cons] at h ⊢
    obtain ⟨hstep, hplayers⟩ := ih h
    obtain ⟨hactive, hself⟩ := step_active hstep
    refine ⟨hactive, hplayers.trans ?_⟩
    rw [show handle s .tick = s.step from rfl, hself]
    dsimp only
    rw [Int.add_assoc, Nat.cast_succ, Int.mul_add, Int.mul_one, Int.add_comm (tickMs * k)]

/-- Who plays after a datagram is as before, or has sent it. -/
theorem datagram_active (bytes : List UInt8) (sender : Sockaddr)
    (h : ((s.datagram bytes sender).players i).active = true) :
    (s.datagram bytes sender).players i = s.players i ∨
      KeepsSeat ((s.datagram bytes sender).players i).endpoint (bytes, sender) := by
  have hset {t : Server} {who : Seat} {p : Player} (ht : ∀ j ≠ who, t.players j = s.players j)
      (hp : p.active = true → KeepsSeat p.endpoint (bytes, sender))
      (hactive : ((t.setPlayer who p).players i).active = true) :
      (t.setPlayer who p).players i = s.players i ∨
        KeepsSeat ((t.setPlayer who p).players i).endpoint (bytes, sender) := by
    rcases eq_or_ne i who with rfl | hne
    · rw [setPlayer_self] at hactive ⊢
      exact .inr (hp hactive)
    · rw [setPlayer_ne hne]
      exact .inl (ht i hne)
  have hheld {who : Seat} (hseat : s.seat sender = some who) (hbytes : bytes = ascii "J" ∨ isCommand bytes = true) :
      KeepsSeat (s.players who).endpoint (bytes, sender) := ⟨.inr (seat_eq_some hseat).2, hbytes⟩
  unfold datagram at h ⊢
  split
  · exact .inl rfl
  · rename_i hgo
    rw [if_neg hgo] at h
    split
    · rename_i hjoin
      rw [if_pos hjoin] at h
      unfold join at h ⊢
      split
      · rename_i who hseat
        rw [hseat] at h
        dsimp only at h
        rw [greet_players] at h ⊢
        exact hset (fun _ _ => rfl) (fun _ => hheld hseat (.inl hjoin)) h
      · rename_i hseat
        rw [hseat] at h
        dsimp only at h
        split
        · rename_i who hfind
          rw [hfind] at h
          dsimp only at h
          rw [greet_players] at h ⊢
          refine hset (fun j hne => setPlayer_ne hne) (fun _ => ⟨.inl ?_, .inl hjoin⟩) h
          exact congrArg Player.endpoint setPlayer_self
        · exact .inl rfl
    · rename_i hjoin
      rw [if_neg hjoin] at h
      split
      · exact .inl rfl
      · rename_i who hseat
        rw [hseat] at h
        dsimp only at h
        split
        · rename_i hquit
          rw [if_pos hquit, snapshot_players] at h
          rw [snapshot_players]
          exact hset (t := s) (fun _ _ => rfl) nofun h
        · rename_i hquit
          rw [if_neg hquit] at h
          split
          · rename_i hcommand
            rw [if_pos hcommand] at h
            exact hset (fun _ _ => rfl) (fun _ => hheld hseat (.inr hcommand)) h
          · exact .inl rfl

theorem foldl_datagrams_active (datagrams : List (List UInt8 × Sockaddr))
    (h : (((datagrams.map fun d => Input.datagram d.1 d.2).foldl handle s).players i).active = true) :
    let p := ((datagrams.map fun d => Input.datagram d.1 d.2).foldl handle s).players i
    p = s.players i ∨ ∃ d ∈ datagrams, KeepsSeat p.endpoint d := by
  induction datagrams using List.reverseRecOn with
  | nil => exact .inl rfl
  | append_singleton datagrams d ih =>
    rw [List.map_append, List.foldl_append] at h ⊢
    rcases datagram_active d.1 d.2 h with hsame | hkeeps
    · rw [show ((([d].map fun d => Input.datagram d.1 d.2).foldl handle _).players i) = _ from hsame] at h ⊢
      refine (ih h).imp_right fun hbefore => ?_
      obtain ⟨d', hd', hkeeps⟩ := hbefore
      exact ⟨d', List.mem_append_left _ hd', hkeeps⟩
    · exact .inr ⟨d, List.mem_append_right _ (List.mem_singleton_self _), hkeeps⟩

theorem exec_idle (hs : s.Regular) (hidle : s.running = false) (o : Op) : (exec s o).players = fun _ => {} := by
  have hvacant := hs.stopped hidle
  unfold exec
  split
  · unfold start
    split <;> exact hvacant
  · unfold poll
    rw [hidle]
    exact hvacant
  · unfold advance
    rw [hidle]
    exact hvacant
  · unfold stop
    split
    · exact hvacant
    · rfl

/-- The server counts the time since it has heard of a player. -/
theorem run_counted (ops : List Op) (i : Seat) (h : ((run ops).players i).active = true) :
    HeardWithin ops ((run ops).players i).endpoint
      (((run ops).players i).inactivityMs + (run ops).accumulatorMs) := by
  induction ops using List.reverseRecOn with
  | nil => cases h
  | append_singleton ops o ih =>
    have hs := regular_run ops
    rw [show run (ops ++ [o]) = exec (run ops) o by simp [run]] at h ⊢
    cases hrun : (run ops).running with
    | false =>
      rw [exec_idle hs hrun o] at h
      cases h
    | true =>
      by_cases ho : o = .stop
      · subst ho
        unfold exec stop at h
        rw [hs.polling, if_neg Bool.false_ne_true] at h
        cases h
      have hcall := exec_timeline hrun hs.polling hs.left [o] (by simpa using ho)
      rw [List.foldl_cons, List.foldl_nil] at hcall
      rw [hcall] at h ⊢
      cases o with
      | start port listens => exact (ih h).call ho (Int.le_of_eq (Int.add_zero _))
      | stop => exact absurd rfl ho
      | poll datagrams =>
        simp only [timeline, List.append_nil] at h ⊢
        have hfair := (hs.fair.foldl (datagrams.map fun d => Input.datagram d.1 d.2)).players i
        rcases foldl_datagrams_active datagrams h with hsame | hkeeps
        · have hbefore : ((run ops).players i).active = true := by
            rw [← hsame]
            exact h
          show HeardWithin _ (((datagrams.map _).foldl handle (run ops)).players i).endpoint
            ((((datagrams.map _).foldl handle (run ops)).players i).inactivityMs + _)
          rw [hsame]
          exact (ih hbefore).call ho (Int.le_of_eq (Int.add_zero _))
        · exact .poll ops hkeeps (Int.add_nonneg hfair.inactivity.1 hs.left.1)
      | advance e =>
        simp only [timeline, List.append_nil] at h ⊢
        obtain ⟨hbefore, hplayers⟩ := foldl_ticks_active _ h
        show HeardWithin _ (((List.replicate _ _).foldl handle (run ops)).players i).endpoint
          ((((List.replicate _ _).foldl handle (run ops)).players i).inactivityMs + _)
        rw [hplayers]
        refine (ih hbefore).call ho ?_
        have hleft := hs.left
        have hcredit := credit_range e
        dsimp only [elapsed, set, tickMs] at hleft ⊢
        omega

/-- Whatever happens, and as long as the snapshots are few enough for the scores, the ball
and the paddles are on the board, no two seats are held from one endpoint, whoever plays
has been heard of within five seconds, and the snapshots are numbered one after the other
and all that is sent apart from the three answers. -/
theorem run_regular (ops : List Op) (hfew : (run ops).published.length < 2 ^ 31) :
    let s := run ops
    s.state.Inside s.published.length ∧ s.state.leftScore < 2 ^ 31 ∧ s.state.rightScore < 2 ^ 31 ∧
      (∀ i, (s.players i).Fair ∧ ((s.players i).active = true →
        ∃ time < idleTimeoutMs, HeardWithin ops (s.players i).endpoint time)) ∧
      (∀ i j, i ≠ j → (s.players i).active → (s.players j).active →
        sameEndpoint (s.players i).endpoint (s.players j).endpoint = false) ∧
      s.state.sequence = UInt64.ofNat s.published.length ∧
      (∀ k p, s.published[k]? = some p → p.sequence = UInt64.ofNat (k + 1) ∧ p.Inside (k + 1)) ∧
      (∀ d ∈ s.sent, d.2 ∈ answers ∨ ∃ p ∈ s.published, d.2 = p.frame) ∧
      0 ≤ s.accumulatorMs ∧ s.accumulatorMs < tickMs := by
  intro s
  obtain ⟨hfair, -, ⟨hlow, hhigh⟩, -⟩ := regular_run ops
  obtain ⟨hleft, hright, hsum⟩ := hfair.state.scores
  have hroom : ((run ops).published.length : ℤ) < 2 ^ 31 := by exact_mod_cast hfew
  have hscores : (run ops).state.leftScore < 2 ^ 31 ∧ (run ops).state.rightScore < 2 ^ 31 :=
    ⟨by omega, by omega⟩
  refine ⟨hfair.state, hscores.1, hscores.2, fun i => ⟨hfair.players i, fun hactive => ?_⟩, hfair.distinct,
    hfair.sequence, fun k p hp => ?_, hfair.sent, hlow, hhigh⟩
  · refine ⟨_, ?_, run_counted ops i hactive⟩
    -- both counters are short of their next whole tick
    obtain ⟨-, hidle, k, hk⟩ := (hfair.players i).inactivity
    dsimp only [idleTimeoutMs, tickMs] at hidle hk hhigh ⊢
    omega
  · obtain ⟨hsequence, hinside, -⟩ := hfair.published k p hp
    exact ⟨hsequence, hinside⟩

/-- A player that has said nothing since it came, four seconds ago. -/
theorem run_regular_waiting :
    let player : Sockaddr := .inet 1 (dotted 127 0 0 1)
    let ops : List Op := [.start 2302 true, .poll [(ascii "J", player)]] ++ List.replicate 10 (.advance 400)
    (run ops).state.leftScore < 2 ^ 31 ∧ ∃ time < idleTimeoutMs, HeardWithin ops player time := by
  intro player ops
  obtain ⟨-, hscore, -, hplayers, -⟩ := run_regular ops (by decide +kernel)
  have hendpoint : ((run ops).players .left).endpoint = player := by decide +kernel
  exact ⟨hscore, hendpoint ▸ (hplayers .left).2 (by decide +kernel)⟩

end Hearing

end Server

end Aeon.Pong
