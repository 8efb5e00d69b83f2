import Aeon.PongServer

/-!
# The game

What holds of the board, the seats and the snapshots in every run of the Pong server.
-/

namespace Aeon.Pong

open Http (ascii)

/-- The paddles and the ball are on the board, and there were no more than `n` goals. -/
structure State.Inside (n : ℕ) (s : State) : Prop where
  leftY : 0 ≤ s.leftY ∧ s.leftY ≤ height - paddleHeight
  rightY : 0 ≤ s.rightY ∧ s.rightY ≤ height - paddleHeight
  ballX : 0 < s.ballX ∧ s.ballX < width - 1
  ballY : 0 ≤ s.ballY ∧ s.ballY < height
  scores : 0 ≤ s.leftScore ∧ 0 ≤ s.rightScore ∧ s.leftScore + s.rightScore ≤ n

structure Player.Fair (p : Player) : Prop where
  vacant : p.active = false → p = {}
  direction : -1 ≤ p.direction ∧ p.direction ≤ 1
  inactivity : 0 ≤ p.inactivityMs ∧ p.inactivityMs < idleTimeoutMs ∧ tickMs ∣ p.inactivityMs

/-- What the server sends apart from snapshots. -/
def answers : List (List UInt8) := [ascii "W 1", ascii "W 2", ascii "FULL"]

/-- What holds of the server between any two inputs.  The snapshots are numbered from one,
and the server sends nothing else. -/
structure Server.Fair (n : ℕ) (s : Server) : Prop where
  state : s.state.Inside n
  dx : s.dx = 1 ∨ s.dx = -1
  dy : s.dy = 1 ∨ s.dy = -1
  players : ∀ i, (s.players i).Fair
  distinct : ∀ i j, i ≠ j → (s.players i).active → (s.players j).active →
    sameEndpoint (s.players i).endpoint (s.players j).endpoint = false
  sequence : s.state.sequence = UInt64.ofNat s.published.length
  published : ∀ k p, s.published[k]? = some p →
    p.sequence = UInt64.ofNat (k + 1) ∧ p.Inside (k + 1) ∧ 0 ≤ p.occupied ∧ p.occupied ≤ 3
  sent : ∀ d ∈ s.sent, d.2 ∈ answers ∨ ∃ p ∈ s.published, d.2 = p.frame

/-- The board but for the sides, which the ball may leave. -/
structure Server.Flies (n : ℕ) (s : Server) : Prop where
  leftY : 0 ≤ s.state.leftY ∧ s.state.leftY ≤ height - paddleHeight
  rightY : 0 ≤ s.state.rightY ∧ s.state.rightY ≤ height - paddleHeight
  ballY : 0 ≤ s.state.ballY ∧ s.state.ballY < height
  scores : 0 ≤ s.state.leftScore ∧ 0 ≤ s.state.rightScore ∧ s.state.leftScore + s.state.rightScore ≤ n
  dx : s.dx = 1 ∨ s.dx = -1
  dy : s.dy = 1 ∨ s.dy = -1

theorem clamp_range (v : ℤ) {low high : ℤ} (h : low ≤ high) : low ≤ clamp v low high ∧ clamp v low high ≤ high := by
  unfold clamp
  split
  · omega
  · split <;> omega

theorem bounce_cases (y dy : ℤ) : ((y + dy < 0 ∨ 12 ≤ y + dy) ∧ bounce y dy = -dy) ∨
    (0 ≤ y + dy ∧ y + dy < 12) ∧ bounce y dy = dy := by
  by_cases hwall : y + dy < 0 ∨ height ≤ y + dy
  · exact .inl ⟨hwall, if_pos hwall⟩
  · refine .inr ⟨?_, if_neg hwall⟩
    dsimp only [height] at hwall
    omega

theorem bounce_range {y dy : ℤ} (hy : 0 ≤ y ∧ y < height) (hdy : dy = 1 ∨ dy = -1) :
    (0 ≤ y + bounce y dy ∧ y + bounce y dy < height) ∧ (bounce y dy = 1 ∨ bounce y dy = -1) := by
  dsimp only [height] at hy ⊢
  rcases bounce_cases y dy with ⟨hwall, heq⟩ | ⟨hin, heq⟩
  · rw [heq]
    omega
  · rw [heq]
    omega

theorem deflect_range {nextX dx : ℤ} {left right : Bool} (hdx : dx = 1 ∨ dx = -1) :
    deflect nextX dx left right = 1 ∨ deflect nextX dx left right = -1 := by
  unfold deflect
  split
  · exact .inl rfl
  · split
    · exact .inr rfl
    · exact hdx

theorem sameEndpoint_symm (a b : Sockaddr) : sameEndpoint a b = sameEndpoint b a := by
  cases a <;> cases b <;> simp [sameEndpoint, eq_comm]

theorem inactivity_zero : 0 ≤ (0 : ℤ) ∧ (0 : ℤ) < idleTimeoutMs ∧ tickMs ∣ 0 := by decide

theorem fair_vacant : ({} : Player).Fair := ⟨fun _ => rfl, by decide, inactivity_zero⟩

theorem centre_range : (0 < width / 2 ∧ width / 2 < width - 1) ∧ 0 ≤ height / 2 ∧ height / 2 < height := by
  decide

namespace Server

variable {n : ℕ} {s : Server} {i : Seat} {p : Player}

theorem mem_seats (i : Seat) : i ∈ seats := by cases i <;> decide

theorem playerCount_eq (s : Server) :
    s.playerCount = 2 ↔ (s.players .left).active = true ∧ (s.players .right).active = true := by
  unfold playerCount seats
  cases hleft : (s.players .left).active <;> cases hright : (s.players .right).active <;> simp [hleft, hright]

@[simp] theorem setPlayer_self : (s.setPlayer i p).players i = p := Function.update_self ..

theorem setPlayer_ne {j : Seat} (hne : j ≠ i) : (s.setPlayer i p).players j = s.players j :=
  Function.update_of_ne hne ..

/-- The seat that `seat` finds is held by the sender. -/
theorem seat_eq_some {sender : Sockaddr} (h : s.seat sender = some i) :
    (s.players i).active = true ∧ sameEndpoint (s.players i).endpoint sender = true := by
  simpa using List.find?_some h

theorem seat_eq_none {sender : Sockaddr} (h : s.seat sender = none) (hactive : (s.players i).active = true) :
    sameEndpoint (s.players i).endpoint sender = false := by
  simpa [hactive] using List.find?_eq_none.mp h i (mem_seats i)

theorem snapshot_eq (s : Server) :
    s.snapshot = { s with
      state := { s.state with sequence := s.state.sequence + 1 }
      published := s.published ++ [{ s.current with sequence := s.state.sequence + 1 }]
      sent := s.sent ++ (seats.filter fun i => (s.players i).active).map fun i =>
        ((s.players i).endpoint, { s.current with sequence := s.state.sequence + 1 }.frame) } := by
  unfold snapshot seats
  cases hleft : (s.players .left).active <;> cases hright : (s.players .right).active <;>
    simp [hleft, hright, reply]

theorem current_occupied (s : Server) : 0 ≤ s.current.occupied ∧ s.current.occupied ≤ 3 := by
  unfold current
  dsimp only
  split <;> split <;> decide

namespace Fair

theorem mono {m : ℕ} (hs : s.Fair n) (h : n ≤ m) : s.Fair m where
  state := by
    obtain ⟨hleft, hright, hsum⟩ := hs.state.scores
    exact { hs.state with scores := ⟨hleft, hright, by omega⟩ }
  dx := hs.dx
  dy := hs.dy
  players := hs.players
  distinct := hs.distinct
  sequence := hs.sequence
  published := hs.published
  sent := hs.sent

theorem setPlayer (hs : s.Fair n) (hp : p.Fair) (hother : ∀ j ≠ i, p.active → (s.players j).active →
    sameEndpoint (s.players j).endpoint p.endpoint = false) : (s.setPlayer i p).Fair n where
  state := hs.state
  dx := hs.dx
  dy := hs.dy
  players j := by
    rcases eq_or_ne j i with rfl | hne
    · rwa [setPlayer_self]
    · rw [setPlayer_ne hne]
      exact hs.players j
  distinct j k hjk := by
    rcases eq_or_ne j i with rfl | hj
    · rw [setPlayer_self, setPlayer_ne hjk.symm, sameEndpoint_symm]
      exact hother k hjk.symm
    · rw [setPlayer_ne hj]
      rcases eq_or_ne k i with rfl | hk
      · rw [setPlayer_self]
        exact fun hactive hp => hother j hjk hp hactive
      · rw [setPlayer_ne hk]
        exact hs.distinct j k hjk
  sequence := hs.sequence
  published := hs.published
  sent := hs.sent

theorem leave (hs : s.Fair n) (i : Seat) : (s.setPlayer i {}).Fair n :=
  hs.setPlayer fair_vacant fun _ _ => nofun

/-- What changes neither who plays nor from where. -/
theorem touch (hs : s.Fair n) (hp : p.Fair) (hactive : p.active = (s.players i).active)
    (hendpoint : p.endpoint = (s.players i).endpoint) : (s.setPlayer i p).Fair n := by
  refine hs.setPlayer hp fun j hne hp hj => ?_
  rw [hendpoint]
  exact hs.distinct j i hne hj (hactive ▸ hp)

theorem reply (hs : s.Fair n) (target : Sockaddr) {payload : List UInt8} (hpayload : payload ∈ answers) :
    (s.reply target payload).Fair n where
  state := hs.state
  dx := hs.dx
  dy := hs.dy
  players := hs.players
  distinct := hs.distinct
  sequence := hs.sequence
  published := hs.published
  sent d hd := by
    rcases List.mem_append.mp hd with hd | hd
    · exact hs.sent d hd
    · rw [List.mem_singleton.mp hd]
      exact .inl hpayload

theorem resetBall (hs : s.Fair n) {direction : ℤ} (hdirection : direction = 1 ∨ direction = -1) :
    (s.resetBall direction).Fair n where
  state := { hs.state with ballX := centre_range.1, ballY := centre_range.2 }
  dx := hdirection
  dy := .inl rfl
  players := hs.players
  distinct := hs.distinct
  sequence := hs.sequence
  published := hs.published
  sent := hs.sent

/-- A snapshot makes room for one more goal. -/
theorem snapshot (hs : s.Fair n) (hn : n ≤ s.published.length + 1) :
    s.snapshot.Fair s.snapshot.published.length := by
  have hroom := hs.mono hn
  rw [snapshot_eq]
  have hlength : (s.published ++ [{ s.current with sequence := s.state.sequence + 1 }]).length =
      s.published.length + 1 := by simp
  refine ⟨?_, hs.dx, hs.dy, hs.players, hs.distinct, ?_, ?_, ?_⟩
  · dsimp only
    rw [hlength]
    exact { hroom.state with }
  · dsimp only
    rw [hlength, hs.sequence, UInt64.ofNat_add, UInt64.ofNat_one]
  · intro k p hk
    rw [List.getElem?_append] at hk
    split at hk
    · exact hs.published k p hk
    · rename_i hlength
      obtain ⟨hbound, hget⟩ := List.getElem?_eq_some_iff.mp hk
      rw [List.length_singleton] at hbound
      rw [List.getElem_singleton] at hget
      obtain rfl : k = s.published.length := by omega
      obtain ⟨hlow, hhigh⟩ := s.current_occupied
      subst hget
      refine ⟨?_, { hroom.state with }, hlow, hhigh⟩
      dsimp only
      rw [hs.sequence, UInt64.ofNat_add, UInt64.ofNat_one]
  · intro d hd
    rcases List.mem_append.mp hd with hd | hd
    · refine (hs.sent d hd).imp_right fun hframe => ?_
      obtain ⟨p, hp, heq⟩ := hframe
      exact ⟨p, List.mem_append_left _ hp, heq⟩
    · obtain ⟨i, -, rfl⟩ := List.mem_map.mp hd
      exact .inr ⟨_, List.mem_append_right _ (List.mem_singleton_self _), rfl⟩

theorem greet (hs : s.Fair s.published.length) {who : Seat} (sender : Sockaddr) :
    (s.greet who sender).Fair (s.greet who sender).published.length := by
  have hplayer := hs.players who
  have htouched := hs.touch (i := who) (p := { s.players who with inactivityMs := 0 })
    ⟨fun hvacant => by rw [hplayer.vacant hvacant], hplayer.direction, inactivity_zero⟩ rfl rfl
  unfold Server.greet
  refine (htouched.reply sender ?_).snapshot (Nat.le_succ _)
  split
  · exact List.mem_cons_self
  · exact List.mem_cons_of_mem _ List.mem_cons_self

theorem command (hp : p.Fair) (cmd : List UInt8) (hactive : p.active = true) : (p.command cmd).Fair where
  vacant hvacant := by
    rw [show p.active = false from hvacant] at hactive
    cases hactive
  direction := by
    have hbefore := hp.direction
    unfold Player.command
    dsimp only
    split
    · decide
    · split
      · decide
      · split
        · decide
        · exact hbefore
  inactivity := inactivity_zero

theorem datagram (hs : s.Fair s.published.length) (bytes : List UInt8) (sender : Sockaddr) :
    (s.datagram bytes sender).Fair (s.datagram bytes sender).published.length := by
  unfold Server.datagram
  split
  · exact hs
  · split
    · unfold Server.join
      split
      · exact hs.greet sender
      · rename_i hnone
        split
        · rename_i who hfind
          refine Fair.greet (hs.setPlayer ⟨fun hvacant => Bool.noConfusion hvacant, (by decide : -1 ≤ (0 : ℤ) ∧ (0 : ℤ) ≤ 1),
            inactivity_zero⟩ fun j _ _ hj => ?_) sender
          exact seat_eq_none hnone hj
        · exact hs.reply sender (by simp [answers])
    · split
      · exact hs
      · rename_i who hseat
        obtain ⟨hactive, -⟩ := seat_eq_some hseat
        split
        · exact ((hs.leave who).resetBall (.inl rfl)).snapshot (Nat.le_succ _)
        · split
          · exact hs.touch (command (hs.players who) bytes hactive) rfl rfl
          · exact hs

theorem age (hs : s.Fair n) (i : Seat) : (s.age i).Fair n := by
  unfold Server.age
  dsimp only
  split
  · exact hs
  · rename_i hactive
    have hplayer := hs.players i
    split
    · exact (hs.leave i).resetBall (.inl rfl)
    · rename_i hidle
      obtain ⟨hlow, -, hdvd⟩ := hplayer.inactivity
      refine hs.touch ⟨fun hvacant => ?_, hplayer.direction, ?_, Int.not_le.mp hidle, ?_⟩ rfl rfl
      · rw [show (s.players i).active = false from hvacant] at hactive
        exact absurd rfl hactive
      · show 0 ≤ (s.players i).inactivityMs + tickMs
        unfold tickMs
        omega
      · exact Int.dvd_add hdvd (Int.dvd_refl _)

theorem move (hs : s.Fair n) : s.move.Flies n where
  leftY := clamp_range _ (by decide)
  rightY := clamp_range _ (by decide)
  ballY := (bounce_range hs.state.ballY hs.dy).1
  scores := hs.state.scores
  dx := deflect_range hs.dx
  dy := (bounce_range hs.state.ballY hs.dy).2

/-- One goal at most. -/
theorem goal (hs : s.Fair n) : s.move.goal.Fair (n + 1) := by
  obtain ⟨hleft, hright, hball, ⟨hlow, hhigh, hsum⟩, hdx, hdy⟩ := hs.move
  unfold Server.goal
  split
  · refine ⟨⟨hleft, hright, centre_range.1, centre_range.2, hlow, Int.add_nonneg hhigh (by decide), ?_⟩,
      .inl rfl, .inl rfl, hs.players, hs.distinct, hs.sequence, hs.published, hs.sent⟩
    show s.move.state.leftScore + (s.move.state.rightScore + 1) ≤ _
    omega
  · rename_i hin
    split
    · refine ⟨⟨hleft, hright, centre_range.1, centre_range.2, Int.add_nonneg hlow (by decide), hhigh, ?_⟩,
        .inr rfl, .inl rfl, hs.players, hs.distinct, hs.sequence, hs.published, hs.sent⟩
      show s.move.state.leftScore + 1 + s.move.state.rightScore ≤ _
      omega
    · rename_i hin'
      exact ⟨⟨hleft, hright, ⟨Int.not_le.mp hin, Int.not_le.mp hin'⟩, hball, hlow, hhigh, by omega⟩, hdx, hdy,
        hs.players, hs.distinct, hs.sequence, hs.published, hs.sent⟩

end Fair

theorem age_published (s : Server) (i : Seat) : (s.age i).published = s.published := by
  unfold age
  dsimp only
  split
  · rfl
  · split <;> rfl

theorem goal_published (s : Server) : s.move.goal.published = s.published := by
  unfold goal
  split
  · rfl
  · split <;> rfl

theorem Fair.step (hs : s.Fair s.published.length) : s.step.Fair s.step.published.length := by
  have haged : (seats.foldl Server.age s).Fair s.published.length :=
    List.foldlRecOn seats Server.age hs fun _ ht i _ => ht.age i
  have hpublished : (seats.foldl Server.age s).published = s.published := by
    rw [seats, List.foldl_cons, List.foldl_cons, List.foldl_nil, age_published, age_published]
  unfold Server.step
  dsimp only
  split
  · refine haged.goal.snapshot ?_
    rw [goal_published, hpublished]
  · refine haged.snapshot ?_
    rw [hpublished]
    exact Nat.le_succ _

theorem snapshot_published (s : Server) : s.published <+: s.snapshot.published := by
  rw [snapshot_eq]
  exact List.prefix_append _ _

theorem greet_published (who : Seat) (sender : Sockaddr) (s : Server) :
    s.published <+: (s.greet who sender).published :=
  snapshot_published ((s.setPlayer who { s.players who with inactivityMs := 0 }).reply sender
    (if who = .left then ascii "W 1" else ascii "W 2"))

theorem join_published (sender : Sockaddr) (s : Server) : s.published <+: (s.join sender).published := by
  unfold join
  split
  · exact greet_published _ sender s
  · split
    · rename_i who _
      exact greet_published who sender (s.setPlayer who { active := true, endpoint := sender })
    · exact List.prefix_rfl

theorem datagram_published (bytes : List UInt8) (sender : Sockaddr) (s : Server) :
    s.published <+: (s.datagram bytes sender).published := by
  unfold datagram
  split
  · exact List.prefix_rfl
  · split
    · exact join_published sender s
    · split
      · exact List.prefix_rfl
      · rename_i who _
        split
        · exact snapshot_published ((s.setPlayer who {}).resetBall 1)
        · split <;> exact List.prefix_rfl

theorem step_published (s : Server) : s.published <+: s.step.published := by
  have haged : (seats.foldl age s).published = s.published := by
    rw [seats, List.foldl_cons, List.foldl_cons, List.foldl_nil, age_published, age_published]
  have hmoved : (if (seats.foldl age s).playerCount = 2 then (seats.foldl age s).move.goal
      else seats.foldl age s).published = s.published := by
    split
    · exact (goal_published _).trans haged
    · exact haged
  have hpublished := snapshot_published (if (seats.foldl age s).playerCount = 2 then
    (seats.foldl age s).move.goal else seats.foldl age s)
  rwa [hmoved] at hpublished

theorem catchUp_published (fuel : ℕ) (s : Server) : s.published <+: (catchUp fuel s).published := by
  induction fuel generalizing s with
  | zero => exact List.prefix_rfl
  | succ fuel ih =>
    unfold catchUp
    split
    · exact (step_published { s with accumulatorMs := s.accumulatorMs - tickMs }).trans (ih _)
    · exact List.prefix_rfl

/-- No snapshot is ever taken back. -/
theorem exec_published (s : Server) (o : Op) : s.published <+: (s.exec o).published := by
  cases o with
  | start port listens =>
    unfold exec start
    dsimp only
    split <;> exact List.prefix_rfl
  | poll datagrams =>
    unfold exec poll
    dsimp only
    split
    · exact List.prefix_rfl
    · exact List.foldlRecOn (motive := fun t : Server => s.published <+: t.published) datagrams
        (fun s d => s.datagram d.1 d.2) (b := { s with polling := true }) List.prefix_rfl
        fun t ht d _ => ht.trans (datagram_published d.1 d.2 t)
  | advance e =>
    unfold exec advance
    dsimp only
    split
    · exact List.prefix_rfl
    · exact catchUp_published _ { s with accumulatorMs := s.accumulatorMs + min e (tickMs * 4) }
  | stop =>
    unfold exec stop
    dsimp only
    split <;> exact List.prefix_rfl

end Server

end Aeon.Pong
