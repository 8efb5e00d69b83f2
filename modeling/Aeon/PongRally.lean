import Aeon.PongSeats

/-!
# The flight of the ball

While both seats are taken the ball flies on a line that is folded between the walls, and
turns where a paddle covers its row or at the end of the board, for a goal of the other side.
-/

namespace Aeon.Pong

open Http (ascii)

/-- The line of the ball, unfolded: from one wall to the other and back are 22 rows. -/
def phase (y dy : ℤ) : ℤ := if dy = 1 then y else 22 - y

def row (k : ℤ) : ℤ := if k % 22 < 12 then k % 22 else 22 - k % 22

theorem row_phase {y dy : ℤ} (hy : 0 ≤ y ∧ y < height) : row (phase y dy) = y := by
  dsimp only [height] at hy
  unfold row phase
  split <;> split <;> omega

theorem row_congr {j k : ℤ} (h : j % 22 = k % 22) : row j = row k := by
  unfold row
  rw [h]

/-- A ball that bounces goes on along its line. -/
theorem phase_bounce {y dy : ℤ} (hy : 0 ≤ y ∧ y < height) (hdy : dy = 1 ∨ dy = -1) :
    phase (y + bounce y dy) (bounce y dy) % 22 = (phase y dy + 1) % 22 := by
  dsimp only [height] at hy
  unfold phase
  rcases bounce_cases y dy with ⟨hwall, heq⟩ | ⟨hin, heq⟩
  · rw [heq]
    rcases hdy with rfl | rfl
    · rw [if_neg (by decide), if_pos rfl]
      omega
    · rw [if_pos (by decide), if_neg (by decide)]
      omega
  · rw [heq]
    rcases hdy with rfl | rfl
    · rw [if_pos rfl, if_pos rfl]
    · rw [if_neg (by decide), if_neg (by decide)]
      omega

/-- The column of the paddle to which the ball flies. -/
def paddleX (dx : ℤ) : ℤ := if dx < 0 then 2 else width - 3

/-- The end of the board to which it flies. -/
def endX (dx : ℤ) : ℤ := if dx < 0 then 0 else width - 1

namespace Server

/-- The ticks within which the ball turns. -/
def reach (s : Server) : ℤ := if s.dx < 0 then s.state.ballX else width - 1 - s.state.ballX

/-- The ball has flown for `k` ticks. -/
structure Flown (k : ℤ) (s t : Server) : Prop where
  dx : t.dx = s.dx
  ballX : t.state.ballX = s.state.ballX + k * s.dx
  ballY : phase t.state.ballY t.dy % 22 = (phase s.state.ballY s.dy + k) % 22
  scores : t.state.leftScore = s.state.leftScore ∧ t.state.rightScore = s.state.rightScore

/-- The paddle before which the ball is, and what the other side has scored. -/
def guard (s : Server) (dx : ℤ) : ℤ := if dx < 0 then s.state.leftY else s.state.rightY

/-- The ball comes to the column of a paddle that covers its row, and is sent back. -/
def Returned (s t : Server) : Prop :=
  s.state.ballX + s.dx = paddleX s.dx ∧ covers (t.guard s.dx) t.state.ballY = true ∧
    t.state.ballX = s.state.ballX - s.dx ∧
    t.state.leftScore = s.state.leftScore ∧ t.state.rightScore = s.state.rightScore

/-- The ball comes to the end of the board, and is served. -/
def Scored (s t : Server) : Prop :=
  s.state.ballX + s.dx = endX s.dx ∧ t.state.ballX = width / 2 ∧ t.state.ballY = height / 2 ∧
    if s.dx < 0 then
      t.state.leftScore = s.state.leftScore ∧ t.state.rightScore = s.state.rightScore + 1
    else t.state.leftScore = s.state.leftScore + 1 ∧ t.state.rightScore = s.state.rightScore

/-- The ball has turned at this tick. -/
def Turned (s t : Server) : Prop := t.dx = -s.dx ∧ (Returned s t ∨ Scored s t)

/-- If the ball comes to the column of a paddle, the paddle does not cover its row. -/
def Missed (s t : Server) : Prop :=
  s.state.ballX + s.dx = paddleX s.dx → covers (t.guard s.dx) t.state.ballY = false

section Ticks

variable {n : ℕ} {s : Server}

theorem age_ball (i : Seat) (h : ((s.age i).players i).active = true) :
    (s.age i).state = s.state ∧ (s.age i).dx = s.dx ∧ (s.age i).dy = s.dy := by
  unfold age at h ⊢
  dsimp only at h ⊢
  split
  · exact ⟨rfl, rfl, rfl⟩
  · rename_i hactive
    rw [if_neg hactive] at h
    split
    · rename_i hidle
      rw [if_pos hidle] at h
      rw [show ((s.setPlayer i {}).resetBall 1).players i = {} from setPlayer_self] at h
      cases h
    · exact ⟨rfl, rfl, rfl⟩

theorem age_other {i j : Seat} (h : i ≠ j) : (s.age j).players i = s.players i := by
  rw [age_players, if_neg fun hij => h hij.1]

/-- Nothing happens to the ball before it moves, unless somebody goes. -/
theorem aged_ball (hleft : ((seats.foldl age s).players .left).active = true)
    (hright : ((seats.foldl age s).players .right).active = true) :
    (seats.foldl age s).state = s.state ∧ (seats.foldl age s).dx = s.dx ∧ (seats.foldl age s).dy = s.dy := by
  simp only [seats, List.foldl_cons, List.foldl_nil] at hleft hright ⊢
  rw [age_other (by decide)] at hleft
  obtain ⟨hstate, hdx, hdy⟩ := age_ball .left hleft
  obtain ⟨hstate', hdx', hdy'⟩ := age_ball .right hright
  exact ⟨hstate'.trans hstate, hdx'.trans hdx, hdy'.trans hdy⟩

theorem goal_stay (hlow : 0 < s.state.ballX) (hhigh : s.state.ballX < width - 1) : s.goal = s := by
  unfold goal
  rw [if_neg (Int.not_le.mpr hlow), if_neg (Int.not_le.mpr hhigh)]

/-- The paddle to which the ball flies decides where it goes. -/
theorem deflect_cases (hdx : s.dx = 1 ∨ s.dx = -1) :
    (s.move.dx = -s.dx ∧ s.state.ballX + s.dx = paddleX s.dx ∧
      covers (s.move.guard s.dx) s.move.state.ballY = true) ∨
    s.move.dx = s.dx ∧ Missed s s.move := by
  have hmove : s.move.dx = deflect (s.state.ballX + s.dx) s.dx
      (covers s.move.state.leftY s.move.state.ballY) (covers s.move.state.rightY s.move.state.ballY) := rfl
  rw [hmove]
  unfold deflect
  split
  · rename_i hhit
    obtain ⟨hcolumn, hneg, hcovers⟩ := hhit
    refine .inl ⟨by omega, ?_, ?_⟩
    · rw [paddleX, if_pos hneg]
      exact hcolumn
    · rw [guard, if_pos hneg]
      exact hcovers
  · rename_i hleft
    split
    · rename_i hhit
      obtain ⟨hcolumn, hpos, hcovers⟩ := hhit
      refine .inl ⟨by omega, ?_, ?_⟩
      · rw [paddleX, if_neg (by omega)]
        exact hcolumn
      · rw [guard, if_neg (by omega)]
        exact hcovers
    · rename_i hright
      refine .inr ⟨rfl, fun hcolumn => Bool.eq_false_iff.mpr fun hcovers => ?_⟩
      rcases hdx with hdx | hdx
      · have hpos : ¬s.dx < 0 := by omega
        rw [paddleX, if_neg hpos] at hcolumn
        rw [guard, if_neg hpos] at hcovers
        exact hright ⟨hcolumn, by omega, hcovers⟩
      · have hneg : s.dx < 0 := by omega
        rw [paddleX, if_pos hneg] at hcolumn
        rw [guard, if_pos hneg] at hcovers
        exact hleft ⟨hcolumn, hneg, hcovers⟩

/-- What a tick does to the ball: it flies on, is returned or scores. -/
theorem move_cases (hs : s.Fair n) :
    (Flown 1 s s.move.goal ∧ Missed s s.move.goal) ∨ Turned s s.move.goal := by
  obtain ⟨hlow, hhigh⟩ := hs.state.ballX
  have hphase := phase_bounce hs.state.ballY hs.dy
  have hx : s.move.state.ballX = s.state.ballX + s.move.dx := rfl
  have hwidth : width = 24 := rfl
  have hdir := hs.dx
  rcases deflect_cases hs.dx with ⟨hdx, hcolumn, hcovers⟩ | ⟨hdx, hmissed⟩
  · have hin : 0 < s.move.state.ballX ∧ s.move.state.ballX < width - 1 := by
      unfold paddleX at hcolumn
      split at hcolumn <;> omega
    rw [goal_stay hin.1 hin.2]
    exact .inr ⟨hdx, .inl ⟨hcolumn, hcovers, by omega, rfl, rfl⟩⟩
  · unfold goal
    split
    · rename_i hout
      have hneg : s.dx < 0 := by omega
      refine .inr ⟨?_, .inr ⟨?_, rfl, rfl, ?_⟩⟩
      · show (1 : ℤ) = -s.dx
        omega
      · rw [endX, if_pos hneg]
        omega
      · rw [if_pos hneg]
        exact ⟨rfl, rfl⟩
    · rename_i hin
      split
      · rename_i hout
        have hpos : ¬s.dx < 0 := by omega
        refine .inr ⟨?_, .inr ⟨?_, rfl, rfl, ?_⟩⟩
        · show (-1 : ℤ) = -s.dx
          omega
        · rw [endX, if_neg hpos]
          omega
        · rw [if_neg hpos]
          exact ⟨rfl, rfl⟩
      · refine .inl ⟨⟨hdx, ?_, hphase, rfl, rfl⟩, hmissed⟩
        rw [hx, hdx, Int.one_mul]

theorem step_cases (hs : s.Fair n) (hboth : s.step.playerCount = 2) :
    (Flown 1 s s.step ∧ Missed s s.step) ∨ Turned s s.step := by
  rw [playerCount_eq, step_aged] at hboth
  obtain ⟨hstate, hdx, hdy⟩ := aged_ball hboth.1 hboth.2
  have haged : (seats.foldl age s).Fair n := List.foldlRecOn seats age hs fun _ ht i _ => ht.age i
  have hstep : s.step = (seats.foldl age s).move.goal.snapshot := by
    unfold step
    dsimp only
    rw [if_pos ((playerCount_eq _).mpr hboth)]
  rw [hstep, snapshot_eq]
  rcases move_cases haged with ⟨hflown, hmissed⟩ | hturned
  · refine .inl ⟨⟨hflown.dx.trans hdx, ?_, ?_, ?_⟩, ?_⟩
    · rw [← hstate, ← hdx]
      exact hflown.ballX
    · rw [← hstate, ← hdy]
      exact hflown.ballY
    · rw [← hstate]
      exact hflown.scores
    · unfold Missed at hmissed ⊢
      rw [hstate, hdx] at hmissed
      exact hmissed
  · refine .inr ?_
    unfold Turned Returned Scored at hturned ⊢
    rw [hstate, hdx] at hturned
    exact hturned

/-- A datagram that nobody leaves by does nothing to the ball. -/
theorem datagram_ball (bytes : List UInt8) (sender : Sockaddr) (hboth : (s.datagram bytes sender).playerCount = 2) :
    Flown 0 s (s.datagram bytes sender) := by
  have hkept {t : Server} (hdx : t.dx = s.dx) (hdy : t.dy = s.dy) (hx : t.state.ballX = s.state.ballX)
      (hy : t.state.ballY = s.state.ballY) (hleft : t.state.leftScore = s.state.leftScore)
      (hright : t.state.rightScore = s.state.rightScore) : Flown 0 s t :=
    ⟨hdx, by rw [hx, Int.zero_mul, Int.add_zero], by rw [hy, hdy, Int.add_zero], hleft, hright⟩
  have hsnapshot (t : Server) (hstate : t.state = s.state) (hdx : t.dx = s.dx) (hdy : t.dy = s.dy) :
      Flown 0 s t.snapshot := by
    rw [snapshot_eq]
    exact hkept hdx hdy (by rw [hstate]) (by rw [hstate]) (by rw [hstate]) (by rw [hstate])
  unfold datagram at hboth ⊢
  split
  · exact hkept rfl rfl rfl rfl rfl rfl
  · rename_i hgo
    rw [if_neg hgo] at hboth
    split
    · unfold join
      split
      · exact hsnapshot _ rfl rfl rfl
      · split
        · exact hsnapshot _ rfl rfl rfl
        · exact hkept rfl rfl rfl rfl rfl rfl
    · rename_i hjoin
      rw [if_neg hjoin] at hboth
      split
      · exact hkept rfl rfl rfl rfl rfl rfl
      · rename_i who hseat
        rw [hseat] at hboth
        dsimp only at hboth
        split
        · rename_i hquit
          rw [if_pos hquit, playerCount_eq, snapshot_players] at hboth
          have hgone : (((s.setPlayer who {}).resetBall 1).players who).active = false :=
            congrArg Player.active setPlayer_self
          cases who with
          | left => exact absurd (hgone.symm.trans hboth.1) Bool.noConfusion
          | right => exact absurd (hgone.symm.trans hboth.2) Bool.noConfusion
        · split
          · exact hkept rfl rfl rfl rfl rfl rfl
          · exact hkept rfl rfl rfl rfl rfl rfl

end Ticks

section Rallies

variable {s t u : Server}

theorem Flown.trans {j k : ℤ} (h : Flown j s t) (h' : Flown k t u) : Flown (j + k) s u where
  dx := h'.dx.trans h.dx
  ballX := by rw [h'.ballX, h.ballX, h.dx, Int.add_assoc, ← Int.add_mul]
  ballY := by
    have hfirst := h.ballY
    have hrest := h'.ballY
    omega
  scores := ⟨h'.scores.1.trans h.scores.1, h'.scores.2.trans h.scores.2⟩

/-- No paddle to which the ball comes covers its row. -/
def Passes (s : Server) (xs : List Input) : Prop :=
  ∀ pre, pre ++ [.tick] <+: xs → Missed (pre.foldl handle s) (pre.foldl handle s).step

/-- The ball has turned at one of the ticks, having flown until then. -/
def TurnsIn (s : Server) (xs : List Input) : Prop :=
  ∃ pre rest, xs = pre ++ .tick :: rest ∧ Flown (pre.count .tick) s (pre.foldl handle s) ∧ Passes s pre ∧
    Turned (pre.foldl handle s) (pre.foldl handle s).step

theorem Passes.concat {xs : List Input} {x : Input} (hxs : Passes s xs)
    (hx : x = .tick → Missed (xs.foldl handle s) (xs.foldl handle s).step) : Passes s (xs ++ [x]) := by
  intro pre hpre
  rcases List.prefix_concat_iff.mp hpre with heq | hpre
  · obtain ⟨rfl, hlast⟩ := List.append_inj' heq rfl
    exact hx (List.singleton_inj.mp hlast).symm
  · exact hxs pre hpre

theorem foldl_rally (hs : s.Fair s.published.length) (xs : List Input)
    (hboth : ∀ pre, pre <+: xs → (pre.foldl handle s).playerCount = 2) :
    TurnsIn s xs ∨ Flown (xs.count .tick) s (xs.foldl handle s) ∧ Passes s xs := by
  induction xs using List.reverseRecOn with
  | nil => exact .inr ⟨⟨rfl, by simp, by simp, rfl, rfl⟩, fun pre hpre => by simp at hpre⟩
  | append_singleton xs x ih =>
    rcases ih fun pre hpre => hboth pre (hpre.trans (List.prefix_append xs [x])) with hturned | ⟨hflown, hpasses⟩
    · obtain ⟨pre, rest, rfl, hpre, hturn⟩ := hturned
      exact .inl ⟨pre, rest ++ [x], by simp, hpre, hturn⟩
    · have hafter := hboth (xs ++ [x]) List.prefix_rfl
      rw [List.foldl_append, List.foldl_cons, List.foldl_nil] at hafter ⊢
      cases x with
      | datagram bytes sender =>
        refine .inr ⟨?_, hpasses.concat nofun⟩
        have hnext := hflown.trans (datagram_ball bytes sender hafter)
        have hcount : (xs ++ [Input.datagram bytes sender]).count .tick = xs.count .tick := by simp
        rw [Int.add_zero] at hnext
        rw [hcount]
        exact hnext
      | tick =>
        rcases step_cases (hs.foldl xs) hafter with ⟨hon, hmissed⟩ | hturn
        · refine .inr ⟨?_, hpasses.concat fun _ => hmissed⟩
          have hnext := hflown.trans hon
          rw [List.count_append, List.count_singleton_self]
          push_cast
          exact hnext
        · exact .inl ⟨xs, [], rfl, hflown, hpasses, hturn⟩

end Rallies

end Server

end Aeon.Pong
