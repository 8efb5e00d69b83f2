import Aeon.Library.Decimal
import Mathlib.Algebra.Order.Ring.Int

/-!
# Reading numbers from a stream

Formatted input takes blanks, a sign and digits, and stops at what belongs to no number.
A number that does not fit fails.
-/

namespace Scanning

def isSpace (c : UInt8) : Bool := c = 32 || (9 ≤ c && c ≤ 13)

def skip (l : List UInt8) : List UInt8 := l.dropWhile isSpace

/-- The next character that is no blank. -/
def character (l : List UInt8) : Option (UInt8 × List UInt8) :=
  match skip l with
  | [] => none
  | c :: l => some (c, l)

/-- A sign, if there is one. -/
def sign : List UInt8 → Bool × List UInt8
  | [] => (false, [])
  | c :: l => if c = 45 then (true, l) else if c = 43 then (false, l) else (false, c :: l)

/-- A sign and digits. -/
def numeral (l : List UInt8) : Option ((Bool × ℕ) × List UInt8) :=
  let r := sign (skip l)
  let digits := r.2.takeWhile Decimal.isDigit
  if digits = [] then none else some ((r.1, Decimal.value digits), r.2.dropWhile Decimal.isDigit)

/-- An unsigned number below `size`.  The negative of a number wraps. -/
def unsigned (size : ℕ) (l : List UInt8) : Option (ℕ × List UInt8) :=
  (numeral l).bind fun r =>
    if size ≤ r.1.2 then none else some (if r.1.1 then (size - r.1.2) % size else r.1.2, r.2)

/-- A number from `-bound` to below `bound`. -/
def signed (bound : ℕ) (l : List UInt8) : Option (ℤ × List UInt8) :=
  (numeral l).bind fun r =>
    let v : ℤ := if r.1.1 then -r.1.2 else r.1.2
    if v < -bound ∨ bound ≤ v then none else some (v, r.2)

/-- The text of a number, as it is read. -/
def intText : ℤ → List UInt8
  | .ofNat n => Decimal.text n
  | .negSucc n => 45 :: Decimal.text (n + 1)

/-- What may follow a number. -/
def Ends (l : List UInt8) : Prop := ∀ c ∈ l.head?, Decimal.isDigit c = false

section Texts

variable {rest : List UInt8}

theorem ends_nil : Ends [] := nofun

theorem ends_blank (l : List UInt8) : Ends (32 :: l) := by
  intro c hc
  obtain rfl : 32 = c := by simpa using hc
  rfl

theorem digit_range {c : UInt8} (h : Decimal.isDigit c = true) : 48 ≤ c.toNat ∧ c.toNat ≤ 57 := by
  simpa [Decimal.isDigit, UInt8.le_iff_toNat_le] using h

theorem digit_plain {c : UInt8} (h : Decimal.isDigit c = true) : isSpace c = false ∧ c ≠ 45 ∧ c ≠ 43 := by
  refine ⟨?_, ?_, ?_⟩
  · rw [← Bool.not_eq_true]
    intro hspace
    obtain ⟨hlow, -⟩ := digit_range h
    simp only [isSpace, Bool.or_eq_true, Bool.and_eq_true, decide_eq_true_eq, UInt8.le_iff_toNat_le] at hspace
    rcases hspace with rfl | ⟨-, hhigh⟩
    · exact absurd h (by decide)
    · exact absurd hhigh (by show ¬c.toNat ≤ 13; omega)
  · rintro rfl
    exact absurd h (by decide)
  · rintro rfl
    exact absurd h (by decide)

theorem skip_blank (l : List UInt8) : skip (32 :: l) = skip l := rfl

theorem text_cons (n : ℕ) : ∃ c t, Decimal.text n = c :: t ∧ Decimal.isDigit c = true := by
  obtain ⟨c, t, heq⟩ := List.exists_cons_of_ne_nil (Decimal.text_ne_nil n)
  exact ⟨c, t, heq, Decimal.isDigit_text n c (heq ▸ List.mem_cons_self)⟩

theorem skip_text (n : ℕ) (l : List UInt8) : skip (Decimal.text n ++ l) = Decimal.text n ++ l := by
  obtain ⟨c, t, heq, hc⟩ := text_cons n
  rw [heq, List.cons_append, skip, List.dropWhile_cons, if_neg (by rw [(digit_plain hc).1]; exact Bool.noConfusion)]

theorem sign_text (n : ℕ) (l : List UInt8) : sign (Decimal.text n ++ l) = (false, Decimal.text n ++ l) := by
  obtain ⟨c, t, heq, hc⟩ := text_cons n
  obtain ⟨-, hminus, hplus⟩ := digit_plain hc
  rw [heq, List.cons_append, sign, if_neg hminus, if_neg hplus]

theorem takeWhile_text (n : ℕ) (hrest : Ends rest) :
    (Decimal.text n ++ rest).takeWhile Decimal.isDigit = Decimal.text n ∧
      (Decimal.text n ++ rest).dropWhile Decimal.isDigit = rest := by
  have hall := Decimal.isDigit_text n
  rw [List.takeWhile_append_of_pos hall, List.dropWhile_append_of_pos hall]
  cases rest with
  | nil => exact ⟨List.append_nil _, rfl⟩
  | cons c rest =>
    have hc := hrest c rfl
    rw [List.takeWhile_cons, List.dropWhile_cons, hc]
    exact ⟨List.append_nil _, rfl⟩

theorem numeral_text (n : ℕ) (hrest : Ends rest) :
    numeral (32 :: (Decimal.text n ++ rest)) = some ((false, n), rest) := by
  obtain ⟨htake, hdrop⟩ := takeWhile_text n hrest
  unfold numeral
  rw [skip_blank, skip_text, sign_text]
  dsimp only
  rw [htake, hdrop, if_neg (Decimal.text_ne_nil n), Decimal.value_text]

theorem numeral_minus (n : ℕ) (hrest : Ends rest) :
    numeral (32 :: 45 :: (Decimal.text n ++ rest)) = some ((true, n), rest) := by
  obtain ⟨htake, hdrop⟩ := takeWhile_text n hrest
  unfold numeral
  rw [skip_blank, show skip (45 :: (Decimal.text n ++ rest)) = 45 :: (Decimal.text n ++ rest) from rfl,
    sign, if_pos rfl]
  dsimp only
  rw [htake, hdrop, if_neg (Decimal.text_ne_nil n), Decimal.value_text]

/-- What is written is read. -/
theorem unsigned_text {size n : ℕ} (hn : n < size) (hrest : Ends rest) :
    unsigned size (32 :: (Decimal.text n ++ rest)) = some (n, rest) := by
  rw [unsigned, numeral_text n hrest, Option.bind_some]
  dsimp only
  rw [if_neg (Nat.not_le.mpr hn), if_neg Bool.false_ne_true]

theorem signed_text {bound : ℕ} {v : ℤ} (hlow : -bound ≤ v) (hhigh : v < bound) (hrest : Ends rest) :
    signed bound (32 :: (intText v ++ rest)) = some (v, rest) := by
  cases v with
  | ofNat n =>
    rw [signed, intText, numeral_text n hrest, Option.bind_some]
    dsimp only
    rw [if_neg Bool.false_ne_true, if_neg]
    · rfl
    · rw [not_or, Int.not_lt, Int.not_le]
      exact ⟨hlow, hhigh⟩
  | negSucc n =>
    rw [signed, intText, List.cons_append, numeral_minus (n + 1) hrest, Option.bind_some]
    dsimp only
    rw [if_pos rfl, if_neg]
    · rfl
    · rw [not_or, Int.not_lt, Int.not_le]
      exact ⟨hlow, hhigh⟩

end Texts

section Lengths

/-- A number below a power of ten has no more digits than that. -/
theorem text_length {n : ℕ} (k : ℕ) (hn : n < 10 ^ (k + 1)) : (Decimal.text n).length ≤ k + 1 := by
  induction k generalizing n with
  | zero =>
    have hdigit : n < 10 := by simpa using hn
    rw [Decimal.text_eq, if_pos hdigit]
    exact Nat.le_refl 1
  | succ k ih =>
    rw [Decimal.text_eq]
    split
    · exact Nat.succ_le_succ (Nat.zero_le _)
    · rw [List.length_append]
      have hdiv : n / 10 < 10 ^ (k + 1) := by
        rw [Nat.div_lt_iff_lt_mul (by decide), ← Nat.pow_succ]
        exact hn
      exact Nat.succ_le_succ (ih hdiv)

theorem intText_length {v : ℤ} (k : ℕ) (hlow : 0 ≤ v) (hhigh : v < 10 ^ (k + 1)) :
    (intText v).length ≤ k + 1 := by
  obtain ⟨n, rfl⟩ := Int.eq_ofNat_of_zero_le hlow
  refine text_length k ?_
  exact_mod_cast hhigh

end Lengths

end Scanning
