import Mathlib.Data.Nat.Basic
import Mathlib.Tactic.Common

/-!
# Decimal numerals

The numeral of a number, the latest digit last, and the number of a numeral.
-/

namespace Decimal

def digit (n : ℕ) : UInt8 := 48 + n.toUInt8

def isDigit (c : UInt8) : Bool := 48 ≤ c && c ≤ 57

/-- `fuel` bounds the digits that come before the last one. -/
def textAux : ℕ → ℕ → List UInt8
  | 0, n => [digit (n % 10)]
  | fuel + 1, n => if n < 10 then [digit n] else textAux fuel (n / 10) ++ [digit (n % 10)]

def text (n : ℕ) : List UInt8 := textAux n n

/-- What a numeral means, after the number `v`. -/
def valueFrom (v : ℕ) (s : List UInt8) : ℕ := s.foldl (fun v c => 10 * v + (c.toNat - 48)) v

def value (s : List UInt8) : ℕ := valueFrom 0 s

theorem textAux_eq {fuel m n : ℕ} (h : n ≤ fuel) (h' : n ≤ m) :
    textAux fuel n = textAux m n := by
  induction fuel generalizing n m with
  | zero =>
    obtain rfl : n = 0 := Nat.le_zero.mp h
    cases m <;> rfl
  | succ fuel ih =>
    cases m with
    | zero =>
      obtain rfl : n = 0 := Nat.le_zero.mp h'
      rfl
    | succ m =>
      unfold textAux
      split
      · rfl
      · rw [ih (m := m) (by omega) (by omega)]

theorem text_eq (n : ℕ) :
    text n = if n < 10 then [digit n] else text (n / 10) ++ [digit (n % 10)] := by
  cases n with
  | zero => rfl
  | succ n =>
    unfold text
    rw [textAux]
    split
    · rfl
    · rw [textAux_eq (m := (n + 1) / 10) (by omega) le_rfl]

theorem digit_toNat {n : ℕ} (h : n < 10) : (digit n).toNat = 48 + n := by
  simp only [digit, UInt8.toNat_add, UInt8.toNat_ofNat, Nat.toUInt8, UInt8.toNat_ofNat']
  omega

theorem isDigit_digit {n : ℕ} (h : n < 10) : isDigit (digit n) = true := by
  have hvalue := digit_toNat h
  simp only [isDigit, Bool.and_eq_true, decide_eq_true_eq, UInt8.le_iff_toNat_le, hvalue]
  exact ⟨by simp, by simp; omega⟩

theorem value_append (s : List UInt8) (c : UInt8) : value (s ++ [c]) = 10 * value s + (c.toNat - 48) := by
  simp [value, valueFrom]

@[simp] theorem value_text (n : ℕ) : value (text n) = n := by
  induction n using Nat.strong_induction_on with
  | _ n ih =>
    rw [text_eq]
    split
    · rename_i hlt
      simp [value, valueFrom, digit_toNat hlt]
    · rename_i hge
      rw [value_append, ih (n / 10) (by omega), digit_toNat (Nat.mod_lt n (by decide))]
      omega

theorem isDigit_text (n : ℕ) : ∀ c ∈ text n, isDigit c = true := by
  induction n using Nat.strong_induction_on with
  | _ n ih =>
    rw [text_eq]
    split
    · rename_i hlt
      simpa using isDigit_digit hlt
    · rename_i hge
      intro c hc
      rcases List.mem_append.mp hc with hc | hc
      · exact ih (n / 10) (by omega) c hc
      · rw [List.mem_singleton.mp hc]
        exact isDigit_digit (Nat.mod_lt n (by decide))

theorem text_ne_nil (n : ℕ) : text n ≠ [] := by
  rw [text_eq]
  split <;> simp

end Decimal
