import Mathlib.Data.List.GetD
import Mathlib.Tactic.Common

/-!
# Buffers

A buffer as what is stored at each of its places, with no end to it, so that a
write past the end of the space a caller has given changes a place like any
other.
-/

/-- What is stored at each place. -/
abbrev Memory (α : Type*) := ℕ → α

namespace Memory

variable {α : Type*}

def put (i : ℕ) (x : α) (m : Memory α) : Memory α := fun j => if j = i then x else m j

/-- The first `n` places become `x`. -/
def fill (n : ℕ) (x : α) (m : Memory α) : Memory α := fun j => if j < n then x else m j

/-- The items go to the places from `i` on. -/
def store (i : ℕ) (xs : List α) (m : Memory α) : Memory α :=
  fun j => if i ≤ j then xs.getD (j - i) (m j) else m j

/-- The first `n` items. -/
def text (m : Memory α) (n : ℕ) : List α := (List.range n).map m

/-- Past the place the two are the same. -/
def SameFrom (n : ℕ) (m m' : Memory α) : Prop := ∀ j, n ≤ j → m' j = m j

@[simp] theorem text_length (m : Memory α) (n : ℕ) : (m.text n).length = n := by
  rw [text, List.length_map, List.length_range]

@[simp] theorem text_zero (m : Memory α) : m.text 0 = [] := rfl

theorem text_congr {m m' : Memory α} {n : ℕ} (h : ∀ j, j < n → m' j = m j) : m'.text n = m.text n := by
  apply List.map_congr_left
  intro j hj
  exact h j (List.mem_range.mp hj)

theorem text_succ (m : Memory α) (n : ℕ) : m.text (n + 1) = m.text n ++ [m n] := by
  rw [text, List.range_succ, List.map_append]
  rfl

theorem text_put (m : Memory α) (n : ℕ) (x : α) : (m.put n x).text (n + 1) = m.text n ++ [x] := by
  have hbefore : (m.put n x).text n = m.text n := text_congr fun j hj => if_neg (Nat.ne_of_lt hj)
  rw [text_succ, hbefore]
  exact congr_arg (fun y => m.text n ++ [y]) (if_pos rfl)

theorem eq_of_text {m m' : Memory α} {n : ℕ} (h : m'.text n = m.text n) (hrest : SameFrom n m m') : m' = m := by
  funext j
  by_cases hj : j < n
  · have hplace : (m'.text n)[j]? = (m.text n)[j]? := by rw [h]
    simpa [text, hj] using hplace
  · exact hrest j (Nat.le_of_not_lt hj)

/-- A write at or after the end of the text leaves the text. -/
theorem text_put_of_le (m : Memory α) {n i : ℕ} (h : n ≤ i) (x : α) : (m.put i x).text n = m.text n :=
  text_congr fun j hj => if_neg (by omega)

theorem text_store (m : Memory α) (n : ℕ) (xs : List α) :
    (m.store n xs).text (n + xs.length) = m.text n ++ xs := by
  apply List.ext_getElem
  · rw [text_length, List.length_append, text_length]
  · intro j hj hj'
    rw [text_length] at hj
    by_cases hbefore : j < n
    · have hplace : m.store n xs j = m j := if_neg (by omega)
      rw [List.getElem_append_left (by rwa [text_length])]
      simpa [text] using hplace
    · have hplace : m.store n xs j = xs.getD (j - n) (m j) := if_pos (by omega)
      have hinside : j - n < xs.length := by omega
      rw [List.getElem_append_right (by rw [text_length]; omega)]
      simp only [text, List.getElem_map, List.getElem_range, List.length_map, List.length_range]
      rw [hplace, List.getD_eq_getElem xs (m j) hinside]

namespace SameFrom

theorem refl (n : ℕ) (m : Memory α) : SameFrom n m m := fun _ _ => rfl

theorem trans {n : ℕ} {m m' m'' : Memory α} (h : SameFrom n m m') (h' : SameFrom n m' m'') :
    SameFrom n m m'' := fun j hj => (h' j hj).trans (h j hj)

theorem mono {n k : ℕ} {m m' : Memory α} (h : SameFrom n m m') (hle : n ≤ k) : SameFrom k m m' :=
  fun j hj => h j (Nat.le_trans hle hj)

theorem put {n i : ℕ} (hi : i < n) (x : α) (m : Memory α) : SameFrom n m (m.put i x) :=
  fun _ hj => if_neg (by omega)

theorem fill (n : ℕ) (x : α) (m : Memory α) : SameFrom n m (m.fill n x) := fun _ hj => if_neg (by omega)

theorem store (n : ℕ) (xs : List α) (m : Memory α) : SameFrom (n + xs.length) m (m.store n xs) := by
  intro j hj
  have hplace : m.store n xs j = xs.getD (j - n) (m j) := if_pos (by omega)
  rw [hplace, List.getD_eq_default xs (m j) (by omega)]

end SameFrom

end Memory
