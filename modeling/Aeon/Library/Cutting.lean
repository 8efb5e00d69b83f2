import Mathlib.Data.List.Infix

/-!
# Cutting a list at the first place where something holds

`cut` takes items one after the other until what it has taken satisfies a
predicate, and everything if that never happens.
-/

namespace Cutting

variable {α : Type*} {P Q : List α → Prop} {l s t : List α}

/-- The shortest part of the list that satisfies the predicate, or the whole list
if there is none. -/
structure Cuts (P : List α → Prop) (l s : List α) : Prop where
  starts : s <+: l
  ends : P s ∨ s = l
  least : ∀ p, p <+: s → p ≠ s → ¬ P p

def cut (P : List α → Prop) [DecidablePred P] (taken : List α) : List α → List α
  | [] => taken
  | a :: rest => if P (taken ++ [a]) then taken ++ [a] else cut P (taken ++ [a]) rest

theorem Cuts.eq_of_starts (h : Cuts P l s) (h' : Cuts P l t) (hst : s <+: t) : s = t := by
  by_contra hne
  rcases h.ends with hs | hs
  · exact h'.least s hst hne hs
  · subst hs
    exact hne (hst.eq_of_length_le h'.starts.length_le)

theorem Cuts.unique (h : Cuts P l s) (h' : Cuts P l t) : s = t := by
  rcases List.prefix_or_prefix_of_prefix h.starts h'.starts with hst | hts
  · exact h.eq_of_starts h' hst
  · exact (h'.eq_of_starts h hts).symm

/-- A predicate that holds more often cuts at the same place exactly when it does
not hold before that. -/
theorem Cuts.eq_iff (h : Cuts P l s) (h' : Cuts Q l t) (hQP : ∀ p, Q p → P p) :
    s = t ↔ ∀ p, p <+: t → p ≠ t → ¬ P p := by
  constructor
  · rintro rfl
    exact h.least
  · intro hleast
    exact h.unique ⟨h'.starts, h'.ends.imp_left (hQP t), hleast⟩

/-- An item after a list gives it one more start, itself. -/
theorem starts_snoc {p : List α} {a : α} (h : p <+: t ++ [a]) (hne : p ≠ t ++ [a]) : p <+: t := by
  rcases List.prefix_concat_iff.mp h with heq | hle
  · exact absurd heq hne
  · exact hle

theorem cut_cuts [DecidablePred P] (taken rest : List α) (h : ∀ p, p <+: taken → ¬ P p) :
    Cuts P (taken ++ rest) (cut P taken rest) := by
  induction rest generalizing taken with
  | nil =>
    rw [List.append_nil]
    exact ⟨List.prefix_rfl, .inr rfl, fun p hp _ => h p hp⟩
  | cons a rest ih =>
    have hassoc : taken ++ a :: rest = taken ++ [a] ++ rest := by simp
    rw [hassoc]
    unfold cut
    split
    · rename_i hP
      exact ⟨List.prefix_append _ _, .inl hP, fun p hp hne => h p (starts_snoc hp hne)⟩
    · rename_i hP
      apply ih
      intro p hp
      by_cases heq : p = taken ++ [a]
      · rwa [heq]
      · exact h p (starts_snoc hp heq)

end Cutting
