import Mathlib.Data.List.Infix

/-!
# Searching a list for a pattern

`find` gives the first place where a pattern occurs.  What it finds in a list it
finds in every longer list, so a reader that waits for a pattern may look at what
has arrived as often as it likes.
-/

namespace Search

variable {α : Type*} {pat l m : List α} {i j : ℕ}

def find [DecidableEq α] (pat : List α) : List α → Option ℕ
  | [] => if pat = [] then some 0 else none
  | a :: l => if pat <+: a :: l then some 0 else (find pat l).map (· + 1)

/-- The pattern occurs at `i` and nowhere before. -/
structure Found (pat l : List α) (i : ℕ) : Prop where
  occurs : pat <+: l.drop i
  least : ∀ j < i, ¬ pat <+: l.drop j

theorem Found.unique (h : Found pat l i) (h' : Found pat l j) : i = j := by
  rcases Nat.lt_trichotomy i j with hlt | heq | hgt
  · exact absurd h.occurs (h'.least i hlt)
  · exact heq
  · exact absurd h'.occurs (h.least j hgt)

/-- An occurrence that ends inside the list is one of the list. -/
theorem occurs_of_append (h : pat <+: (l ++ m).drop j) (hle : j + pat.length ≤ l.length) :
    pat <+: l.drop j := by
  rw [List.drop_append_of_le_length (by omega)] at h
  exact List.prefix_of_prefix_length_le h (List.prefix_append _ _) (by rw [List.length_drop]; omega)

/-- The list around the place. -/
theorem Found.split (h : Found pat l i) : l = l.take i ++ pat ++ l.drop (i + pat.length) := by
  obtain ⟨rest, hrest⟩ := h.occurs
  have hdrop : l.drop (i + pat.length) = rest := by rw [← List.drop_drop, ← hrest]; simp
  rw [hdrop, List.append_assoc, hrest, List.take_append_drop]

theorem prefix_of_notMem {c : α} (hc : c ∉ pat) (h : pat <+: l ++ c :: m) : pat <+: l := by
  induction l generalizing pat with
  | nil =>
    cases pat with
    | nil => exact List.prefix_rfl
    | cons a pat =>
      obtain ⟨rfl, -⟩ := List.cons_prefix_cons.mp h
      exact absurd List.mem_cons_self hc
  | cons b l ih =>
    cases pat with
    | nil => exact List.nil_prefix
    | cons a pat =>
      obtain ⟨rfl, hrest⟩ := List.cons_prefix_cons.mp h
      exact List.cons_prefix_cons.mpr ⟨rfl, ih (fun hmem => hc (List.mem_cons_of_mem _ hmem)) hrest⟩

/-- A pattern without the item is on one side of it. -/
theorem infix_append_cons {c : α} (hc : c ∉ pat) (h : pat <:+: l ++ c :: m) :
    pat <:+: l ∨ pat <:+: m := by
  induction l with
  | nil =>
    rcases List.infix_cons_iff.mp h with hstart | hrest
    · have hnil : pat <+: [] := prefix_of_notMem hc hstart
      exact .inl hnil.isInfix
    · exact .inr hrest
  | cons b l ih =>
    rcases List.infix_cons_iff.mp h with hstart | hrest
    · have hstart : pat <+: (b :: l) ++ c :: m := hstart
      exact .inl (prefix_of_notMem hc hstart).isInfix
    · exact (ih hrest).imp_left fun hin => hin.trans (List.suffix_cons b l).isInfix

section Find

variable [DecidableEq α]

theorem find_cases (pat l : List α) :
    (∃ i, find pat l = some i ∧ Found pat l i) ∨
      find pat l = none ∧ ∀ i, ¬ pat <+: l.drop i := by
  induction l with
  | nil =>
    unfold find
    split
    · rename_i hpat
      exact .inl ⟨0, rfl, by simp [hpat], fun j hj => absurd hj (Nat.not_lt_zero j)⟩
    · rename_i hpat
      exact .inr ⟨rfl, fun i hi => hpat (by simpa using hi)⟩
  | cons a l ih =>
    unfold find
    split
    · rename_i hpat
      exact .inl ⟨0, rfl, hpat, fun j hj => absurd hj (Nat.not_lt_zero j)⟩
    · rename_i hpat
      rcases ih with ⟨i, hi, hfound⟩ | ⟨hnone, habsent⟩
      · refine .inl ⟨i + 1, by rw [hi]; rfl, hfound.occurs, fun j hj => ?_⟩
        cases j with
        | zero => exact hpat
        | succ j => exact hfound.least j (Nat.lt_of_succ_lt_succ hj)
      · refine .inr ⟨by rw [hnone]; rfl, fun i hi => ?_⟩
        cases i with
        | zero => exact hpat hi
        | succ i => exact habsent i hi

theorem find_eq_some : find pat l = some i ↔ Found pat l i := by
  rcases find_cases pat l with ⟨j, hj, hfound⟩ | ⟨hnone, habsent⟩
  · rw [hj]
    exact ⟨fun heq => Option.some.inj heq ▸ hfound, fun hi => congr_arg some (hfound.unique hi)⟩
  · rw [hnone]
    exact ⟨fun heq => (by cases heq), fun hi => absurd hi.occurs (habsent i)⟩

theorem find_eq_none : find pat l = none ↔ ∀ i, ¬ pat <+: l.drop i := by
  rcases find_cases pat l with ⟨j, hj, hfound⟩ | ⟨hnone, habsent⟩
  · rw [hj]
    exact ⟨fun heq => (by cases heq), fun habsent => absurd hfound.occurs (habsent j)⟩
  · exact ⟨fun _ => habsent, fun _ => hnone⟩

theorem find_eq_zero : find pat l = some 0 ↔ pat <+: l := by
  rw [find_eq_some]
  exact ⟨fun h => h.occurs, fun h => ⟨h, fun j hj => absurd hj (Nat.not_lt_zero j)⟩⟩

theorem find_singleton {a : α} : find [a] l = none ↔ a ∉ l := by
  rw [find_eq_none]
  constructor
  · intro habsent hmem
    obtain ⟨front, back, rfl⟩ := List.append_of_mem hmem
    exact habsent front.length (by rw [List.drop_left]; exact List.prefix_append [a] back)
  · intro hnot i hi
    exact hnot (List.mem_of_mem_drop (hi.subset List.mem_cons_self))

theorem find_le (h : find pat l = some i) (hpat : pat ≠ []) : i + pat.length ≤ l.length := by
  have hle := (find_eq_some.mp h).occurs.length_le
  have hpos := List.length_pos_iff.mpr hpat
  rw [List.length_drop] at hle
  omega

theorem find_append (h : find pat l = some i) (hpat : pat ≠ []) (m : List α) :
    find pat (l ++ m) = some i := by
  have hle := find_le h hpat
  obtain ⟨hoccurs, hleast⟩ := find_eq_some.mp h
  refine find_eq_some.mpr ⟨?_, fun j hj hbefore => hleast j hj (occurs_of_append hbefore (by omega))⟩
  rw [List.drop_append_of_le_length (by omega)]
  exact hoccurs.trans (List.prefix_append _ _)

/-- What is not in the list is found only where the continuation is needed. -/
theorem find_append_none (h : find pat l = none) (h' : find pat (l ++ m) = some i) :
    l.length < i + pat.length := by
  by_contra hle
  exact find_eq_none.mp h i (occurs_of_append (find_eq_some.mp h').occurs (Nat.le_of_not_lt hle))

/-- No occurrence begins in `l` when the pattern follows it. -/
def Clear (pat l : List α) : Prop := find pat (l ++ pat) = some l.length

instance : Decidable (Clear pat l) := inferInstanceAs (Decidable (_ = _))

theorem Clear.find (h : Clear pat l) (hpat : pat ≠ []) (m : List α) :
    find pat (l ++ (pat ++ m)) = some l.length := by
  rw [← List.append_assoc]
  exact find_append h hpat m

theorem Clear.not_within (h : Clear pat l) (hpat : pat ≠ []) : ¬ pat <:+: l := by
  rintro ⟨s, m, rfl⟩
  have hleast := (find_eq_some.mp h).least s.length
  have hpos := List.length_pos_iff.mpr hpat
  refine hleast (by simp; omega) ?_
  rw [List.append_assoc, List.append_assoc, List.drop_left]
  exact List.prefix_append _ _

theorem clear_take (h : Search.find pat l = some i) (hpat : pat ≠ []) : Clear pat (l.take i) := by
  have hle := find_le h hpat
  obtain ⟨hoccurs, hleast⟩ := find_eq_some.mp h
  have hsplit := (find_eq_some.mp h).split
  have hlength : (l.take i).length = i := by rw [List.length_take]; omega
  refine find_eq_some.mpr ⟨?_, fun j hj hbefore => ?_⟩
  · rw [List.drop_left]
  · rw [hlength] at hj
    refine hleast j hj ?_
    rw [hsplit, List.drop_append_of_le_length (by simp; omega)]
    exact hbefore.trans (List.prefix_append _ _)

/-- A pattern whose first item does not come again in it cannot begin in a list where
it does not occur. -/
theorem clear_of_not_within {a : α} (ha : a ∉ pat) (h : ¬ a :: pat <:+: l) : Clear (a :: pat) l := by
  refine find_eq_some.mpr ⟨by rw [List.drop_left], fun j hj hbefore => ?_⟩
  rw [List.drop_append_of_le_length (Nat.le_of_lt hj)] at hbefore
  have hpos : 0 < (l.drop j).length := by rw [List.length_drop]; omega
  rcases List.prefix_or_prefix_of_prefix hbefore (List.prefix_append (l.drop j) _) with hin | hover
  · exact h (hin.isInfix.trans (List.drop_suffix j l).isInfix)
  · -- the rest of the pattern would start with its first item
    obtain ⟨rest, hrest⟩ := hover
    rw [← hrest, List.prefix_append_right_inj] at hbefore
    obtain ⟨b, s, hs⟩ := List.exists_cons_of_ne_nil (List.ne_nil_of_length_pos hpos)
    rw [hs, List.cons_append, List.cons.injEq] at hrest
    cases rest with
    | nil =>
      rw [List.append_nil] at hrest
      refine h (List.IsInfix.trans ?_ (List.drop_suffix j l).isInfix)
      rw [hs, hrest.1, hrest.2]
    | cons c rest =>
      rw [hs, List.cons_append, List.cons_prefix_cons] at hbefore
      refine ha (hrest.2 ▸ List.mem_append_right s ?_)
      rw [hbefore.1, hrest.1]
      exact List.mem_cons_self

theorem clear_of_notMem {a : α} (h : a ∉ l) (ha : a ∉ pat) : Clear (a :: pat) l :=
  clear_of_not_within ha fun hin => h (hin.subset List.mem_cons_self)

/-- Where no occurrence begins none of a longer pattern does. -/
theorem Clear.longer {more : List α} (h : Clear pat l) : Clear (pat ++ more) l := by
  refine find_eq_some.mpr ⟨by rw [List.drop_left], fun j hj hbefore => ?_⟩
  refine (find_eq_some.mp h).least j hj (occurs_of_append (m := more) ?_ ?_)
  · rw [List.append_assoc]
    exact (List.prefix_append _ _).trans hbefore
  · rw [List.length_append]
    omega

end Find

end Search
