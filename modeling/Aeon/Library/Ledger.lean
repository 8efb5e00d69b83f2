import Mathlib.Data.Multiset.AddSub
import Mathlib.Data.Multiset.Count

/-!
# Accounting for resources

A history acquires, uses and releases resources.  `Settles act held es held'`
says that the history leads from what was held to what is held after it, and
that whatever it uses or releases is held at that moment.  So a resource is
released as often as it was acquired, and nothing else is.
-/

namespace Ledger

inductive Act (ρ : Type)
  | acquire (r : ρ)
  | release (r : ρ)
  | use (r : ρ)
  | idle

section

variable {α ρ : Type} (act : α → Act ρ)

inductive Settles : Multiset ρ → List α → Multiset ρ → Prop
  | nil (held : Multiset ρ) : Settles held [] held
  | acquire {held held' : Multiset ρ} {e : α} {es : List α} (r : ρ) (he : act e = .acquire r)
      (rest : Settles (r ::ₘ held) es held') : Settles held (e :: es) held'
  | release {held held' : Multiset ρ} {e : α} {es : List α} (r : ρ) (he : act e = .release r)
      (rest : Settles held es held') : Settles (r ::ₘ held) (e :: es) held'
  | use {held held' : Multiset ρ} {e : α} {es : List α} (r : ρ) (he : act e = .use r)
      (hr : r ∈ held) (rest : Settles held es held') : Settles held (e :: es) held'
  | idle {held held' : Multiset ρ} {e : α} {es : List α} (he : act e = .idle)
      (rest : Settles held es held') : Settles held (e :: es) held'

end

namespace Settles

variable {α ρ : Type} {act : α → Act ρ} {a b c : Multiset ρ} {es es' : List α}

theorem append (h : Settles act a es b) (h' : Settles act b es' c) :
    Settles act a (es ++ es') c := by
  induction h with
  | nil => exact h'
  | acquire r he _ ih => exact .acquire r he (ih h')
  | release r he _ ih => exact .release r he (ih h')
  | use r he hr _ ih => exact .use r he hr (ih h')
  | idle he _ ih => exact .idle he (ih h')

/-- What a history does not need may be held throughout. -/
theorem frame (h : Settles act a es b) (c : Multiset ρ) : Settles act (a + c) es (b + c) := by
  induction h with
  | nil => exact .nil _
  | acquire r he _ ih => exact .acquire r he (by rwa [← Multiset.cons_add])
  | release r he _ ih =>
    rw [Multiset.cons_add]
    exact .release r he ih
  | use r he hr _ ih => exact .use r he (Multiset.mem_add.mpr (.inl hr)) ih
  | idle he _ ih => exact .idle he ih

theorem frame_left (h : Settles act a es b) (c : Multiset ρ) : Settles act (c + a) es (c + b) := by
  rw [Multiset.add_comm c a, Multiset.add_comm c b]
  exact h.frame c

theorem release_one {e : α} {r : ρ} (he : act e = .release r) : Settles act (r ::ₘ a) [e] a :=
  .release r he (.nil _)

theorem use_one {e : α} {r : ρ} (he : act e = .use r) (hr : r ∈ a) : Settles act a [e] a :=
  .use r he hr (.nil _)

/-- What is held in the middle of a history. -/
theorem split (h : Settles act a (es ++ es') c) :
    ∃ b, Settles act a es b ∧ Settles act b es' c := by
  induction es generalizing a with
  | nil => exact ⟨a, .nil a, h⟩
  | cons e es ih =>
    cases h with
    | acquire r he rest =>
      obtain ⟨b, hes, hes'⟩ := ih rest
      exact ⟨b, .acquire r he hes, hes'⟩
    | release r he rest =>
      obtain ⟨b, hes, hes'⟩ := ih rest
      exact ⟨b, .release r he hes, hes'⟩
    | use r he hr rest =>
      obtain ⟨b, hes, hes'⟩ := ih rest
      exact ⟨b, .use r he hr hes, hes'⟩
    | idle he rest =>
      obtain ⟨b, hes, hes'⟩ := ih rest
      exact ⟨b, .idle he hes, hes'⟩

/-- Everything that a history uses or releases was held before it or acquired in it. -/
theorem known (h : Settles act a es b) {e : α} (he : e ∈ es) {r : ρ}
    (hr : act e = .use r ∨ act e = .release r) : r ∈ a ∨ ∃ e' ∈ es, act e' = .acquire r := by
  induction h with
  | nil => cases he
  | acquire r' he' _ ih =>
    rcases List.mem_cons.mp he with rfl | he
    · rcases hr with hr | hr <;> cases he'.symm.trans hr
    · rcases ih he with hmem | ⟨e', hmem, hacq⟩
      · rcases Multiset.mem_cons.mp hmem with rfl | hmem
        · exact .inr ⟨_, List.mem_cons_self, he'⟩
        · exact .inl hmem
      · exact .inr ⟨e', List.mem_cons_of_mem _ hmem, hacq⟩
  | release r' he' _ ih =>
    rcases List.mem_cons.mp he with rfl | he
    · rcases hr with hr | hr
      · cases he'.symm.trans hr
      · cases he'.symm.trans hr
        exact .inl (Multiset.mem_cons_self _ _)
    · rcases ih he with hmem | ⟨e', hmem, hacq⟩
      · exact .inl (Multiset.mem_cons_of_mem hmem)
      · exact .inr ⟨e', List.mem_cons_of_mem _ hmem, hacq⟩
  | use r' he' hr' _ ih =>
    rcases List.mem_cons.mp he with rfl | he
    · rcases hr with hr | hr
      · cases he'.symm.trans hr
        exact .inl hr'
      · cases he'.symm.trans hr
    · rcases ih he with hmem | ⟨e', hmem, hacq⟩
      · exact .inl hmem
      · exact .inr ⟨e', List.mem_cons_of_mem _ hmem, hacq⟩
  | idle he' _ ih =>
    rcases List.mem_cons.mp he with rfl | he
    · rcases hr with hr | hr <;> cases he'.symm.trans hr
    · rcases ih he with hmem | ⟨e', hmem, hacq⟩
      · exact .inl hmem
      · exact .inr ⟨e', List.mem_cons_of_mem _ hmem, hacq⟩

/-- The events that acquire, and those that release, any resource. -/
def acquires (act : α → Act ρ) (e : α) : Bool := act e matches .acquire _

def releases (act : α → Act ρ) (e : α) : Bool := act e matches .release _

theorem card_eq (h : Settles act a es b) :
    a.card + es.countP (acquires act) = b.card + es.countP (releases act) := by
  induction h with
  | nil => rfl
  | acquire r he _ ih =>
    rw [Multiset.card_cons] at ih
    simp only [List.countP_cons, acquires, releases, he] at ih ⊢
    simp only [if_true, Bool.false_eq_true, if_false]
    omega
  | release r he _ ih =>
    rw [Multiset.card_cons]
    simp only [List.countP_cons, acquires, releases, he] at ih ⊢
    simp only [if_true, Bool.false_eq_true, if_false]
    omega
  | use r he _ _ ih | idle he _ ih =>
    simpa only [List.countP_cons, acquires, releases, he, Bool.false_eq_true, if_false,
      Nat.add_zero] using ih

section Counting

variable [DecidableEq ρ]

/-- The number of times that a history acquires, or releases, a resource. -/
def acquired (act : α → Act ρ) (r : ρ) (es : List α) : ℕ :=
  es.countP fun e => match act e with
    | .acquire r' => r' = r
    | _ => false

def released (act : α → Act ρ) (r : ρ) (es : List α) : ℕ :=
  es.countP fun e => match act e with
    | .release r' => r' = r
    | _ => false

theorem count_eq (h : Settles act a es b) (r : ρ) :
    a.count r + acquired act r es = b.count r + released act r es := by
  induction h with
  | nil => rfl
  | acquire r' he _ ih =>
    rw [Multiset.count_cons] at ih
    simp only [acquired, released, List.countP_cons, he] at ih ⊢
    by_cases hr : r' = r
    · simp only [hr, if_true, decide_true] at ih ⊢
      simp at ih ⊢
      omega
    · have hr' : r ≠ r' := fun h => hr h.symm
      simp only [hr, hr', if_false, decide_false] at ih ⊢
      simp at ih ⊢
      omega
  | release r' he _ ih =>
    rw [Multiset.count_cons]
    simp only [acquired, released, List.countP_cons, he] at ih ⊢
    by_cases hr : r' = r
    · simp only [hr, if_true, decide_true] at ih ⊢
      simp at ih ⊢
      omega
    · have hr' : r ≠ r' := fun h => hr h.symm
      simp only [hr, hr', if_false, decide_false] at ih ⊢
      simp at ih ⊢
      omega
  | use r' he _ _ ih | idle he _ ih =>
    simpa only [acquired, released, List.countP_cons, he, Bool.false_eq_true, if_false,
      Nat.add_zero] using ih

end Counting

end Settles

end Ledger
