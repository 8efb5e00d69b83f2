import Aeon.Library.History
import Mathlib.Data.List.Induction

/-!
# Lifetimes of the resources in one slot

A slot holds one resource at a time, and numbers those that it gets.  A history
that the slot follows creates a resource only in the empty slot, uses and frees
the one that is there, and leaves only when there is none.  So each resource is
freed once, and every one is freed before the slot is left.
-/

namespace Lifetimes

open History

inductive Act
  | create (id : ℕ)
  | use (id : ℕ)
  | free (id : ℕ)
  | leave
  | idle
  deriving DecidableEq

/-- What is in the slot, and the number of the next resource. -/
structure Slot where
  live : Option ℕ := none
  next : ℕ := 0
  deriving DecidableEq

def Slot.step (k : Slot) : Act → Option Slot
  | .create id => if k.live = none ∧ id = k.next then some ⟨some id, id + 1⟩ else none
  | .use id => if k.live = some id then some k else none
  | .free id => if k.live = some id then some { k with live := none } else none
  | .leave => if k.live = none then some k else none
  | .idle => some k

variable {α : Type} (act : α → Act)

/-- From `k` the slot follows the history to `k'`. -/
def Leads (k : Slot) (es : List α) (k' : Slot) : Prop :=
  follow (fun k e => k.step (act e)) k es = some k'

variable {act} {k k' k'' : Slot} {es es' : List α} {e : α}

namespace Leads

theorem nil (k : Slot) : Leads act k [] k := rfl

theorem append (h : Leads act k es k') (h' : Leads act k' es' k'') : Leads act k (es ++ es') k'' := by
  unfold Leads at *
  rw [follow_append, h]
  exact h'

theorem one (h : k.step (act e) = some k') : Leads act k [e] k' := by
  simp [Leads, follow, h]

theorem snoc_iff : Leads act k (es ++ [e]) k'' ↔
    ∃ k', Leads act k es k' ∧ k'.step (act e) = some k'' := by
  unfold Leads
  rw [follow_append, Option.bind_eq_some_iff]
  refine exists_congr fun k' => and_congr_right fun _ => ?_
  simp [follow]

theorem of_idle (h : ∀ e ∈ es, act e = .idle) : Leads act k es k := by
  induction es with
  | nil => exact .nil k
  | cons e es ih =>
    have hfirst : Leads act k [e] k := .one (by rw [h e List.mem_cons_self]; rfl)
    exact hfirst.append (ih fun e' he' => h e' (List.mem_cons_of_mem _ he'))

end Leads

/-- What can happen to the slot. -/
theorem Slot.step_cases {a : Act} (h : k.step a = some k') :
    (a = .create k.next ∧ k.live = none ∧ k' = ⟨some k.next, k.next + 1⟩) ∨
    (∃ id, a = .use id ∧ k.live = some id ∧ k' = k) ∨
    (∃ id, a = .free id ∧ k.live = some id ∧ k' = ⟨none, k.next⟩) ∨
    (a = .leave ∧ k.live = none ∧ k' = k) ∨ (a = .idle ∧ k' = k) := by
  cases a with
  | create id =>
    obtain ⟨⟨hnone, rfl⟩, hk⟩ := Option.ite_none_right_eq_some.mp h
    exact .inl ⟨rfl, hnone, (Option.some.inj hk).symm⟩
  | use id =>
    obtain ⟨hlive, hk⟩ := Option.ite_none_right_eq_some.mp h
    exact .inr (.inl ⟨id, rfl, hlive, (Option.some.inj hk).symm⟩)
  | free id =>
    obtain ⟨hlive, hk⟩ := Option.ite_none_right_eq_some.mp h
    exact .inr (.inr (.inl ⟨id, rfl, hlive, (Option.some.inj hk).symm⟩))
  | leave =>
    obtain ⟨hnone, hk⟩ := Option.ite_none_right_eq_some.mp h
    exact .inr (.inr (.inr (.inl ⟨rfl, hnone, (Option.some.inj hk).symm⟩)))
  | idle => exact .inr (.inr (.inr (.inr ⟨rfl, (Option.some.inj h).symm⟩)))

/-- How often a history creates, or frees, a resource. -/
def created (act : α → Act) (id : ℕ) (es : List α) : ℕ := es.countP fun e => act e = .create id

def freed (act : α → Act) (id : ℕ) (es : List α) : ℕ := es.countP fun e => act e = .free id

/-- The resources with the numbers that have been given out were created once, and
freed once but for the one that is there. -/
theorem Leads.counts (h : Leads act {} es k) (id : ℕ) :
    created act id es = (if id < k.next then 1 else 0) ∧
      created act id es = freed act id es + (if k.live = some id then 1 else 0) ∧
      ∀ i, k.live = some i → i < k.next := by
  induction es using List.reverseRecOn generalizing k with
  | nil =>
    obtain rfl := Option.some.inj h
    exact ⟨rfl, rfl, nofun⟩
  | append_singleton es e ih =>
    obtain ⟨k', hbefore, hstep⟩ := Leads.snoc_iff.mp h
    obtain ⟨hnew, hbalance, hnumbered⟩ := ih hbefore
    have hsnoc (p : α → Bool) : (es ++ [e]).countP p = es.countP p + if p e then 1 else 0 := by
      rw [List.countP_append, List.countP_singleton]
    unfold created freed at *
    rw [hsnoc, hsnoc, hnew] at *
    rcases Slot.step_cases hstep with ⟨ha, hnone, rfl⟩ | ⟨i, ha, hlive, rfl⟩ | ⟨i, ha, hlive, rfl⟩ |
      ⟨ha, hnone, rfl⟩ | ⟨ha, rfl⟩
    · have hfree : es.countP (fun e => decide (act e = .free id)) = if id < k'.next then 1 else 0 := by
        rw [hnone] at hbalance
        simpa using hbalance.symm
      rw [hfree]
      by_cases heq : id = k'.next
      · simp [ha, heq]
      · have hne : k'.next ≠ id := fun h => heq h.symm
        simp only [ha, Act.create.injEq, hne, Option.some.injEq, reduceCtorEq, decide_false, if_false,
          Bool.false_eq_true, Nat.add_zero, true_and]
        refine ⟨?_, fun i hi => hi ▸ Nat.lt_succ_self _⟩
        split <;> split <;> omega
    · simpa [ha] using ⟨hbalance, hnumbered⟩
    · rw [hlive] at hbalance
      have hlt := hnumbered i hlive
      by_cases heq : i = id
      · subst heq
        simp only [ha, hlt, if_true] at hbalance ⊢
        simp at hbalance ⊢
        omega
      · simpa [ha, heq] using hbalance
    · simpa [ha] using ⟨hbalance, hnumbered⟩
    · simpa [ha] using ⟨hbalance, hnumbered⟩

/-- At every use, and at every free, the resource has been created and not freed. -/
theorem Leads.used (h : Leads act {} es k) : Always (fun pre e => ∀ id,
    act e = .use id ∨ act e = .free id → created act id pre = 1 ∧ freed act id pre = 0) es := by
  induction es using List.reverseRecOn generalizing k with
  | nil => exact .nil
  | append_singleton es e ih =>
    obtain ⟨k', hbefore, hstep⟩ := Leads.snoc_iff.mp h
    refine (ih hbefore).snoc fun id he => ?_
    have hlive : k'.live = some id := by
      rcases he with he | he
      · rw [he] at hstep
        exact (Option.ite_none_right_eq_some.mp hstep).1
      · rw [he] at hstep
        exact (Option.ite_none_right_eq_some.mp hstep).1
    obtain ⟨hnew, hbalance, hnumbered⟩ := hbefore.counts id
    rw [if_pos (hnumbered id hlive)] at hnew
    rw [hlive, if_pos rfl] at hbalance
    omega

/-- Whenever the slot is left, everything that was created is freed. -/
theorem Leads.left (h : Leads act {} es k) : Always (fun pre e => act e = .leave → ∀ id,
    created act id pre = freed act id pre) es := by
  induction es using List.reverseRecOn generalizing k with
  | nil => exact .nil
  | append_singleton es e ih =>
    obtain ⟨k', hbefore, hstep⟩ := Leads.snoc_iff.mp h
    refine (ih hbefore).snoc fun he id => ?_
    rw [he] at hstep
    obtain ⟨hnone, -⟩ := Option.ite_none_right_eq_some.mp hstep
    obtain ⟨-, hbalance, -⟩ := hbefore.counts id
    rw [hnone] at hbalance
    simpa using hbalance

end Lifetimes
