import Mathlib.Data.List.Perm.Subperm
import Mathlib.Logic.Function.Basic
import Mathlib.Tactic.Common

/-!
# Threads that share an object

An operation of the object is a sequence of atomic steps on the shared state.
Threads call operations and their steps interleave in any order.  A run is what
can be seen of this: the calls and the returns.  An object is linearizable when
each of its runs is one of an object whose operations take effect in one step.
-/

namespace Threads

variable {σ κ κ' ω ρ ι : Type}

/-- `κ` is where a call stands, and `result` what it returns, once it has ended. -/
structure Object (σ κ ω ρ : Type) where
  start : ω → κ
  step : κ → σ → κ × σ
  result : κ → Option ρ

/-- Every operation takes effect in one step, between its call and its return. -/
def Object.atomic (f : ω → σ → ρ × σ) : Object σ (ω ⊕ ρ) ω ρ where
  start := .inl
  step
    | .inl o, s => (.inr (f o s).1, (f o s).2)
    | .inr r, s => (.inr r, s)
  result
    | .inl _ => none
    | .inr r => some r

/-- The shared state, and the call that each thread is in. -/
structure Config (σ κ ι : Type) where
  shared : σ
  calls : ι → Option κ

def Config.start (s : σ) : Config σ κ ι := ⟨s, fun _ => none⟩

inductive Label (ω ρ ι : Type)
  | call (i : ι) (o : ω)
  | ret (i : ι) (r : ρ)
  deriving DecidableEq

/-- Operations that took effect one after the other, with what they returned. -/
inductive Executes (f : ω → σ → ρ × σ) (s : σ) : List (ι × ω × ρ) → σ → Prop
  | nil : Executes f s [] s
  | snoc {es : List (ι × ω × ρ)} {t : σ} (i : ι) (o : ω) (prior : Executes f s es t) :
      Executes f s (es ++ [(i, o, (f o t).1)]) (f o t).2

/-- The operation that an entry was before the last entries were added to the list. -/
theorem Executes.before {f : ω → σ → ρ × σ} {s t : σ} {es es' : List (ι × ω × ρ)}
    {e : ι × ω × ρ} (h : Executes f s (es ++ e :: es') t) :
    ∃ u, Executes f s es u ∧ e.2.2 = (f e.2.1 u).1 := by
  generalize hall : es ++ e :: es' = all at h
  induction h generalizing es' with
  | nil => simp at hall
  | @snoc all' u i o prior ih =>
    rcases List.eq_nil_or_concat es' with rfl | ⟨es', x, rfl⟩
    · obtain ⟨rfl, he⟩ := List.append_inj' hall rfl
      obtain rfl : e = (i, o, (f o u).1) := by simpa using he
      exact ⟨u, prior, rfl⟩
    · have hsame : all' ++ [(i, o, (f o u).1)] = es ++ e :: es' ++ [x] := by
        rw [← hall]
        simp
      exact ih (List.append_inj' hsame rfl).1.symm

section Runs

variable [DecidableEq ι]

def Config.set (i : ι) (k : Option κ) (s : σ) (c : Config σ κ ι) : Config σ κ ι :=
  ⟨s, Function.update c.calls i k⟩

@[simp] theorem Config.set_shared (i : ι) (k : Option κ) (s : σ) (c : Config σ κ ι) :
    (c.set i k s).shared = s := rfl

@[simp] theorem Config.set_self (i : ι) (k : Option κ) (s : σ) (c : Config σ κ ι) :
    (c.set i k s).calls i = k := by simp [Config.set]

theorem Config.set_other {i j : ι} (hij : j ≠ i) (k : Option κ) (s : σ) (c : Config σ κ ι) :
    (c.set i k s).calls j = c.calls j := by simp [Config.set, hij]

/-- The runs from `c₀` in which every atomic step is allowed. -/
inductive Run (O : Object σ κ ω ρ) (ok : Config σ κ ι → ι → Prop) (c₀ : Config σ κ ι) :
    List (Label ω ρ ι) → Config σ κ ι → Prop
  | start : Run O ok c₀ [] c₀
  | call {tr : List (Label ω ρ ι)} {c : Config σ κ ι} (i : ι) (o : ω) (prior : Run O ok c₀ tr c)
      (idle : c.calls i = none) :
      Run O ok c₀ (tr ++ [.call i o]) (c.set i (some (O.start o)) c.shared)
  | step {tr : List (Label ω ρ ι)} {c : Config σ κ ι} (i : ι) (k : κ) (prior : Run O ok c₀ tr c)
      (running : c.calls i = some k) (more : O.result k = none) (allowed : ok c i) :
      Run O ok c₀ tr (c.set i (some (O.step k c.shared).1) (O.step k c.shared).2)
  | ret {tr : List (Label ω ρ ι)} {c : Config σ κ ι} (i : ι) (k : κ) (r : ρ)
      (prior : Run O ok c₀ tr c) (running : c.calls i = some k) (ended : O.result k = some r) :
      Run O ok c₀ (tr ++ [.ret i r]) (c.set i none c.shared)

variable {O : Object σ κ ω ρ} {ok : Config σ κ ι → ι → Prop} {c₀ c : Config σ κ ι}
variable {tr : List (Label ω ρ ι)}

/-- An invariant of a run and of what can be seen of it. -/
structure Invariant (O : Object σ κ ω ρ) (ok : Config σ κ ι → ι → Prop)
    (I : List (Label ω ρ ι) → Config σ κ ι → Prop) : Prop where
  call : ∀ tr c i o, c.calls i = none → I tr c →
    I (tr ++ [.call i o]) (c.set i (some (O.start o)) c.shared)
  step : ∀ tr c i k, c.calls i = some k → O.result k = none → ok c i → I tr c →
    I tr (c.set i (some (O.step k c.shared).1) (O.step k c.shared).2)
  ret : ∀ tr c i k r, c.calls i = some k → O.result k = some r → I tr c →
    I (tr ++ [.ret i r]) (c.set i none c.shared)

theorem Run.keeps {I : List (Label ω ρ ι) → Config σ κ ι → Prop} (hI : Invariant O ok I)
    (h : Run O ok c₀ tr c) (hstart : I [] c₀) : I tr c := by
  induction h with
  | start => exact hstart
  | call i o _ idle ih => exact hI.call _ _ i o idle ih
  | step i k _ running more allowed ih => exact hI.step _ _ i k running more allowed ih
  | ret i k r _ running ended ih => exact hI.ret _ _ i k r running ended ih

/-- Up to `n` steps of one thread, while `allowed` says so. -/
def Object.advance (O : Object σ κ ω ρ) (allowed : Config σ κ ι → Bool) (i : ι) :
    ℕ → Config σ κ ι → Config σ κ ι
  | 0, c => c
  | n + 1, c =>
    match c.calls i with
    | some k =>
      if (O.result k).isNone && allowed c then
        O.advance allowed i n (c.set i (some (O.step k c.shared).1) (O.step k c.shared).2)
      else c
    | none => c

theorem Object.advance_other {allowed : Config σ κ ι → Bool} {i j : ι} (hij : j ≠ i) (n : ℕ)
    (c : Config σ κ ι) : (O.advance allowed i n c).calls j = c.calls j := by
  induction n generalizing c with
  | zero => rfl
  | succ n ih =>
    unfold Object.advance
    split
    · split
      · exact (ih _).trans (Config.set_other hij ..)
      · rfl
    · rfl

theorem Run.advance {allowed : Config σ κ ι → Bool} (i : ι) (hok : ∀ c, allowed c = true → ok c i)
    (n : ℕ) (h : Run O ok c₀ tr c) : Run O ok c₀ tr (O.advance allowed i n c) := by
  induction n generalizing c with
  | zero => exact h
  | succ n ih =>
    unfold Object.advance
    split
    · rename_i k running
      split
      · rename_i hstep
        obtain ⟨more, hallowed⟩ := Bool.and_eq_true_iff.mp hstep
        exact ih (h.step i k running (Option.isNone_iff_eq_none.mp more) (hok c hallowed))
      · exact h
    · exact h

theorem Config.set_set (i : ι) (k k' : Option κ) (s s' : σ) (c : Config σ κ ι) :
    (c.set i k s).set i k' s' = c.set i k' s' := by simp [Config.set]

theorem Config.set_idle {i : ι} {c : Config σ κ ι} (h : c.calls i = none) (s : σ) :
    c.set i none s = ⟨s, c.calls⟩ := by
  rw [Config.set, ← h, Function.update_eq_self]

/-- A call of an atomic operation, from its start to its return. -/
theorem Run.perform {f : ω → σ → ρ × σ} {ok : Config σ (ω ⊕ ρ) ι → ι → Prop}
    {c₀ c : Config σ (ω ⊕ ρ) ι} (h : Run (.atomic f) ok c₀ tr c) (i : ι) (o : ω)
    (idle : c.calls i = none) (allowed : ok (c.set i (some (.inl o)) c.shared) i) :
    Run (.atomic f) ok c₀ (tr ++ [.call i o] ++ [.ret i (f o c.shared).1])
      ⟨(f o c.shared).2, c.calls⟩ := by
  have hcalled := h.call i o idle
  have hdone := hcalled.step i (.inl o) (Config.set_self ..) rfl allowed
  have hret := hdone.ret i (.inr (f o c.shared).1) _ (Config.set_self ..) rfl
  rw [Config.set_set, Config.set_set, Config.set_idle idle] at hret
  exact hret

def called (tr : List (Label ω ρ ι)) : List (ι × ω) :=
  tr.filterMap fun
    | .call i o => some (i, o)
    | .ret _ _ => none

/-- Calls of atomic operations, one after the other. -/
def serial (f : ω → σ → ρ × σ) : List (ι × ω) → σ → List (Label ω ρ ι) × σ
  | [], s => ([], s)
  | (i, o) :: rest, s =>
    let r := serial f rest (f o s).2
    (.call i o :: .ret i (f o s).1 :: r.1, r.2)

theorem Run.serial {f : ω → σ → ρ × σ} {c₀ : Config σ (ω ⊕ ρ) ι} {s : σ}
    (h : Run (.atomic f) (fun _ _ => True) c₀ tr (.start s)) (cs : List (ι × ω)) :
    Run (.atomic f) (fun _ _ => True) c₀ (tr ++ (Threads.serial f cs s).1)
      (.start (Threads.serial f cs s).2) := by
  induction cs generalizing tr s with
  | nil => simpa [Threads.serial] using h
  | cons p rest ih =>
    have hfirst : Run (.atomic f) (fun _ _ => True) c₀
        (tr ++ [.call p.1 p.2] ++ [.ret p.1 (f p.2 s).1]) (.start (f p.2 s).2) :=
      h.perform p.1 p.2 rfl trivial
    have hrest := ih hfirst
    rw [List.append_assoc, List.append_assoc] at hrest
    exact hrest

theorem serial_run (f : ω → σ → ρ × σ) (cs : List (ι × ω)) (s : σ) :
    Run (.atomic f) (fun _ _ => True) (.start s) (serial f cs s).1 (.start (serial f cs s).2) :=
  Run.start.serial cs

section Ordered

variable [DecidableEq ω] [DecidableEq ρ] {f : ω → σ → ρ × σ} {ca : Config σ (ω ⊕ ρ) ι} {s : σ}

/-- The call has not taken effect yet. -/
def owed (c : Config σ (ω ⊕ ρ) ι) (p : ι × ω) : ℕ := if c.calls p.1 = some (.inl p.2) then 1 else 0

/-- The calls that have taken effect, in order. -/
structure Ordered (f : ω → σ → ρ × σ) (s : σ) (tr : List (Label ω ρ ι))
    (c : Config σ (ω ⊕ ρ) ι) (es : List (ι × ω × ρ)) : Prop where
  executes : Executes f s es c.shared
  counted : ∀ p, (es.map fun e => (e.1, e.2.1)).count p + owed c p ≤ (called tr).count p
  answered : ∀ i r, c.calls i = some (.inr r) ∨ .ret i r ∈ tr → ∃ o, (i, o, r) ∈ es

theorem owed_set (i : ι) (k : Option (ω ⊕ ρ)) (t : σ) (p : ι × ω) :
    owed (ca.set i k t) p = if p.1 = i then (if k = some (.inl p.2) then 1 else 0) else owed ca p := by
  unfold owed
  by_cases hp : p.1 = i
  · simp [hp]
  · rw [Config.set_other hp, if_neg hp]

/-- In a run of atomic operations the calls took effect in some order, and returned
what they return in this order. -/
theorem Run.ordered {ok : Config σ (ω ⊕ ρ) ι → ι → Prop} (h : Run (.atomic f) ok (.start s) tr ca) :
    ∃ es, Ordered f s tr ca es := by
  refine h.keeps (I := fun tr c => ∃ es, Ordered f s tr c es)
    ⟨fun tr c i o idle ⟨es, hes⟩ => ?_, fun tr c i k running _ _ ⟨es, hes⟩ => ?_,
      fun tr c i k r running ended ⟨es, hes⟩ => ?_⟩
    ⟨[], .nil, fun p => by simp [owed, Config.start], fun i r hr => by simp [Config.start] at hr⟩
  · refine ⟨es, hes.executes, fun p => ?_, fun j r hr => hes.answered j r ?_⟩
    · have hp := hes.counted p
      rw [owed_set, called, List.filterMap_append, List.count_append]
      by_cases hpi : p.1 = i
      · have hnone : owed c p = 0 := by simp [owed, hpi, idle]
        rw [if_pos hpi]
        by_cases ho : o = p.2
        · obtain ⟨j, o'⟩ := p
          obtain rfl : j = i := hpi
          obtain rfl : o = o' := ho
          simpa [called, hnone, Object.atomic] using hp
        · rw [if_neg (by simpa [Object.atomic] using ho)]
          exact Nat.le_trans (Nat.le_of_add_right_le hp) (Nat.le_add_right _ _)
      · rw [if_neg hpi]
        exact Nat.le_trans hp (Nat.le_add_right _ _)
    · refine hr.imp (fun hj => ?_) fun hmem => by simpa using hmem
      by_cases hji : j = i
      · subst hji
        rw [Config.set_self] at hj
        cases hj
      · rwa [Config.set_other hji] at hj
  · cases k with
    | inr r =>
      refine ⟨es, hes.executes, fun p => ?_, fun j r' hr => hes.answered j r' (hr.imp_left fun hj => ?_)⟩
      · refine Nat.le_trans (Nat.add_le_add_left ?_ _) (hes.counted p)
        rw [owed_set]
        split
        · rw [if_neg (by simp [Object.atomic])]
          exact Nat.zero_le _
        · exact Nat.le_refl _
      · by_cases hji : j = i
        · subst hji
          rw [Config.set_self] at hj
          rw [running]
          exact hj
        · rwa [Config.set_other hji] at hj
    | inl o =>
      refine ⟨es ++ [(i, o, (f o c.shared).1)], hes.executes.snoc i o, fun p => ?_, fun j r hr => ?_⟩
      · have hp := hes.counted p
        rw [owed_set, List.map_append, List.count_append]
        by_cases hpi : p.1 = i
        · rw [if_pos hpi, if_neg (by simp [Object.atomic])]
          obtain ⟨j, o'⟩ := p
          obtain rfl : j = i := hpi
          by_cases ho : o = o'
          · subst ho
            simpa [owed, running] using hp
          · have hzero : List.count (j, o') (List.map (fun e : ι × ω × ρ => (e.1, e.2.1))
                [(j, o, (f o c.shared).1)]) = 0 := by simp [ho]
            rw [hzero]
            exact Nat.le_of_add_right_le hp
        · rw [if_neg hpi]
          have hzero : List.count p (List.map (fun e : ι × ω × ρ => (e.1, e.2.1))
              [(i, o, (f o c.shared).1)]) = 0 := by
            refine List.count_eq_zero.mpr fun hmem => hpi ?_
            rw [List.mem_singleton.mp hmem]
          rw [hzero]
          exact hp
      · rcases hr with hj | hmem
        · by_cases hji : j = i
          · subst hji
            rw [Config.set_self] at hj
            obtain rfl : (f o c.shared).1 = r := Sum.inr.inj (Option.some.inj hj)
            exact ⟨o, by simp⟩
          · rw [Config.set_other hji] at hj
            exact (hes.answered j r (.inl hj)).imp fun _ => List.mem_append_left _
        · exact (hes.answered j r (.inr hmem)).imp fun _ => List.mem_append_left _
  · cases k with
    | inl o => cases ended
    | inr r' =>
      obtain rfl := Option.some.inj ended
      refine ⟨es, hes.executes, fun p => ?_, fun j r hr => ?_⟩
      · rw [owed_set, called, List.filterMap_append]
        refine Nat.le_trans (Nat.add_le_add_left ?_ _) (Nat.le_trans (hes.counted p) ?_)
        · split
          · exact Nat.zero_le _
          · exact Nat.le_refl _
        · simp [called]
      · rcases hr with hj | hmem
        · by_cases hji : j = i
          · subst hji
            rw [Config.set_self] at hj
            cases hj
          · exact hes.answered j r (.inl (by rwa [Config.set_other hji] at hj))
        · rcases List.mem_append.mp hmem with hold | hnew
          · exact hes.answered j r (.inr hold)
          · obtain ⟨rfl, rfl⟩ := Label.ret.inj (List.mem_singleton.mp hnew)
            exact hes.answered j r (.inl running)

/-- No call took effect more often than it was made. -/
theorem Ordered.subperm {es : List (ι × ω × ρ)} (h : Ordered f s tr ca es) :
    (es.map fun e => (e.1, e.2.1)).Subperm (called tr) :=
  List.subperm_ext_iff.mpr fun p _ => Nat.le_of_add_right_le (h.counted p)

end Ordered

/-- Where a call of the object stands corresponds to where the same call of an object
with atomic operations does.  The step in which an operation takes effect is its
linearization point; the other steps change nothing. -/
structure Linearizes (O : Object σ κ ω ρ) (ok : Config σ κ ι → ι → Prop) (f : ω → σ → ρ × σ)
    (R : κ → ω ⊕ ρ → Prop) : Prop where
  start : ∀ o, R (O.start o) (.inl o)
  result : ∀ k a r, R k a → O.result k = some r → a = .inr r
  step : ∀ c i k a, c.calls i = some k → R k a → O.result k = none → ok c i →
    (O.step k c.shared).2 = c.shared ∧ R (O.step k c.shared).1 a ∨
    ∃ o, a = .inl o ∧ (O.step k c.shared).2 = (f o c.shared).2 ∧
      R (O.step k c.shared).1 (.inr (f o c.shared).1)

/-- Each run is a run of the operations taken as atomic, with the same state after it. -/
theorem Run.linearizes {f : ω → σ → ρ × σ} {R : κ → ω ⊕ ρ → Prop} {s : σ}
    (hR : Linearizes O ok f R) (h : Run O ok (.start s) tr c) :
    ∃ c', Run (Object.atomic f) (fun _ _ => True) (.start s) tr c' ∧ c'.shared = c.shared ∧
      ∀ i, Option.Rel R (c.calls i) (c'.calls i) := by
  have hset {c : Config σ κ ι} {c' : Config σ (ω ⊕ ρ) ι} {i : ι} {k : Option κ} {a : Option (ω ⊕ ρ)}
      {t t' : σ} (hall : ∀ j, Option.Rel R (c.calls j) (c'.calls j)) (hi : Option.Rel R k a) (j : ι) :
      Option.Rel R ((c.set i k t).calls j) ((c'.set i a t').calls j) := by
    by_cases hj : j = i
    · subst hj
      simpa using hi
    · rw [Config.set_other hj, Config.set_other hj]
      exact hall j
  induction h with
  | start => exact ⟨_, .start, rfl, fun _ => .none⟩
  | @call tr c i o _ idle ih =>
    obtain ⟨c', hrun, hshared, hall⟩ := ih
    have hidle : c'.calls i = none := by
      have hi := hall i
      rw [idle] at hi
      cases hc : c'.calls i with
      | none => rfl
      | some a =>
        rw [hc] at hi
        cases hi
    exact ⟨_, hrun.call i o hidle, hshared, hset hall (.some (hR.start o))⟩
  | @step tr c i k _ running more allowed ih =>
    obtain ⟨c', hrun, hshared, hall⟩ := ih
    have hi := hall i
    rw [running] at hi
    cases ha : c'.calls i with
    | none =>
      rw [ha] at hi
      cases hi
    | some a =>
      rw [ha] at hi
      obtain hk : R k a := by cases hi; assumption
      rcases hR.step c i k a running hk more allowed with ⟨hsame, hk'⟩ | ⟨o, rfl, heffect, hk'⟩
      · refine ⟨c', hrun, hshared.trans hsame.symm, fun j => ?_⟩
        by_cases hj : j = i
        · subst hj
          rw [Config.set_self, ha]
          exact .some hk'
        · rw [Config.set_other hj]
          exact hall j
      · refine ⟨_, hrun.step i (.inl o) ha rfl trivial, ?_, ?_⟩
        · show (f o c'.shared).2 = (O.step k c.shared).2
          rw [hshared, heffect]
        · refine hset hall (.some ?_)
          show R (O.step k c.shared).1 (.inr (f o c'.shared).1)
          rw [hshared]
          exact hk'
  | @ret tr c i k r _ running ended ih =>
    obtain ⟨c', hrun, hshared, hall⟩ := ih
    have hi := hall i
    rw [running] at hi
    cases ha : c'.calls i with
    | none =>
      rw [ha] at hi
      cases hi
    | some a =>
      rw [ha] at hi
      obtain hk : R k a := by cases hi; assumption
      obtain rfl := hR.result k a r hk ended
      exact ⟨_, hrun.ret i (.inr r) r ha rfl, hshared, hset hall .none⟩

end Runs

end Threads
