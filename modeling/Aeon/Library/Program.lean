import Mathlib.Tactic.Common

/-!
# Programs that may halt, and their rules

A program over a state returns a value or halts, and leaves a state either
way.  `Triple` is the total specification of one program: what holds after a
return and what holds after a halt.  The rules below follow the shape of the
program text.
-/

namespace Program

/-- Why a run stops before its end: an exception, a wait that has not ended, or
an access that the language leaves undefined. -/
inductive Halt
  | thrown | waiting | undefined
  deriving DecidableEq, Repr

def Code (σ α : Type) : Type := σ → Except Halt α × σ

namespace Code

variable {σ α β : Type}

def ret (a : α) : Code σ α := fun s => (.ok a, s)

def andThen (m : Code σ α) (f : α → Code σ β) : Code σ β := fun s =>
  match m s with
  | (.ok a, s') => f a s'
  | (.error e, s') => (.error e, s')

instance : Monad (Code σ) where
  pure := ret
  bind := andThen

/-- Run a function of the state that gives a value and a new state. -/
def update (f : σ → α × σ) : Code σ α := fun s => (.ok (f s).1, (f s).2)

def read (f : σ → α) : Code σ α := fun s => (.ok (f s), s)

def modify (f : σ → σ) : Code σ Unit := fun s => (.ok (), f s)

def halt (e : Halt) : Code σ α := fun s => (.error e, s)

/-- Apply `f` to the state whichever way the program ends. -/
def atExit (m : Code σ α) (f : σ → σ) : Code σ α := fun s => ((m s).1, f (m s).2)

/-- Run `m` only if `c` holds. -/
def whenever (c : Bool) (m : Code σ Unit) : Code σ Unit := if c then m else pure ()

@[simp] theorem pure_run (a : α) (s : σ) : (pure a : Code σ α) s = (.ok a, s) := rfl

theorem bind_run (m : Code σ α) (f : α → Code σ β) (s : σ) :
    (m >>= f) s = match m s with
      | (.ok a, s') => f a s'
      | (.error e, s') => (.error e, s') := rfl

instance : LawfulMonad (Code σ) := by
  refine .mk' _ (fun m => ?_) (fun _ _ => rfl) fun m f g => ?_
  · funext s
    show (m >>= fun a => pure a) s = m s
    rw [bind_run]
    rcases m s with ⟨_ | a, s'⟩ <;> rfl
  · funext s
    simp only [bind_run]
    rcases m s with ⟨_ | a, s'⟩ <;> rfl

@[simp] theorem update_run (f : σ → α × σ) (s : σ) : update f s = (.ok (f s).1, (f s).2) := rfl

@[simp] theorem read_run (f : σ → α) (s : σ) : read f s = (.ok (f s), s) := rfl

@[simp] theorem modify_run (f : σ → σ) (s : σ) : modify f s = (.ok (), f s) := rfl

@[simp] theorem whenever_true (m : Code σ Unit) : whenever true m = m := rfl

@[simp] theorem whenever_false (m : Code σ Unit) : whenever false m = pure () := rfl

@[simp] theorem halt_run (e : Halt) (s : σ) : (halt e : Code σ α) s = (.error e, s) := rfl

end Code

open Code

variable {σ α β : Type}

/-- From a state in `P`, a return ends in `Q` and a halt ends in `E`. -/
def Triple (P : σ → Prop) (m : Code σ α) (Q : α → σ → Prop) (E : Halt → σ → Prop) : Prop :=
  ∀ s, P s → match m s with
    | (.ok a, s') => Q a s'
    | (.error e, s') => E e s'

namespace Triple

variable {P P' : σ → Prop} {Q Q' : α → σ → Prop} {R : β → σ → Prop} {E E' : Halt → σ → Prop}
variable {m : Code σ α} {f : α → Code σ β}

theorem mono (h : Triple P m Q E) (hp : ∀ s, P' s → P s) (hq : ∀ a s, Q a s → Q' a s)
    (he : ∀ e s, E e s → E' e s) : Triple P' m Q' E' := by
  intro s hs
  have hm := h s (hp s hs)
  revert hm
  rcases m s with ⟨_ | _, s'⟩
  · exact he _ _
  · exact hq _ _

theorem pre (h : Triple P m Q E) (hp : ∀ s, P' s → P s) : Triple P' m Q E :=
  h.mono hp (fun _ _ hq => hq) (fun _ _ he => he)

theorem post (h : Triple P m Q E) (hq : ∀ a s, Q a s → Q' a s) : Triple P m Q' E :=
  h.mono (fun _ hp => hp) hq (fun _ _ he => he)

theorem bind (hm : Triple P m Q E) (hf : ∀ a, Triple (Q a) (f a) R E) :
    Triple P (m >>= f) R E := by
  intro s hs
  have h := hm s hs
  rw [bind_run]
  revert h
  rcases m s with ⟨_ | a, s'⟩
  · exact id
  · exact hf a s'

/-- The first program gives a known value. -/
theorem bind_value {a : α} {P' : σ → Prop} (hm : Triple P m (fun b s => b = a ∧ P' s) E)
    (hf : Triple P' (f a) R E) : Triple P (m >>= f) R E :=
  hm.bind fun _ s hs => hs.1.symm ▸ hf s hs.2

theorem pure {a : α} : Triple (Q a) (Pure.pure a : Code σ α) Q E := fun _ hs => hs

/-- A return needs no more than what it is to establish. -/
theorem ret {a : α} (h : ∀ s, P s → Q a s) : Triple P (Pure.pure a : Code σ α) Q E := h

theorem whenever {c : Bool} {m : Code σ Unit} {Q : Unit → σ → Prop} (ht : c = true → Triple P m Q E)
    (hf : c = false → ∀ s, P s → Q () s) : Triple P (Code.whenever c m) Q E := by
  cases c with
  | true => exact ht rfl
  | false => exact hf rfl

theorem modify {g : σ → σ} {Q : Unit → σ → Prop} :
    Triple (fun s => Q () (g s)) (Code.modify g) Q E := fun _ hs => hs

/-- A program that meets whatever `m'` meets from some state runs as `m'` does. -/
theorem runs {m' : Code σ α} (h : ∀ Q E, Triple P' m' Q E → Triple P m Q E) {s : σ} (hs : P s) :
    ∃ s', P' s' ∧ m s = m' s' := by
  have hm := h (fun a u => ∃ s', P' s' ∧ (.ok a, u) = m' s')
    (fun e u => ∃ s', P' s' ∧ (.error e, u) = m' s') (fun s' hs' => ?_) s hs
  · revert hm
    rcases m s with ⟨_ | _, u⟩ <;> exact id
  · rcases hrun : m' s' with ⟨_ | _, u⟩
    · exact ⟨s', hs', hrun.symm⟩
    · exact ⟨s', hs', hrun.symm⟩

/-- What holds of the state afterwards, however the program ends. -/
theorem after {I J : σ → Prop} (h : ∀ s, I s → J (m s).2) :
    Triple I m (fun _ => J) fun _ => J := by
  intro s hs
  have hafter := h s hs
  revert hafter
  rcases m s with ⟨_ | _, s'⟩ <;> exact id

theorem ite {c : Prop} [Decidable c] {m' : Code σ α} (ht : c → Triple P m Q E)
    (hf : ¬c → Triple P m' Q E) : Triple P (if c then m else m') Q E := by
  split
  · exact ht ‹c›
  · exact hf ‹¬c›

/-- A fact about the state before may be carried to a proof of the rule. -/
theorem assume (h : ∀ s, P s → Triple (fun t => t = s) m Q E) : Triple P m Q E :=
  fun s hs => h s hs s rfl

end Triple

/-- The program leaves a state in `I` whenever it starts in one, however it ends. -/
def Keeps (I : σ → Prop) (m : Code σ α) : Prop := ∀ s, I s → I (m s).2

theorem keeps_iff {I : σ → Prop} {m : Code σ α} :
    Keeps I m ↔ Triple I m (fun _ => I) (fun _ => I) := by
  refine forall_congr' fun s => forall_congr' fun _ => ?_
  rcases m s with ⟨_ | _, s'⟩ <;> exact Iff.rfl

namespace Keeps

variable {I : σ → Prop} {m m' : Code σ α} {f : α → Code σ β}

theorem bind (hm : Keeps I m) (hf : ∀ a, Keeps I (f a)) : Keeps I (m >>= f) := by
  rw [keeps_iff] at *
  exact hm.bind fun a => keeps_iff.mp (hf a)

theorem pure (a : α) : Keeps I (Pure.pure a : Code σ α) := fun _ h => h

theorem update {g : σ → α × σ} (h : ∀ s, I s → I (g s).2) : Keeps I (Code.update g) := h

theorem read (g : σ → α) : Keeps I (Code.read g) := fun _ h => h

theorem modify {g : σ → σ} (h : ∀ s, I s → I (g s)) : Keeps I (Code.modify g) := h

theorem halt (e : Halt) : Keeps I (Code.halt e : Code σ α) := fun _ h => h

theorem ite {c : Prop} [Decidable c] (ht : c → Keeps I m) (hf : ¬c → Keeps I m') :
    Keeps I (if c then m else m') := by
  split
  · exact ht ‹c›
  · exact hf ‹¬c›

theorem whenever {c : Bool} {m : Code σ Unit} (hm : Keeps I m) : Keeps I (Code.whenever c m) := by
  cases c with
  | true => exact hm
  | false => exact .pure ()

theorem atExit {g : σ → σ} (hm : Keeps (fun s => I (g s)) m) (hg : ∀ s, I s → I (g s)) :
    Keeps I (m.atExit g) := fun s hs => hm s (hg s hs)

end Keeps

/-- A component of a state, as a pair of accessors that obey the laws of one. -/
structure Part (σ τ : Type) where
  get : σ → τ
  set : τ → σ → σ
  get_set : ∀ t s, get (set t s) = t
  set_get : ∀ s, set (get s) s = s

namespace Part

variable {τ : Type}

def whole (σ : Type) : Part σ σ := ⟨id, fun t _ => t, fun _ _ => rfl, fun _ => rfl⟩

/-- Run a function of the component on the whole state. -/
def run (p : Part σ τ) (f : τ → α × τ) : Code σ α :=
  Code.update fun s => ((f (p.get s)).1, p.set (f (p.get s)).2 s)

@[simp] theorem run_run (p : Part σ τ) (f : τ → α × τ) (s : σ) :
    p.run f s = (.ok (f (p.get s)).1, p.set (f (p.get s)).2 s) := rfl

theorem run_keeps {I : σ → Prop} (p : Part σ τ) {f : τ → α × τ}
    (h : ∀ s, I s → I (p.set (f (p.get s)).2 s)) : Keeps I (p.run f) := h

@[simp] theorem whole_get (s : σ) : (whole σ).get s = s := rfl

@[simp] theorem whole_set (t s : σ) : (whole σ).set t s = t := rfl

end Part

end Program
