import Aeon.Library.Program

/-!
# Programs as sequences of moves

`step s m s'` says that move `m` can lead from state `s` to `s'`.  A program that
only makes such moves is specified by the moves it makes, and the rules below
follow the program text.  What the moves of one part allow the next part to do is
a condition on the states between them.
-/

namespace Program

variable {σ α β μ : Type} {step : σ → μ → σ → Prop}

/-- The moves lead from the first state to the last, one after the other. -/
inductive Path (step : σ → μ → σ → Prop) : σ → List μ → σ → Prop
  | nil (s : σ) : Path step s [] s
  | cons {s t u : σ} {m : μ} {ms : List μ} (first : step s m t) (rest : Path step t ms u) :
      Path step s (m :: ms) u

namespace Path

variable {s t u : σ} {m : μ} {ms ms' : List μ}

theorem one (h : step s m t) : Path step s [m] t := .cons h (.nil t)

theorem append (h : Path step s ms t) (h' : Path step t ms' u) : Path step s (ms ++ ms') u := by
  induction h with
  | nil => exact h'
  | cons first _ ih => exact .cons first (ih h')

/-- A reflexive and transitive relation that holds along every move of a path
holds between its ends. -/
theorem within {R : σ → σ → Prop} (hrefl : ∀ s, R s s) (htrans : ∀ a b c, R a b → R b c → R a c)
    (h : Path step s ms t) (hstep : ∀ m ∈ ms, ∀ a b, step a m b → R a b) : R s t := by
  induction h with
  | nil => exact hrefl _
  | cons first rest ih =>
    refine htrans _ _ _ (hstep _ List.mem_cons_self _ _ first) (ih fun m hm => ?_)
    exact hstep m (List.mem_cons_of_mem _ hm)

/-- What every move of its kind satisfies, the moves of a path satisfy. -/
theorem each {P : μ → Prop} (h : Path step s ms t) (hstep : ∀ m a b, step a m b → P m) :
    ∀ m ∈ ms, P m := by
  induction h with
  | nil => exact fun m hm => nomatch hm
  | cons first rest ih =>
    intro m hm
    rcases List.mem_cons.mp hm with rfl | hrest
    · exact hstep _ _ _ first
    · exact ih m hrest

end Path

/-- From a state in `P` the program goes by moves, those of a return as `Q` says
and those of a halt as `E` says. -/
def Makes (step : σ → μ → σ → Prop) (P : σ → Prop) (m : Code σ α) (Q : α → List μ → σ → Prop)
    (E : List μ → σ → Prop) : Prop :=
  ∀ s, P s → ∃ ms, Path step s ms (m s).2 ∧
    ((∀ a, (m s).1 = .ok a → Q a ms (m s).2) ∧ ∀ e, (m s).1 = .error e → E ms (m s).2)

namespace Makes

variable {P P' : σ → Prop} {Q Q' : α → List μ → σ → Prop} {R : β → List μ → σ → Prop}
variable {E E' : List μ → σ → Prop} {m : Code σ α} {f : α → Code σ β}

theorem mono (h : Makes step P m Q E) (hp : ∀ s, P' s → P s) (hq : ∀ a ms s, Q a ms s → Q' a ms s)
    (he : ∀ ms s, E ms s → E' ms s) : Makes step P' m Q' E' := by
  intro s hs
  obtain ⟨ms, hpath, hret, hhalt⟩ := h s (hp s hs)
  exact ⟨ms, hpath, fun a ha => hq _ _ _ (hret a ha), fun e hfail => he _ _ (hhalt e hfail)⟩

theorem pre (h : Makes step P m Q E) (hp : ∀ s, P' s → P s) : Makes step P' m Q E :=
  h.mono hp (fun _ _ _ hq => hq) fun _ _ he => he

theorem post (h : Makes step P m Q E) (hq : ∀ a ms s, Q a ms s → Q' a ms s) :
    Makes step P m Q' E :=
  h.mono (fun _ hp => hp) hq fun _ _ he => he

/-- A fact about the state before may be carried to a proof of the rule. -/
theorem assume (h : ∀ s, P s → Makes step (fun t => t = s) m Q E) : Makes step P m Q E :=
  fun s hs => h s hs s rfl

/-- The moves of the first part come before those of the second. -/
theorem bind (hm : Makes step P m Q E)
    (hf : ∀ a ms, Makes step (Q a ms) (f a) (fun b ms' => R b (ms ++ ms'))
      fun ms' => E (ms ++ ms')) : Makes step P (m >>= f) R E := by
  intro s hs
  obtain ⟨ms, hpath, hret, hhalt⟩ := hm s hs
  rw [Code.bind_run]
  revert hpath hret hhalt
  rcases m s with ⟨e | a, t⟩
  · exact fun hpath _ hhalt => ⟨ms, hpath, nofun, fun _ _ => hhalt e rfl⟩
  · intro hpath hret _
    obtain ⟨ms', hpath', hret', hhalt'⟩ := hf a ms t (hret a rfl)
    exact ⟨ms ++ ms', hpath.append hpath', hret', hhalt'⟩

theorem ret {a : α} (h : ∀ s, P s → Q a [] s) : Makes step P (Pure.pure a : Code σ α) Q E := by
  refine fun s hs => ⟨[], .nil s, fun b hb => ?_, nofun⟩
  obtain rfl := Except.ok.inj hb
  exact h s hs

theorem ite {c : Prop} [Decidable c] {m' : Code σ α} (ht : c → Makes step P m Q E)
    (hf : ¬c → Makes step P m' Q E) : Makes step P (if c then m else m') Q E := by
  split
  · exact ht ‹c›
  · exact hf ‹¬c›

theorem whenever {c : Bool} {m : Code σ Unit} {Q : Unit → List μ → σ → Prop}
    (ht : c = true → Makes step P m Q E) (hf : c = false → ∀ s, P s → Q () [] s) :
    Makes step P (Code.whenever c m) Q E := by
  cases c with
  | true => exact ht rfl
  | false => exact ret (hf rfl)

theorem read {g : σ → α} (h : ∀ s, P s → Q (g s) [] s) : Makes step P (Code.read g) Q E := by
  refine fun s hs => ⟨[], .nil s, fun b hb => ?_, nofun⟩
  obtain rfl := Except.ok.inj hb
  exact h s hs

theorem halt {e : Halt} (h : ∀ s, P s → E [] s) : Makes step P (Code.halt e : Code σ α) Q E :=
  fun s hs => ⟨[], .nil s, nofun, fun _ _ => h s hs⟩

/-- A program that is one move, however it ends. -/
theorem one {k : σ → μ} (h : ∀ s, P s → step s (k s) (m s).2)
    (hq : ∀ s, P s → ∀ a, (m s).1 = .ok a → Q a [k s] (m s).2)
    (he : ∀ s, P s → ∀ e, (m s).1 = .error e → E [k s] (m s).2) : Makes step P m Q E :=
  fun s hs => ⟨[k s], .one (h s hs), hq s hs, he s hs⟩

theorem atExit {g : σ → σ} {k : μ} (h : Makes step P m (fun a ms s => Q a (ms ++ [k]) (g s))
    fun ms s => E (ms ++ [k]) (g s)) (hg : ∀ s, step s k (g s)) : Makes step P (m.atExit g) Q E := by
  intro s hs
  obtain ⟨ms, hpath, hret, hhalt⟩ := h s hs
  exact ⟨ms ++ [k], hpath.append (.one (hg _)), hret, hhalt⟩

end Makes

end Program
