import Mathlib.Data.List.Basic

/-!
# Properties of histories

A history is a list of events, the latest last.  `Always P` says that `P` holds
at every event, given the events before it.  It is proved by following the
history as it grows.
-/

namespace History

variable {α β : Type}

/-- At every event, `P` holds of the events before it and of the event. -/
def Always (P : List α → α → Prop) (log : List α) : Prop :=
  ∀ pre e post, log = pre ++ e :: post → P pre e

namespace Always

variable {P Q : List α → α → Prop} {log es : List α} {x : α}

theorem nil : Always P [] := fun pre e post h => by simp at h

theorem snoc_iff : Always P (log ++ [x]) ↔ Always P log ∧ P log x := by
  refine ⟨fun h => ⟨fun pre e post he => ?_, h log x [] rfl⟩, fun h pre e post he => ?_⟩
  · exact h pre e (post ++ [x]) (by rw [he]; simp)
  · rcases List.eq_nil_or_concat post with rfl | ⟨post, y, rfl⟩
    · obtain ⟨rfl, hx⟩ := List.append_inj' he rfl
      obtain rfl : x = e := by simpa using hx
      exact h.2
    · rw [List.concat_eq_append, ← List.cons_append, ← List.append_assoc] at he
      exact h.1 pre e post (List.append_inj' he rfl).1

theorem snoc (h : Always P log) (hx : P log x) : Always P (log ++ [x]) := snoc_iff.mpr ⟨h, hx⟩

/-- Events at which `P` holds whatever came before may be added. -/
theorem append (h : Always P log) (hes : ∀ e ∈ es, ∀ pre, P pre e) : Always P (log ++ es) := by
  induction es generalizing log with
  | nil => simpa using h
  | cons e es ih =>
    have hfirst : Always P (log ++ [e]) := h.snoc (hes e List.mem_cons_self log)
    rw [show log ++ e :: es = (log ++ [e]) ++ es by simp]
    exact ih hfirst fun e' he' => hes e' (List.mem_cons_of_mem _ he')

theorem mono (h : Always P log) (hpq : ∀ pre e, P pre e → Q pre e) : Always Q log :=
  fun pre e post he => hpq pre e (h pre e post he)

/-- What holds throughout a history holds throughout its beginning. -/
theorem of_append (h : Always P (log ++ es)) : Always P log :=
  fun pre e post he => h pre e (post ++ es) (by rw [he]; simp)

end Always

/-- The history has grown by events that satisfy `p`. -/
def Extends (p : α → Prop) (log log' : List α) : Prop := ∃ es, log' = log ++ es ∧ ∀ e ∈ es, p e

namespace Extends

variable {p q : α → Prop} {log log' log'' : List α} {x : α}

theorem of_eq (h : log' = log) : Extends p log log' := ⟨[], by simp [h], by simp⟩

theorem refl (log : List α) : Extends p log log := of_eq rfl

theorem trans (h : Extends p log log') (h' : Extends p log' log'') : Extends p log log'' := by
  obtain ⟨es, rfl, hes⟩ := h
  obtain ⟨es', rfl, hes'⟩ := h'
  refine ⟨es ++ es', List.append_assoc _ _ _, fun e he => ?_⟩
  exact (List.mem_append.mp he).elim (hes e) (hes' e)

theorem one (h : log' = log ++ [x]) (hx : p x) : Extends p log log' :=
  ⟨[x], h, fun _ he => List.mem_singleton.mp he ▸ hx⟩

theorem mono (h : Extends p log log') (hpq : ∀ e, p e → q e) : Extends q log log' := by
  obtain ⟨es, rfl, hes⟩ := h
  exact ⟨es, rfl, fun e he => hpq e (hes e he)⟩

theorem mem (h : Extends p log log') (hx : x ∈ log) : x ∈ log' := by
  obtain ⟨es, rfl, -⟩ := h
  exact List.mem_append_left es hx

end Extends

/-- The latest event that `f` reads, as `f` reads it. -/
def latest (f : α → Option β) (log : List α) : Option β := (log.filterMap f).getLast?

@[simp] theorem latest_nil (f : α → Option β) : latest f [] = none := rfl

theorem latest_snoc (f : α → Option β) (log : List α) (x : α) :
    latest f (log ++ [x]) = (f x).or (latest f log) := by
  unfold latest
  rw [List.filterMap_append]
  cases hx : f x with
  | none => simp [hx]
  | some b => simp [hx]

theorem latest_trans (f : α → Option β) (log es : List α) :
    latest f (log ++ es) = (latest f es).or (latest f log) := by
  unfold latest
  rw [List.filterMap_append, List.getLast?_append]

theorem latest_append {f : α → Option β} {log es : List α} (h : ∀ e ∈ es, f e = none) :
    latest f (log ++ es) = latest f log := by
  unfold latest
  rw [List.filterMap_append, List.filterMap_eq_nil_iff.mpr h, List.append_nil]

/-- What is read of an event may be read of what `f` reads. -/
theorem latest_map {γ : Type} (f : α → Option β) (g : β → γ) (log : List α) :
    latest (fun e => (f e).map g) log = (latest f log).map g := by
  unfold latest
  rw [← List.map_filterMap, List.getLast?_map]

/-- The state in which an automaton that starts at `k` reads the history, unless
it rejects it. -/
def follow {κ : Type} (step : κ → α → Option κ) (k : κ) (log : List α) : Option κ :=
  log.foldlM step k

section Follow

variable {κ : Type} {step : κ → α → Option κ} {k k' : κ} {log : List α} {x : α}

@[simp] theorem follow_nil : follow step k [] = some k := rfl

theorem follow_append (es : List α) :
    follow step k (log ++ es) = (follow step k log).bind fun k' => follow step k' es := by
  simp only [follow, List.foldlM_append]
  rfl

theorem follow_snoc (h : follow step k log = some k') :
    follow step k (log ++ [x]) = step k' x := by
  rw [follow_append, h]
  simp [follow]

end Follow

end History
