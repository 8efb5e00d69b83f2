import Aeon.Descriptors
import Aeon.SessionModel

/-!
# The base class only opens and closes descriptors

The functions of the base object that connect, listen and accept add nothing
but native events to the history, so whatever such functions and the virtual
`close` of an object preserve, its TCP functions preserve.
-/

namespace Aeon

open Program

namespace Socket

variable {α β : Type}

/-- A function of the base object that adds only native events to the history. -/
def Silent (f : Socket → α × Socket) : Prop :=
  ∀ s, ∃ es : List Event, (∀ e ∈ es, e.native = true) ∧ (f s).2.log = s.log ++ es

theorem Silent.of_log {f : Socket → α × Socket} (h : ∀ s, (f s).2.log = s.log) : Silent f :=
  fun s => ⟨[], by simp, by simp [h s]⟩

theorem Unopened.silent {f : Socket → α × Socket} (hf : Unopened f) : Silent f :=
  .of_log fun s => (hf s).1

theorem Silent.one {f : Socket → α × Socket}
    (h : ∀ s, (f s).2.log = s.log ∨ ∃ e : Event, e.native = true ∧ (f s).2.log = s.log ++ [e]) :
    Silent f := by
  intro s
  rcases h s with hs | ⟨e, he, hs⟩
  · exact ⟨[], by simp, by simp [hs]⟩
  · exact ⟨[e], by simpa using he, hs⟩

variable (h : Host)

theorem silent_close : Silent (close h) := by
  refine .one fun s => ?_
  unfold close
  cases s.sockfd with
  | none => exact Or.inl rfl
  | some fd =>
    refine Or.inr ⟨.closed fd, rfl, ?_⟩
    dsimp only
    split <;> rfl

theorem silent_create (family : Family) : Silent (create h family) := by
  intro s
  refine ⟨_, fun e he => ?_, (create_log h family s).2⟩
  rcases List.mem_append.mp he with he | he
  · obtain ⟨fd, -, rfl⟩ := List.mem_map.mp he
    rfl
  · obtain ⟨fd, -, rfl⟩ := List.mem_map.mp he
    rfl

end Socket

end Aeon
