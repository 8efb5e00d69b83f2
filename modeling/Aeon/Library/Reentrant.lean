import Aeon.Library.Program
import Mathlib.Logic.Relation

/-!
# Systems whose operations call back

The operations of a system take the handlers that they call back as a
parameter.  A handler is realizable when whatever it does to a state is a
sequence of operations of the same system, themselves run with realizable
handlers.  This covers any nesting of operations inside handlers.
-/

namespace Reentrant

open Program

variable {σ ν ω : Type}

/-- `exec cb o` runs operation `o`; it calls the handler of note `n` as `cb n`. -/
structure System (σ ν ω : Type) where
  exec : (ν → Code σ Unit) → ω → Code σ Unit

/-- What code that uses only the operations in `ok`, and halts only as `hs`
allows, can make of a state.  Both may depend on the state. -/
inductive Steps (S : System σ ν ω) (ok : σ → ω → Prop) (hs : σ → Halt → Prop) : σ → σ → Prop
  | refl (s : σ) : Steps S ok hs s s
  | tail {s s' : σ} (o : ω) (cb : ν → Code σ Unit) (prior : Steps S ok hs s s')
      (allowed : ok s' o) (real : ∀ n t, Steps S ok hs t (cb n t).2)
      (ends : ∀ n t e, (cb n t).1 = .error e → hs t e) :
      Steps S ok hs s (S.exec cb o s').2

/-- Handlers made of allowed operations that halt only as allowed. -/
structure Realizable (S : System σ ν ω) (ok : σ → ω → Prop) (hs : σ → Halt → Prop)
    (cb : ν → Code σ Unit) : Prop where
  steps : ∀ n t, Steps S ok hs t (cb n t).2
  ends : ∀ n t e, (cb n t).1 = .error e → hs t e

namespace Steps

variable {S : System σ ν ω} {ok : σ → ω → Prop} {hs : σ → Halt → Prop} {s s' s'' : σ}

theorem trans (h : Steps S ok hs s s') (h' : Steps S ok hs s' s'') : Steps S ok hs s s'' := by
  induction h' with
  | refl => exact h
  | tail o cb _ allowed real ends ih => exact .tail o cb (ih h) allowed real ends

theorem single {cb : ν → Code σ Unit} (o : ω) (allowed : ok s o) (hcb : Realizable S ok hs cb) :
    Steps S ok hs s (S.exec cb o s).2 :=
  .tail o cb (.refl s) allowed hcb.steps hcb.ends

/-- A relation between the states before and after that every operation
establishes, when its handlers do, holds of any code of the system. -/
theorem within {R : σ → σ → Prop} (hrefl : ∀ s, R s s) (htrans : ∀ a b c, R a b → R b c → R a c)
    (step : ∀ o cb, (∀ n t e, (cb n t).1 = .error e → hs t e) →
      (∀ n t, R t (cb n t).2) → ∀ t, ok t o → R t (S.exec cb o t).2)
    (h : Steps S ok hs s s') : R s s' := by
  induction h with
  | refl => exact hrefl _
  | tail o cb _ allowed _ ends ih ihcb =>
    exact htrans _ _ _ ih (step o cb ends ihcb _ allowed)

/-- The same for an invariant. -/
theorem keeps {I : σ → Prop}
    (step : ∀ o cb, (∀ n t e, (cb n t).1 = .error e → hs t e) →
      (∀ n, Keeps I (cb n)) → ∀ t, ok t o → I t → I (S.exec cb o t).2)
    (h : Steps S ok hs s s') : I s → I s' :=
  h.within (R := fun a b => I a → I b) (fun _ => id) (fun _ _ _ hab hbc ha => hbc (hab ha))
    fun o cb ends hcb t => step o cb ends (fun n u hu => hcb n u hu) t

end Steps

theorem Realizable.keeps {S : System σ ν ω} {ok : σ → ω → Prop} {hs : σ → Halt → Prop}
    {cb : ν → Code σ Unit} {I : σ → Prop} (hcb : Realizable S ok hs cb)
    (step : ∀ o cb, (∀ n t e, (cb n t).1 = .error e → hs t e) →
      (∀ n, Keeps I (cb n)) → ∀ t, ok t o → I t → I (S.exec cb o t).2) (n : ν) :
    Keeps I (cb n) :=
  fun t => (hcb.steps n t).keeps step

/-- Handlers that do nothing are realizable. -/
theorem Realizable.idle (S : System σ ν ω) (ok : σ → ω → Prop) (hs : σ → Halt → Prop) :
    Realizable S ok hs (fun _ => pure ()) where
  steps _ t := .refl t
  ends _ _ _ h := by cases h

/-- Operations one after the other, whose own handlers do nothing. -/
def script (S : System σ ν ω) : List ω → Code σ Unit
  | [] => pure ()
  | o :: os => do
    S.exec (fun _ => pure ()) o
    script S os

theorem Steps.script {S : System σ ν ω} {ok : σ → ω → Prop} {hs : σ → Halt → Prop} {s s' : σ}
    (h : Steps S ok hs s s') (os : List ω) (allowed : ∀ o ∈ os, ∀ t, ok t o) :
    Steps S ok hs s (Reentrant.script S os s').2 := by
  induction os generalizing s' with
  | nil => exact h
  | cons o os ih =>
    have hfirst := h.trans (.single o (allowed o List.mem_cons_self s') (.idle S ok hs))
    have hrest := ih hfirst fun o' ho' => allowed o' (List.mem_cons_of_mem _ ho')
    simp only [Reentrant.script, Code.bind_run]
    revert hfirst hrest
    rcases S.exec (fun _ => pure ()) o s' with ⟨_ | _, t⟩
    · exact fun hfirst _ => hfirst
    · exact fun _ hrest => hrest

/-- Scripts of operations that are allowed everywhere and never halt. -/
theorem Realizable.script {S : System σ ν ω} {ok : σ → ω → Prop} {hs : σ → Halt → Prop}
    {scripts : ν → List ω} (allowed : ∀ n, ∀ o ∈ scripts n, ∀ t, ok t o)
    (ends : ∀ n, ∀ o ∈ scripts n, ∀ t e, (S.exec (fun _ => pure ()) o t).1 ≠ .error e) :
    Realizable S ok hs fun n => script S (scripts n) := by
  have hscript (os : List ω) (hends : ∀ o ∈ os, ∀ t e, (S.exec (fun _ => pure ()) o t).1 ≠ .error e)
      (t : σ) (e : Halt) : (Reentrant.script S os t).1 ≠ .error e := by
    induction os generalizing t with
    | nil => exact nofun
    | cons o os ih =>
      have hrest := ih fun o' h' => hends o' (List.mem_cons_of_mem _ h')
      have hhalt := hends o List.mem_cons_self t
      simp only [Reentrant.script, Code.bind_run]
      revert hhalt
      rcases S.exec (fun _ => pure ()) o t with ⟨e' | _, t'⟩
      · exact fun hhalt => absurd rfl (hhalt e')
      · exact fun _ => hrest t'
  exact ⟨fun n t => Steps.script (.refl t) _ (allowed n),
    fun n t e he => absurd he (hscript _ (ends n) t e)⟩

/-- A run of the program itself: operations in `ok`, whose handlers are made of
the operations in `okIn`. -/
inductive Run (S : System σ ν ω) (ok okIn : σ → ω → Prop) (hs : σ → Halt → Prop) (s : σ) : σ → Prop
  | start : Run S ok okIn hs s s
  | next {s' : σ} (o : ω) (cb : ν → Code σ Unit) (prior : Run S ok okIn hs s s')
      (allowed : ok s' o) (real : Realizable S okIn hs cb) :
      Run S ok okIn hs s (S.exec cb o s').2

/-- A script of allowed operations continues a run. -/
theorem Run.script {S : System σ ν ω} {ok okIn : σ → ω → Prop} {hs : σ → Halt → Prop} {s s' : σ}
    (h : Run S ok okIn hs s s') (os : List ω) (allowed : ∀ o ∈ os, ∀ t, ok t o) :
    Run S ok okIn hs s (Reentrant.script S os s').2 := by
  induction os generalizing s' with
  | nil => exact h
  | cons o os ih =>
    have hfirst := h.next o (fun _ => pure ()) (allowed o List.mem_cons_self s') (.idle S okIn hs)
    have hrest := ih hfirst fun o' ho' => allowed o' (List.mem_cons_of_mem _ ho')
    simp only [Reentrant.script, Code.bind_run]
    revert hfirst hrest
    rcases S.exec (fun _ => pure ()) o s' with ⟨_ | _, t⟩
    · exact fun hfirst _ => hfirst
    · exact fun _ hrest => hrest

theorem Run.keeps {S : System σ ν ω} {ok okIn : σ → ω → Prop} {hs : σ → Halt → Prop} {s s' : σ}
    {I : σ → Prop}
    (step : ∀ o cb, Realizable S okIn hs cb → ∀ t, ok t o → I t → I (S.exec cb o t).2)
    (h : Run S ok okIn hs s s') (hi : I s) : I s' := by
  induction h with
  | start => exact hi
  | next o cb _ allowed real ih => exact step o cb real _ allowed ih

end Reentrant
