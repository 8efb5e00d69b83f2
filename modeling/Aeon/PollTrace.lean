import Aeon.EventSteps
import Aeon.Library.History
import Mathlib.Data.List.Induction

/-!
# The history of an event set

What `poll` may do to the tokens of its snapshot, how it tells the handlers of an
event, and what handlers can change while it is in progress.
-/

namespace Aeon

open Program Reentrant History

namespace PollEvent

/-- The token whose object `poll` works on, or calls a handler about. -/
def touches : PollEvent → Option ℕ
  | .looked t | .did t _ _ _ | .received t | .event t _ | .entered t _ _ => some t
  | _ => none

def snapshot : PollEvent → Option (List ℕ)
  | .began ts => some ts
  | _ => none

def replacement : PollEvent → Option ℕ
  | .replaced t => some t
  | _ => none

/-- What a handler can add while `poll` is in progress. -/
def registry : PollEvent → Bool
  | .registered .. | .deactivated _ => true
  | _ => false

end PollEvent

/-- `poll` works on the tokens of its latest snapshot while they are active.
Tokens are new when they are registered, those of a snapshot point to different
objects, and no object that is used is gone. -/
structure Proper (pre : List PollEvent) (e : PollEvent) : Prop where
  active : ∀ t, e.touches = some t → .deactivated t ∉ pre
  snapshot : ∀ t, e.touches = some t → ∃ ts, latest PollEvent.snapshot pre = some ts ∧ t ∈ ts
  fresh : ∀ t i, e = .registered t i → ∀ ts, .began ts ∈ pre → t ∉ ts
  different : ∀ ts, e = .began ts → ∀ t ∈ ts, ∀ t' ∈ ts, ∀ i, .registered t i ∈ pre →
    .registered t' i ∈ pre → t = t'
  defined : ∀ t, e ≠ .dangling t

/-- An action is applied to the connection that was watched. -/
def Direct (_ : List PollEvent) (e : PollEvent) : Prop :=
  ∀ t a watched current, e = .did t a watched current → watched = current

/-- No handler has put a new connection in place of one that `poll` goes on to use. -/
def Unreplaced (log : List PollEvent) : Prop := ∀ t, .replaced t ∉ log

theorem unreplaced_iff {log : List PollEvent} :
    Unreplaced log ↔ ∀ e ∈ log, e.replacement = none := by
  refine ⟨fun h e he => ?_, fun h t ht => nomatch h _ ht⟩
  cases e with
  | replaced t => exact absurd he (h t)
  | _ => rfl

instance (log : List PollEvent) : Decidable (Unreplaced log) := decidable_of_iff _ unreplaced_iff.symm

/-- Where `poll` stands in telling the handlers of an event: the handler of the
object is due, is running, or has returned and the one of the set is owed.
`other` is any other handler call. -/
inductive Phase
  | idle
  | due (token : ℕ) (n : Notice)
  | socket (token : ℕ) (n : Notice)
  | owed (token : ℕ) (n : Notice)
  | other
  deriving DecidableEq

/-- The handler calls that tell no event: a connect, what a listener can accept,
and the close after a terminal error. -/
def CallbackLevel.free : CallbackLevel → Notice → Bool
  | _, .connect | .set, .listen | .socket, .close => true
  | _, _ => false

/-- The handler of the object is called first and once, and the one of the set
once after it has returned, exactly if the token is still active then.  `off` are
the tokens that have been deactivated. -/
def Phase.next (off : List ℕ) (φ : Phase) : PollEvent → Option Phase
  | .event t n => if φ = .idle then some (.due t n) else none
  | .entered t .socket n =>
    if φ = .due t n then some (.socket t n)
    else if φ = .idle ∧ CallbackLevel.socket.free n then some .other
    else none
  | .entered t .set n =>
    if φ = .owed t n ∨ φ = .idle ∧ CallbackLevel.set.free n then some .other else none
  | .left t .socket n =>
    if φ = .socket t n then some (if t ∈ off then .idle else .owed t n)
    else if φ = .other then some .idle
    else none
  | .left _ .set _ => if φ = .other then some .idle else none
  | .finished => match φ with
    | .due .. | .owed .. => none
    | _ => some .idle
  | _ => some φ

def PollEvent.removes : PollEvent → Option ℕ
  | .deactivated t => some t
  | _ => none

structure Tracker where
  phase : Phase := .idle
  off : List ℕ := []

def Tracker.step (k : Tracker) (e : PollEvent) : Option Tracker :=
  (k.phase.next k.off e).map fun φ => ⟨φ, e.removes.toList ++ k.off⟩

def track (log : List PollEvent) : Option Tracker := follow Tracker.step {} log

/-- Every event of the history was told as `Tracker.step` says. -/
def Told (log : List PollEvent) : Prop := ∃ k, track log = some k

section Track

variable {log es : List PollEvent} {k : Tracker} {t : ℕ}

theorem track_snoc {e : PollEvent} (h : track log = some k) :
    track (log ++ [e]) = k.step e := follow_snoc h

theorem track_off (h : track log = some k) : t ∈ k.off ↔ .deactivated t ∈ log := by
  induction log using List.reverseRecOn generalizing k with
  | nil =>
    obtain rfl := Option.some.inj h
    simp
  | append_singleton log e ih =>
    cases hk : track log with
    | none =>
      rw [track, follow_append, show follow Tracker.step {} log = none from hk] at h
      cases h
    | some k₀ =>
      rw [track_snoc hk, Tracker.step, Option.map_eq_some_iff] at h
      obtain ⟨φ, -, rfl⟩ := h
      rw [List.mem_append, List.mem_append, List.mem_singleton, ih hk, or_comm]
      refine or_congr_right ?_
      cases e <;> simp [PollEvent.removes, eq_comm]

/-- The next phase, where no token is deactivated. -/
theorem track_next {e : PollEvent} {φ φ' : Phase} (h : ∃ off, track log = some ⟨φ, off⟩)
    (hφ : ∀ off, (∀ t, t ∈ off ↔ .deactivated t ∈ log) → φ.next off e = some φ') :
    ∃ off, track (log ++ [e]) = some ⟨φ', off⟩ := by
  obtain ⟨off, hoff⟩ := h
  have hnext := hφ off fun t => track_off hoff
  exact ⟨_, by rw [track_snoc hoff, Tracker.step, hnext]; rfl⟩

/-- Registrations do not change the phase. -/
theorem track_registry {φ : Phase} (h : ∃ off, track log = some ⟨φ, off⟩)
    (hes : ∀ e ∈ es, e.registry = true) : ∃ off, track (log ++ es) = some ⟨φ, off⟩ := by
  induction es using List.reverseRecOn with
  | nil => simpa using h
  | append_singleton es e ih =>
    have hrest := ih fun e' he' => hes e' (List.mem_append_left _ he')
    rw [← List.append_assoc]
    refine track_next hrest fun off _ => ?_
    have he := hes e (by simp)
    cases e with
    | registered | deactivated => rfl
    | _ => cases he

end Track

end Aeon
