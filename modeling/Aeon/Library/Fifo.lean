import Mathlib.Data.List.Basic
import Mathlib.Data.List.Flatten
import Mathlib.Logic.Relation
import Mathlib.Tactic.Common

/-!
# First-in first-out streams and their chunked representation

`Fifo.Step` is the meaning of a bounded outgoing stream: what is waiting is a
list, an accepted item goes to its end, a reader takes a prefix, and a fault
empties it.  `content` reads such a list off a list of chunks together with an
offset into the first one, the usual representation of a write buffer.
-/

namespace Fifo

variable {α : Type*}

/-- What an observer of a stream sees of one operation. -/
inductive Obs (α : Type*)
  | accepted (items : List α)
  | refused
  | taken (items : List α)
  | failed (items : List α)
  | discarded

/-- One operation on the list of items still waiting. -/
inductive Step (p : List α) : Obs α → List α → Prop
  | accept (d : List α) : Step p (.accepted d) (p ++ d)
  | refuse : Step p .refused p
  | take (k : ℕ) : Step p (.taken (p.take k)) (p.drop k)
  | fail (k : ℕ) : Step p (.failed (p.take k)) []
  | discard : Step p .discarded []

/-- Operations one after the other, with their observations in order. -/
inductive Run : List α → List (Obs α) → List α → Prop
  | nil (p : List α) : Run p [] p
  | cons {p q r : List α} {o : Obs α} {os : List (Obs α)} :
      Step p o q → Run q os r → Run p (o :: os) r

def Obs.acceptedItems : Obs α → List α
  | .accepted d => d
  | _ => []

def Obs.takenItems : Obs α → List α
  | .taken d => d
  | .failed d => d
  | _ => []

/-- The observation neither lost nor threw away waiting items. -/
def Obs.Lossless : Obs α → Prop
  | .failed _ => False
  | .discarded => False
  | _ => True

/-- Items leave in the order they came, each once, and the rest is waiting. -/
theorem Run.conserves {p q : List α} {os : List (Obs α)} (h : Run p os q)
    (hl : ∀ o ∈ os, o.Lossless) :
    p ++ os.flatMap Obs.acceptedItems = os.flatMap Obs.takenItems ++ q := by
  induction h with
  | nil p => simp
  | @cons p q r o os hstep _ ih =>
    have ho : o.Lossless := hl o (by simp)
    have hih := ih fun o' ho' => hl o' (by simp [ho'])
    rw [List.flatMap_cons, List.flatMap_cons, List.append_assoc, ← hih]
    cases hstep with
    | accept d => simp [Obs.acceptedItems, Obs.takenItems]
    | refuse => simp [Obs.acceptedItems, Obs.takenItems]
    | take k => simp [Obs.acceptedItems, Obs.takenItems, ← List.append_assoc]
    | fail k => exact ho.elim
    | discard => exact ho.elim

/-- The items a reader at offset `off` of the first chunk has still to see. -/
def content (chunks : List (List α)) (off : ℕ) : List α := chunks.flatten.drop off

/-- No chunk is empty and the offset lies inside the first one. -/
structure Tight (chunks : List (List α)) (off : ℕ) : Prop where
  nonempty : ∀ c ∈ chunks, c ≠ []
  inFront : ∀ c cs, chunks = c :: cs → off < c.length
  atStart : chunks = [] → off = 0

@[simp] theorem content_nil (off : ℕ) : content ([] : List (List α)) off = [] := by
  simp [content]

theorem content_cons {c : List α} {cs : List (List α)} {off : ℕ} (h : off ≤ c.length) :
    content (c :: cs) off = c.drop off ++ cs.flatten := by
  simp [content, List.drop_append_of_le_length h]

theorem Tight.nil : Tight ([] : List (List α)) 0 :=
  ⟨by simp, by simp, fun _ => rfl⟩

theorem Tight.off_le {chunks : List (List α)} {off : ℕ} (h : Tight chunks off) :
    off ≤ chunks.flatten.length := by
  cases chunks with
  | nil => simp [h.atStart rfl]
  | cons c cs =>
    have hc := h.inFront c cs rfl
    simp only [List.flatten_cons, List.length_append]
    omega

theorem Tight.content_length {chunks : List (List α)} {off : ℕ} (h : Tight chunks off) :
    (content chunks off).length + off = chunks.flatten.length := by
  have := h.off_le
  simp only [content, List.length_drop]
  omega

/-- A tight representation of nothing has no chunk left. -/
theorem Tight.eq_nil {chunks : List (List α)} {off : ℕ} (h : Tight chunks off)
    (hc : content chunks off = []) : chunks = [] := by
  cases chunks with
  | nil => rfl
  | cons c cs =>
    have hoff := h.inFront c cs rfl
    rw [content_cons (Nat.le_of_lt hoff)] at hc
    have hd : c.drop off = [] := (List.append_eq_nil_iff.mp hc).1
    have hlen := List.length_eq_zero_iff.mpr hd
    rw [List.length_drop] at hlen
    omega

section Append

variable {chunks init : List (List α)} {last d : List α} {off : ℕ}

theorem content_snoc (h : off ≤ chunks.flatten.length) :
    content (chunks ++ [d]) off = content chunks off ++ d := by
  simp [content, List.drop_append_of_le_length h]

theorem content_grow (h : off ≤ (init ++ [last]).flatten.length) :
    content (init ++ [last ++ d]) off = content (init ++ [last]) off ++ d := by
  have hflat : (init ++ [last ++ d]).flatten = (init ++ [last]).flatten ++ d := by simp
  rw [content, hflat, List.drop_append_of_le_length h, content]

theorem Tight.snoc (h : Tight chunks off) (hd : d ≠ []) : Tight (chunks ++ [d]) off where
  nonempty c hc := by
    rcases List.mem_append.mp hc with hc | hc
    · exact h.nonempty c hc
    · rw [List.mem_singleton.mp hc]
      exact hd
  inFront c cs he := by
    cases chunks with
    | nil =>
      have hoff := h.atStart rfl
      simp only [List.nil_append, List.cons.injEq] at he
      rw [← he.1, hoff]
      exact List.length_pos_iff.mpr hd
    | cons c' cs' =>
      simp only [List.cons_append, List.cons.injEq] at he
      rw [← he.1]
      exact h.inFront c' cs' rfl
  atStart he := by simp at he

theorem Tight.grow (h : Tight (init ++ [last]) off) : Tight (init ++ [last ++ d]) off where
  nonempty c hc := by
    rcases List.mem_append.mp hc with hc | hc
    · exact h.nonempty c (List.mem_append.mpr (Or.inl hc))
    · rw [List.mem_singleton.mp hc]
      have hlast := h.nonempty last (by simp)
      simp [hlast]
  inFront c cs he := by
    cases init with
    | nil =>
      simp only [List.nil_append, List.cons.injEq] at he
      have hoff := h.inFront last [] rfl
      rw [← he.1, List.length_append]
      omega
    | cons c' cs' =>
      simp only [List.cons_append, List.cons.injEq] at he
      rw [← he.1]
      exact h.inFront c' (cs' ++ [last]) rfl
  atStart he := by simp at he

end Append

section Advance

variable {c : List α} {cs : List (List α)} {off k : ℕ}

/-- Taking `k` items of the first chunk, without finishing it. -/
theorem content_advance (chunks : List (List α)) (off k : ℕ) :
    content chunks (off + k) = (content chunks off).drop k := by
  simp [content, List.drop_drop]

/-- Taking exactly the rest of the first chunk. -/
theorem content_finish (h : off + k = c.length) :
    content cs 0 = (content (c :: cs) off).drop k := by
  simp [content, List.drop_drop, h]

/-- A prefix that stays inside the first chunk is read off that chunk alone. -/
theorem take_content (hoff : off ≤ c.length) (hk : k ≤ c.length - off) :
    (content (c :: cs) off).take k = (c.drop off).take k := by
  rw [content_cons hoff, List.take_append_of_le_length (by simpa using hk)]

theorem Tight.advance (h : Tight (c :: cs) off) (hk : off + k < c.length) :
    Tight (c :: cs) (off + k) where
  nonempty := h.nonempty
  inFront c' cs' he := by
    simp only [List.cons.injEq] at he
    rw [← he.1]
    exact hk
  atStart he := by simp at he

theorem Tight.finish (h : Tight (c :: cs) off) : Tight cs 0 where
  nonempty c' hc' := h.nonempty c' (List.mem_cons_of_mem _ hc')
  inFront c' cs' he := by
    have hne := h.nonempty c' (by simp [he])
    exact List.length_pos_iff.mpr hne
  atStart _ := rfl

end Advance

end Fifo
