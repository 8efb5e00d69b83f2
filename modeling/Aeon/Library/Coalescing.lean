import Mathlib.Data.List.Chain
import Mathlib.Tactic.Common

/-!
# Buffers that join small messages

A message that fits behind the last chunk of a buffer joins it, and any other
starts a chunk.  `Dense` is what this leaves, whatever a reader removes at the
front.  `credit` is a potential that pays for every chunk that was started.
-/

namespace Coalescing

variable {α : Type*} {limit : ℕ} {d : List α} {chunks chunks' : List (List α)}

/-- One message goes behind a buffer whose chunks are joined up to `limit`. -/
inductive Put (limit : ℕ) (d : List α) : List (List α) → List (List α) → Prop
  | first : Put limit d [] [d]
  | join (init : List (List α)) (last : List α) : last.length + d.length ≤ limit →
      Put limit d (init ++ [last]) (init ++ [last ++ d])
  | start (init : List (List α)) (last : List α) : limit < last.length + d.length →
      Put limit d (init ++ [last]) (init ++ [last] ++ [d])

/-- Two neighbours hold together more than a chunk can grow to. -/
def Dense (limit : ℕ) (chunks : List (List α)) : Prop :=
  chunks.IsChain fun a b => limit < a.length + b.length

theorem Dense.nil : Dense limit ([] : List (List α)) := List.IsChain.nil

theorem Dense.suffix (h : Dense limit chunks) (hs : chunks' <:+ chunks) : Dense limit chunks' :=
  List.IsChain.suffix h hs

/-- The last chunk may become longer, and so may what follows the others. -/
theorem Put.dense (hp : Put limit d chunks chunks') (h : Dense limit chunks) :
    Dense limit chunks' := by
  cases hp with
  | first => exact .singleton d
  | join init last _ =>
    obtain ⟨hinit, -, hlink⟩ := List.isChain_append.mp h
    apply List.IsChain.append hinit (.singleton _)
    intro a ha b hb
    have hab := hlink a ha last (by simp)
    obtain rfl : last ++ d = b := by simpa using hb
    simp only [List.length_append]
    omega
  | start init last hlt =>
    apply List.IsChain.append h (.singleton d)
    intro a ha b hb
    obtain rfl : last = a := by simpa using ha
    obtain rfl : d = b := by simpa using hb
    exact hlt

/-- Every second chunk can be charged `limit` items: its own and its neighbour's. -/
theorem Dense.half_length_mul_le : ∀ {chunks : List (List α)}, Dense limit chunks →
    chunks.length / 2 * limit ≤ chunks.flatten.length
  | [], _ => by simp
  | [a], _ => by simp
  | a :: b :: rest, h => by
    have hab : limit < a.length + b.length := (List.isChain_cons_cons.mp h).1
    have hrest : Dense limit rest := h.suffix ⟨[a, b], rfl⟩
    have ih := hrest.half_length_mul_le
    have hhalf : (a :: b :: rest).length / 2 = rest.length / 2 + 1 := by
      simp only [List.length_cons]
      omega
    rw [hhalf, Nat.add_mul, Nat.one_mul]
    simp only [List.flatten_cons, List.length_append]
    omega

theorem Dense.length_le (h : Dense limit chunks) (hl : 0 < limit) :
    chunks.length ≤ 1 + 2 * (chunks.flatten.length / limit) := by
  have hhalf : chunks.length / 2 ≤ chunks.flatten.length / limit :=
    (Nat.le_div_iff_mul_le hl).mpr h.half_length_mul_le
  omega

/-- What the last chunk has already paid towards the next one.  An empty buffer
has paid for its first chunk. -/
def credit (limit : ℕ) (chunks : List (List α)) : ℕ :=
  match chunks.getLast? with
  | none => limit
  | some last => min last.length limit

@[simp] theorem credit_nil : credit limit ([] : List (List α)) = limit := rfl

@[simp] theorem credit_snoc (limit : ℕ) (init : List (List α)) (last : List α) :
    credit limit (init ++ [last]) = min last.length limit := by simp [credit]

theorem credit_le (limit : ℕ) (chunks : List (List α)) : credit limit chunks ≤ limit := by
  unfold credit
  split
  · exact Nat.le_refl _
  · exact Nat.min_le_right _ _

theorem credit_suffix (hs : chunks' <:+ chunks) (hne : chunks' ≠ []) :
    credit limit chunks' = credit limit chunks := by
  obtain ⟨gone, rfl⟩ := hs
  obtain ⟨init, last, rfl⟩ := (List.eq_nil_or_concat chunks').resolve_left hne
  rw [List.concat_eq_append, ← List.append_assoc, credit_snoc, credit_snoc]

/-- A message pays twice its length, which covers the chunk it may start. -/
theorem Put.credit_le (hp : Put limit d chunks chunks') :
    limit * (chunks'.length - chunks.length) + credit limit chunks' ≤
      credit limit chunks + 2 * d.length := by
  cases hp with
  | first =>
    have hcredit : credit limit [d] = min d.length limit := credit_snoc limit [] d
    simp only [hcredit, credit_nil, List.length_singleton, List.length_nil, Nat.sub_zero]
    omega
  | join init last _ =>
    simp only [credit_snoc, List.length_append, List.length_singleton, Nat.sub_self, Nat.mul_zero]
    omega
  | start init last hlt =>
    have hone : (init ++ [last] ++ [d]).length - (init ++ [last]).length = 1 := by simp
    rw [hone, credit_snoc, credit_snoc, Nat.mul_one]
    omega

end Coalescing
