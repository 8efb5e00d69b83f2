import Aeon.Library.Coalescing
import Aeon.WriteQueue

/-!
# The chunks of the outgoing queue

The number of chunks is bounded by the bytes they hold, and the number of
chunks ever started by the bytes accepted, whatever the sizes of the writes.
-/

namespace Aeon

namespace Outgoing

/-- How the bytes of the queue lie in its chunks. -/
structure Packed (q : Outgoing) : Prop where
  nonempty : ∀ chunk ∈ q.chunks, chunk ≠ []
  adjacent : ∀ before a b after, q.chunks = before ++ a :: b :: after →
    coalesceLimit < a.length + b.length
  count : q.chunks.length ≤ 1 + 2 * ((q.bytes + q.frontOffset) / coalesceLimit)

theorem Valid.flatten_length {q : Outgoing} (h : q.Valid) :
    q.chunks.flatten.length = q.bytes + q.frontOffset := by
  rw [h.bytes_eq, pending, h.tight.content_length]

theorem Valid.packed {q : Outgoing} (h : q.Valid)
    (hd : Coalescing.Dense coalesceLimit q.chunks) : q.Packed where
  nonempty := h.tight.nonempty
  adjacent before a b after hc := by
    have hpair : Coalescing.Dense coalesceLimit (a :: b :: after) := hd.suffix ⟨before, hc.symm⟩
    exact (List.isChain_cons_cons.mp hpair).1
  count := by
    have hlength := hd.length_le (by decide)
    rwa [h.flatten_length] at hlength

/-- The two sides of the test leave no length out and share none, since an
empty message never reaches the queue. -/
theorem coalesce_put {data : List UInt8} (hdata : data ≠ []) (chunks : List (List UInt8)) :
    Coalescing.Put coalesceLimit data chunks (coalesce chunks data) := by
  rcases List.eq_nil_or_concat chunks with rfl | ⟨init, back, rfl⟩
  · exact .first
  · have hpos : 0 < data.length := List.length_pos_iff.mpr hdata
    simp only [coalesce, List.concat_eq_append, List.getLast?_concat, List.dropLast_concat]
    split
    · rename_i hfit
      rw [sizeSub_eq (Nat.le_of_lt hfit.1) (by simp only [coalesceLimit]; omega)] at hfit
      exact .join init back (by omega)
    · rename_i hfull
      apply Coalescing.Put.start
      by_cases hback : back.length < coalesceLimit
      · rw [sizeSub_eq (Nat.le_of_lt hback) (by simp only [coalesceLimit]; omega)] at hfull
        omega
      · omega

/-- Sending removes the first chunk once it is finished, and no other. -/
theorem advance_suffix (count : ℕ) (q : Outgoing) : (q.advance count).chunks <:+ q.chunks := by
  unfold advance
  split
  · exact List.suffix_refl _
  · rename_i front rest hc
    split
    · exact hc ▸ List.suffix_cons front rest
    · exact List.suffix_refl _

end Outgoing

section Flush

variable {σ : Type} {t : Transport σ}

theorem flushLoop_suffix (budget : ℕ) (r : FlushResult) (q : Outgoing) (i : ℕ) (s : σ) :
    (flushLoop t budget r q i s).queue.chunks <:+ q.chunks := by
  induction r, q, i, s using flushLoop.induct t budget with
  | case1 r q i s hb data sent r' q' hstop =>
    rw [flushLoop_stop hb hstop]
    rcases flushOnce_stop hstop with ⟨-, rfl, -⟩ | ⟨-, -, rfl, -⟩
    · exact List.suffix_refl _
    · exact List.nil_suffix
  | case2 r q i s hb data sent r' q' i' hagain ih =>
    rw [flushLoop_again hb hagain]
    rcases flushOnce_again hagain with ⟨-, rfl, -, -, -⟩ | ⟨-, -, -, rfl, -⟩
    · exact ih
    · exact ih.trans (q.advance_suffix _)
  | case3 r q i s hb => simp [flushLoop_done hb]

theorem EventSocket.flushQueued_suffix (budget : ℕ) (s : EventSocket) (net : σ) :
    (s.flushQueued t budget net).queue.chunks <:+ s.outgoing.chunks := by
  unfold EventSocket.flushQueued
  split
  · exact List.suffix_refl _
  · exact flushLoop_suffix budget {} s.outgoing 0 net

end Flush

section Runs

variable {σ : Type}

def Conn.chunks (c : Conn σ) : List (List UInt8) := c.sock.outgoing.chunks

/-- The operations that take chunks out of the queue. -/
def QueueOp.drains : QueueOp σ → Bool
  | .flush _ => true
  | .close => true
  | _ => false

/-- The chunks that an operation allocated, from the queues around it. -/
def QueueOp.started (_ : QueueOp σ) (before after : Conn σ) : ℕ :=
  after.chunks.length - before.chunks.length

/-- One for a flush or a close that took the last chunk. -/
def QueueOp.emptied (o : QueueOp σ) (before after : Conn σ) : ℕ :=
  if o.drains = true ∧ before.chunks ≠ [] ∧ after.chunks = [] then 1 else 0

/-- The sum of `cost` over the operations of a run. -/
def runTotal (cost : QueueOp σ → Conn σ → Conn σ → ℕ) (h : Host) (t : Transport σ)
    (accepts : σ → Bool) : List (QueueOp σ) → Conn σ → ℕ
  | [], _ => 0
  | o :: ops, c =>
    let c' := (o.exec h t accepts c).1
    cost o c c' + runTotal cost h t accepts ops c'

/-- The bytes that the writes of a run put into the queue. -/
def runAccepted (h : Host) (t : Transport σ) (accepts : σ → Bool) (ops : List (QueueOp σ))
    (c : Conn σ) : ℕ :=
  ((runQueue h t accepts ops c).2.flatMap Fifo.Obs.acceptedItems).length

/-- What an operation can do to the chunks. -/
theorem QueueOp.exec_chunks (h : Host) (t : Transport σ) (accepts : σ → Bool) (c : Conn σ)
    (o : QueueOp σ) :
    Coalescing.Put coalesceLimit (o.exec h t accepts c).2.acceptedItems c.chunks
      (o.exec h t accepts c).1.chunks ∨
    (o.exec h t accepts c).1.chunks = c.chunks ∨
    (o.drains = true ∧ (o.exec h t accepts c).1.chunks <:+ c.chunks) := by
  cases o with
  | queueWrite data =>
    simp only [QueueOp.exec, Conn.chunks]
    rcases c.sock.queueWrite_cases (accepts c.net) data with
      he | ⟨he, -⟩ | ⟨hd, -, -, -, -, he⟩
    · exact Or.inr (Or.inl (by rw [he]))
    · exact Or.inr (Or.inl (by rw [he]))
    · rw [he, EventSocket.withOutgoing_outgoing, EventSocket.withOutgoing_fst]
      unfold Outgoing.append
      split
      · exact Or.inr (Or.inl rfl)
      · exact Or.inl (Outgoing.coalesce_put hd _)
  | setMaxQueuedBytes limit =>
    right; left
    simp only [QueueOp.exec, Conn.chunks, EventSocket.setMaxQueuedBytes,
      EventSocket.withOutgoing_outgoing, Outgoing.setLimit]
    split <;> rfl
  | flush budget => exact Or.inr (Or.inr ⟨rfl, c.sock.flushQueued_suffix _ _⟩)
  | close => exact Or.inr (Or.inr ⟨rfl, List.nil_suffix⟩)
  | other sock net => exact Or.inr (Or.inl rfl)

theorem QueueOp.exec_dense (h : Host) (t : Transport σ) (accepts : σ → Bool) (c : Conn σ)
    (o : QueueOp σ) (hc : Coalescing.Dense coalesceLimit c.chunks) :
    Coalescing.Dense coalesceLimit (o.exec h t accepts c).1.chunks := by
  rcases o.exec_chunks h t accepts c with hput | hkept | ⟨-, hsuffix⟩
  · exact hput.dense hc
  · rw [hkept]
    exact hc
  · exact hc.suffix hsuffix

theorem runQueue_dense (h : Host) (t : Transport σ) (accepts : σ → Bool) (ops : List (QueueOp σ))
    (c : Conn σ) (hc : Coalescing.Dense coalesceLimit c.chunks) :
    Coalescing.Dense coalesceLimit (runQueue h t accepts ops c).1.chunks := by
  induction ops generalizing c with
  | nil => exact hc
  | cons o ops ih => exact ih _ (o.exec_dense h t accepts c hc)

/-- A chunk is paid for by the messages around its start, or by the operation
that had emptied the queue. -/
theorem QueueOp.exec_credit (h : Host) (t : Transport σ) (accepts : σ → Bool) (c : Conn σ)
    (o : QueueOp σ) :
    coalesceLimit * o.started c (o.exec h t accepts c).1 +
        Coalescing.credit coalesceLimit (o.exec h t accepts c).1.chunks ≤
      Coalescing.credit coalesceLimit c.chunks +
        coalesceLimit * o.emptied c (o.exec h t accepts c).1 +
        2 * (o.exec h t accepts c).2.acceptedItems.length := by
  unfold QueueOp.started
  rcases o.exec_chunks h t accepts c with hput | hkept | ⟨hdrains, hsuffix⟩
  · have hpaid := hput.credit_le
    omega
  · rw [hkept, Nat.sub_self]
    omega
  · have hnone := Nat.sub_eq_zero_of_le hsuffix.length_le
    by_cases hleft : (o.exec h t accepts c).1.chunks = []
    · by_cases hhad : c.chunks = []
      · rw [hnone, hleft, hhad]
        omega
      · rw [hnone, hleft, QueueOp.emptied, if_pos ⟨hdrains, hhad, hleft⟩, Coalescing.credit_nil]
        omega
    · rw [hnone, Coalescing.credit_suffix hsuffix hleft]
      omega

theorem runQueue_credit (h : Host) (t : Transport σ) (accepts : σ → Bool)
    (ops : List (QueueOp σ)) (c : Conn σ) :
    coalesceLimit * runTotal QueueOp.started h t accepts ops c +
        Coalescing.credit coalesceLimit (runQueue h t accepts ops c).1.chunks ≤
      Coalescing.credit coalesceLimit c.chunks +
        coalesceLimit * runTotal QueueOp.emptied h t accepts ops c +
        2 * runAccepted h t accepts ops c := by
  induction ops generalizing c with
  | nil => simp [runTotal, runQueue, runAccepted]
  | cons o ops ih =>
    have hstep := o.exec_credit h t accepts c
    have hrest := ih (o.exec h t accepts c).1
    simp only [runTotal, runQueue, runAccepted, List.flatMap_cons, List.length_append,
      Nat.mul_add] at hrest ⊢
    omega

theorem runTotal_started_le (h : Host) (t : Transport σ) (accepts : σ → Bool)
    (ops : List (QueueOp σ)) (c : Conn σ) :
    runTotal QueueOp.started h t accepts ops c ≤
      1 + runTotal QueueOp.emptied h t accepts ops c +
        2 * runAccepted h t accepts ops c / coalesceLimit := by
  have hpaid := runQueue_credit h t accepts ops c
  have hcredit := Coalescing.credit_le coalesceLimit c.chunks
  simp only [coalesceLimit] at hpaid hcredit ⊢
  omega

@[simp] theorem runTotal_emptied_writes (h : Host) (t : Transport σ) (accepts : σ → Bool)
    (writes : List (Option (List UInt8))) (c : Conn σ) :
    runTotal QueueOp.emptied h t accepts (writes.map .queueWrite) c = 0 := by
  induction writes generalizing c with
  | nil => rfl
  | cons data writes ih => simp [runTotal, QueueOp.emptied, QueueOp.drains, ih]

/-- In every queue that a run reaches, no chunk is empty, neighbours hold more
than the coalescing limit, and there are few chunks for the bytes they hold.
From there on any number of writes starts one chunk for every 8 KiB they add,
and any other run one more for each time that the queue was emptied. -/
theorem runQueue_chunks_bounded (h : Host) (t : Transport σ) (accepts : σ → Bool)
    (before : List (QueueOp σ)) (sock : Socket) (net : σ) :
    let c := (runQueue h t accepts before ⟨{ toSocket := sock }, net⟩).1
    c.sock.outgoing.Packed ∧
    (∀ writes : List (Option (List UInt8)),
      runTotal QueueOp.started h t accepts (writes.map .queueWrite) c ≤
        1 + 2 * runAccepted h t accepts (writes.map .queueWrite) c / coalesceLimit) ∧
    ∀ ops : List (QueueOp σ), runTotal QueueOp.started h t accepts ops c ≤
      1 + runTotal QueueOp.emptied h t accepts ops c +
        2 * runAccepted h t accepts ops c / coalesceLimit := by
  intro c
  have hvalid := (runQueue_spec h t accepts before ⟨{ toSocket := sock }, net⟩
    Outgoing.Valid.empty).1
  have hdense := runQueue_dense h t accepts before ⟨{ toSocket := sock }, net⟩
    Coalescing.Dense.nil
  refine ⟨hvalid.packed hdense, ?_, fun ops => runTotal_started_le h t accepts ops c⟩
  intro writes
  have hle := runTotal_started_le h t accepts (writes.map .queueWrite) c
  rwa [runTotal_emptied_writes, Nat.add_zero] at hle

end Runs

end Aeon
