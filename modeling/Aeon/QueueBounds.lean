import Aeon.WriteQueue

/-!
# Bounds of the outgoing queue

A flush makes a bounded number of calls, each of a bounded length, and stops
when the transport is interrupted again and again.  The queue never holds more
than its limit, so that the subtraction which admits a write cannot wrap.
-/

namespace Aeon

open Errno

/-- A send that a signal has interrupted. -/
def IoResult.interrupted (r : IoResult) : Bool := r.ret < 0 && r.errno == EINTR

/-- The queue once the bytes that these calls took have left it. -/
def Outgoing.afterCalls (q : Outgoing) (calls : List (List UInt8 × IoResult)) : Outgoing :=
  calls.foldl (fun q call => q.advance (taken call).length) q

/-- What is left of the first chunk. -/
def Outgoing.frontLeft (q : Outgoing) : ℕ := (q.chunks.headD []).length - q.frontOffset

/-- What a flush of `q` keeps to, whatever the transport answers. -/
structure FlushBounds {σ : Type} (budget : ℕ) (q : Outgoing) (f : Flushed σ) : Prop where
  calls : f.calls.length ≤ 5 * (min budget q.bytes + 1)
  requested : ∀ pre call post, f.calls = pre ++ call :: post → 1 ≤ call.1.length ∧
    call.1.length ≤ min intMax (min (budget - (handed pre).length) (q.afterCalls pre).frontLeft)
  bytes : f.result.bytes = (handed f.calls).length ∧ f.result.bytes ≤ budget
  drained : f.result.drained = true ↔ q.bytes ≠ 0 ∧ f.queue.bytes = 0 ∧ f.result.error = 0
  storm : ∀ pre storm post, f.calls = pre ++ storm ++ post → 4 < storm.length →
    (∀ call ∈ storm, call.2.interrupted = true) →
    post = [] ∧ f.result.error = 0 ∧ q.pending = handed f.calls ++ f.queue.pending

section Flush

variable {σ : Type} {t : Transport σ}

theorem Outgoing.Valid.advance_zero {q : Outgoing} (h : q.Valid) : q.advance 0 = q := by
  have hbytes := h.bytes_le
  have hlimit := h.limit_lt
  have hsub : sizeSub q.bytes 0 = q.bytes := sizeSub_eq (Nat.zero_le _) (by omega)
  unfold Outgoing.advance
  cases hc : q.chunks with
  | nil => rfl
  | cons front rest =>
    have hoff := h.tight.inFront front rest hc
    dsimp only
    rw [if_neg (by omega), hsub, Nat.add_zero, ← hc]

theorem Outgoing.Valid.frontLeft_eq {q : Outgoing} (h : q.Valid) (left : ℕ) (hb : q.bytes ≠ 0) :
    q.requested left = min (min q.frontLeft left) intMax := by
  obtain ⟨front, rest, hc, -, -⟩ := h.front hb
  rw [h.requested_eq left hc, Outgoing.frontLeft, hc, List.headD_cons]

/-- An interrupted send goes on at most four times in a row. -/
theorem flushOnce_interrupted {requested i : ℕ} {sent : IoResult} {s : σ} {r : FlushResult}
    {q : Outgoing} (h : sent.interrupted = true) :
    flushOnce t requested sent s r q i = if i + 1 ≤ 4 then .again r q (i + 1) else .stop r q := by
  simp only [IoResult.interrupted, Bool.and_eq_true, decide_eq_true_eq, beq_iff_eq] at h
  unfold flushOnce
  rw [if_pos h.1]
  by_cases hi : i + 1 ≤ 4
  · rw [if_pos ⟨h.2, hi⟩, if_pos hi]
  · rw [if_neg fun hc => hi hc.2, if_pos (Or.inl h.2), if_neg hi]

/-- Each byte that is sent leaves room for four interruptions before the next one. -/
theorem flushLoop_calls (budget : ℕ) (r : FlushResult) (q : Outgoing) (i : ℕ) (s : σ)
    (hq : q.Valid) (hi : i ≤ 4) :
    (flushLoop t budget r q i s).calls.length ≤ 5 * min (budget - r.bytes) q.bytes + (5 - i) := by
  induction r, q, i, s using flushLoop.induct t budget with
  | case1 r q i s hb data sent r' q' hstop =>
    rw [flushLoop_stop hb hstop]
    simp only [List.length_singleton]
    omega
  | case2 r q i s hb data sent r' q' i' hagain ih =>
    rw [flushLoop_again hb hagain]
    dsimp only [List.length_cons]
    rcases flushOnce_again hagain with ⟨rfl, rfl, rfl, hi', -⟩ | ⟨hpos, hmax, rfl, rfl, rfl⟩
    · have hrest : (flushLoop t budget r' q' (i + 1)
          (t.send (q'.request (budget - r'.bytes)) s).2).calls.length ≤ _ := ih hq hi'
      omega
    · have hcount : sent.1.ret.toNat ≤ q.requested (budget - r.bytes) := by omega
      obtain ⟨hvalid, hpending⟩ := hq.advance hb.1 hcount
      have hleft : (q.advance sent.1.ret.toNat).bytes = q.bytes - sent.1.ret.toNat := by
        rw [hvalid.bytes_eq, hpending, List.length_drop, hq.bytes_eq]
      have hle : q.requested (budget - r.bytes) ≤ q.bytes := (hq.request_eq _ hb.1).2.2
      have hbudget : q.requested (budget - r.bytes) ≤ budget - r.bytes := by
        rw [hq.frontLeft_eq _ hb.1]
        omega
      have hrest : (flushLoop t budget { r with bytes := r.bytes + sent.1.ret.toNat }
          (q.advance sent.1.ret.toNat) 0 (t.send (q.request (budget - r.bytes)) s).2).calls.length ≤
            _ := ih hvalid (Nat.zero_le _)
      rw [hleft] at hrest
      dsimp only [sent] at hrest hpos hcount ⊢
      omega
  | case3 r q i s hb =>
    rw [flushLoop_done hb]
    exact Nat.zero_le _

/-- Every request is one of at least a byte that the budget, the first chunk and
an `int` have room for. -/
theorem flushLoop_requested (budget : ℕ) (r : FlushResult) (q : Outgoing) (i : ℕ) (s : σ)
    (hq : q.Valid) (pre post : List (List UInt8 × IoResult)) (call : List UInt8 × IoResult)
    (hcalls : (flushLoop t budget r q i s).calls = pre ++ call :: post) :
    1 ≤ call.1.length ∧ call.1.length ≤
      min intMax (min (budget - (r.bytes + (handed pre).length)) (q.afterCalls pre).frontLeft) := by
  have hfirst {r : FlushResult} {q : Outgoing} (hq : q.Valid)
      (hb : q.bytes ≠ 0 ∧ r.bytes < budget) : 1 ≤ (q.request (budget - r.bytes)).length ∧
      (q.request (budget - r.bytes)).length ≤
        min intMax (min (budget - (r.bytes + (handed []).length)) (q.afterCalls []).frontLeft) := by
    have hpos := hq.requested_pos hb.1 (Nat.sub_ne_zero_of_lt hb.2)
    rw [(hq.request_eq (budget - r.bytes) hb.1).2.1]
    have heq := hq.frontLeft_eq (budget - r.bytes) hb.1
    rw [handed_nil, List.length_nil, Nat.add_zero, Outgoing.afterCalls, List.foldl_nil]
    omega
  induction r, q, i, s using flushLoop.induct t budget generalizing pre with
  | case1 r q i s hb data sent r' q' hstop =>
    rw [flushLoop_stop hb hstop] at hcalls
    cases pre with
    | nil =>
      obtain ⟨rfl, -⟩ := List.cons.inj hcalls
      exact hfirst hq hb
    | cons c pre => simp at hcalls
  | case2 r q i s hb data sent r' q' i' hagain ih =>
    rw [flushLoop_again hb hagain] at hcalls
    cases pre with
    | nil =>
      obtain ⟨rfl, -⟩ := List.cons.inj hcalls
      exact hfirst hq hb
    | cons c pre =>
      obtain ⟨rfl, hrest⟩ := List.cons.inj hcalls
      rw [Outgoing.afterCalls, List.foldl_cons, ← Outgoing.afterCalls, handed_cons, List.length_append]
      rcases flushOnce_again hagain with ⟨rfl, rfl, rfl, -, hneg⟩ | ⟨hpos, hmax, rfl, rfl, rfl⟩
      · rw [taken_nonpos (Int.le_of_lt hneg), List.length_nil, hq.advance_zero, Nat.zero_add]
        exact ih hq pre hrest
      · have hcount : sent.1.ret.toNat ≤ q.requested (budget - r.bytes) := by omega
        have hlen := (hq.request_eq (budget - r.bytes) hb.1).2.1
        have htaken : (taken (q.request (budget - r.bytes), sent.1)).length = sent.1.ret.toNat := by
          rw [taken_of_le (by rw [hlen]; exact hmax), List.length_take, hlen]
          omega
        have hnext := ih (hq.advance hb.1 hcount).1 pre hrest
        rw [htaken, ← Nat.add_assoc]
        exact hnext
  | case3 r q i s hb =>
    rw [flushLoop_done hb] at hcalls
    simp at hcalls

/-- Five interruptions in a row, with those counted before, are the end. -/
theorem flushLoop_interrupted (budget : ℕ) (r : FlushResult) (q : Outgoing) (i : ℕ) (s : σ)
    (hi : i ≤ 4) (storm post : List (List UInt8 × IoResult))
    (hcalls : (flushLoop t budget r q i s).calls = storm ++ post) (hlen : 5 - i ≤ storm.length)
    (hstorm : ∀ call ∈ storm, call.2.interrupted = true) :
    post = [] ∧ (flushLoop t budget r q i s).result = r := by
  obtain ⟨call, storm, rfl⟩ := List.exists_cons_of_length_pos (l := storm) (by omega)
  have hcall := hstorm call List.mem_cons_self
  induction r, q, i, s using flushLoop.induct t budget generalizing call storm with
  | case1 r q i s hb data sent r' q' hstop =>
    rw [flushLoop_stop hb hstop] at hcalls ⊢
    obtain ⟨rfl, hrest⟩ := List.cons.inj hcalls
    rw [flushOnce_interrupted hcall] at hstop
    split at hstop
    · cases hstop
    · obtain ⟨rfl, rfl⟩ := FlushStep.stop.inj hstop
      exact ⟨(List.append_eq_nil_iff.mp hrest.symm).2, rfl⟩
  | case2 r q i s hb data sent r' q' i' hagain ih =>
    rw [flushLoop_again hb hagain] at hcalls ⊢
    obtain ⟨rfl, hrest⟩ := List.cons.inj hcalls
    rw [flushOnce_interrupted hcall] at hagain
    split at hagain
    · rename_i hi'
      obtain ⟨rfl, rfl, rfl⟩ := FlushStep.again.inj hagain
      rw [List.length_cons] at hlen
      obtain ⟨next, storm, rfl⟩ := List.exists_cons_of_length_pos (l := storm) (by omega)
      exact ih hi' next storm hrest (by omega)
        (fun c hc => hstorm c (List.mem_cons_of_mem _ hc)) (hstorm next (by simp))
    · cases hagain
  | case3 r q i s hb =>
    rw [flushLoop_done hb] at hcalls
    simp at hcalls

theorem flushLoop_storm (budget : ℕ) (r : FlushResult) (q : Outgoing) (i : ℕ) (s : σ) (hi : i ≤ 4)
    (pre storm post : List (List UInt8 × IoResult))
    (hcalls : (flushLoop t budget r q i s).calls = pre ++ storm ++ post) (hlen : 4 < storm.length)
    (hstorm : ∀ call ∈ storm, call.2.interrupted = true) (hr : r.error = 0) :
    post = [] ∧ (flushLoop t budget r q i s).result.error = 0 := by
  induction r, q, i, s using flushLoop.induct t budget generalizing pre with
  | case1 r q i s hb data sent r' q' hstop =>
    have hone := congrArg List.length hcalls
    rw [flushLoop_stop hb hstop] at hone
    simp only [List.length_append, List.length_singleton] at hone
    omega
  | case2 r q i s hb data sent r' q' i' hagain ih =>
    cases pre with
    | nil =>
      have hend := flushLoop_interrupted budget r q i s hi storm post hcalls (by omega) hstorm
      exact ⟨hend.1, by rw [hend.2, hr]⟩
    | cons c pre =>
      rw [flushLoop_again hb hagain] at hcalls ⊢
      obtain ⟨-, hrest⟩ := List.cons.inj hcalls
      rcases flushOnce_again hagain with ⟨rfl, rfl, rfl, hi', -⟩ | ⟨-, -, rfl, rfl, rfl⟩
      · exact ih hi' pre hrest hr
      · exact ih (Nat.zero_le _) pre hrest hr
  | case3 r q i s hb =>
    rw [flushLoop_done hb] at hcalls
    have hone := congrArg List.length hcalls
    simp only [List.length_append, List.length_nil] at hone
    omega

theorem flushLoop_bytes_le (budget : ℕ) (r : FlushResult) (q : Outgoing) (i : ℕ) (s : σ)
    (hr : r.bytes ≤ budget) : (flushLoop t budget r q i s).result.bytes ≤ budget := by
  induction r, q, i, s using flushLoop.induct t budget with
  | case1 r q i s hb data sent r' q' hstop =>
    rw [flushLoop_stop hb hstop]
    rcases flushOnce_stop hstop with ⟨rfl, -, -⟩ | ⟨hbytes, -⟩
    · exact hr
    · exact hbytes ▸ hr
  | case2 r q i s hb data sent r' q' i' hagain ih =>
    rw [flushLoop_again hb hagain]
    rcases flushOnce_again hagain with ⟨rfl, rfl, rfl, -, -⟩ | ⟨hpos, hmax, rfl, rfl, rfl⟩
    · exact ih hr
    · have hbudget : q.requested (budget - r.bytes) ≤ budget - r.bytes :=
        (Nat.min_le_left _ _).trans (Nat.min_le_right _ _)
      refine ih ?_
      dsimp only
      omega
  | case3 r q i s hb =>
    rw [flushLoop_done hb]
    exact hr

/-- Every flush of a valid queue keeps to the bounds. -/
theorem flushQueued_bounds (budget : ℕ) (s : EventSocket) (net : σ) (hq : s.outgoing.Valid) :
    FlushBounds budget s.outgoing (s.flushQueued t budget net) := by
  obtain ⟨k, hk⟩ := flushQueued_spec (t := t) budget s net hq
  have hbytes : (s.flushQueued t budget net).result.bytes =
      (handed (s.flushQueued t budget net).calls).length := by
    have hle := hk.le
    rw [hk.handed, hk.bytes, List.length_take]
    dsimp only
    omega
  have hkept (he : (s.flushQueued t budget net).result.error = 0) : s.outgoing.pending =
      handed (s.flushQueued t budget net).calls ++ (s.flushQueued t budget net).queue.pending := by
    rw [hk.handed, hk.kept he, List.take_append_drop]
  revert hbytes hkept
  unfold EventSocket.flushQueued
  split
  · intro hbytes hkept
    refine ⟨Nat.zero_le _, fun pre call post h => by simp at h, ⟨hbytes, Nat.zero_le _⟩,
      ⟨nofun, fun h => absurd h.2.1 h.1⟩, fun pre storm post h hlen _ => ?_⟩
    have hone := congrArg List.length h
    simp only [List.length_append, List.length_nil] at hone
    omega
  · intro hbytes hkept
    have hcalls := flushLoop_calls (t := t) budget {} s.outgoing 0 net hq (Nat.zero_le _)
    refine ⟨?_, fun pre call post h => ?_, ⟨hbytes, ?_⟩, ?_, fun pre storm post h hlen hstorm => ?_⟩
    · show (flushLoop t budget {} s.outgoing 0 net).calls.length ≤ _
      dsimp only at hcalls
      omega
    · have hrequested := flushLoop_requested budget {} s.outgoing 0 net hq pre post call h
      dsimp only at hrequested
      rwa [Nat.zero_add] at hrequested
    · exact flushLoop_bytes_le budget {} s.outgoing 0 net (Nat.zero_le _)
    · exact decide_eq_true_iff
    · obtain ⟨hpost, herror⟩ := flushLoop_storm (t := t) budget {} s.outgoing 0 net (Nat.zero_le _)
        pre storm post h hlen hstorm rfl
      exact ⟨hpost, herror, hkept herror⟩

/-- From every queue that a run leaves, over every transport, a flush ends after
a bounded number of calls that ask for what the budget has room for. -/
theorem flush_bounded (h : Host) (t : Transport σ) (accepts : σ → Bool) (ops : List (QueueOp σ))
    (sock : Socket) (net : σ) (budget : UInt64) :
    FlushBounds budget.toNat
      (runQueue h t accepts ops ⟨{ toSocket := sock }, net⟩).1.sock.outgoing
      ((runQueue h t accepts ops ⟨{ toSocket := sock }, net⟩).1.sock.flushQueued t budget.toNat
        (runQueue h t accepts ops ⟨{ toSocket := sock }, net⟩).1.net) :=
  flushQueued_bounds _ _ _
    (runQueue_spec h t accepts ops ⟨{ toSocket := sock }, net⟩ Outgoing.Valid.empty).1

end Flush

section Admission

variable {σ : Type}

/-- What the queue admits, in numbers that do not wrap. -/
structure AdmissionSpec (accepts : σ → Bool) (c : Conn σ) : Prop where
  bounded : c.sock.queuedBytes ≤ c.sock.outgoing.limit
  room : sizeSub c.sock.outgoing.limit c.sock.outgoing.bytes + c.sock.outgoing.bytes =
    c.sock.outgoing.limit
  total : ∀ data, (c.sock.queueWrite (accepts c.net) (some data)).1 = true →
    (c.sock.queueWrite (accepts c.net) (some data)).2.queuedBytes =
      c.sock.queuedBytes + data.length ∧ c.sock.queuedBytes + data.length < 2 ^ 64
  queueWrite : c.sock.isValidSocket = true → c.sock.connected = true → c.sock.blocking = false →
    accepts c.net = true → ∀ data, (c.sock.queueWrite (accepts c.net) (some data)).1 = true ↔
      data.length ≤ c.sock.outgoing.limit - c.sock.queuedBytes
  setMaxQueuedBytes : ∀ limit : UInt64, (c.sock.setMaxQueuedBytes limit.toNat).1 = true ↔
    c.sock.queuedBytes ≤ limit.toNat
  writeRefused : ∀ data, (c.sock.queueWrite (accepts c.net) data).1 = false →
    (c.sock.queueWrite (accepts c.net) data).2 = c.sock
  limitRefused : ∀ limit : UInt64, (c.sock.setMaxQueuedBytes limit.toNat).1 = false →
    (c.sock.setMaxQueuedBytes limit.toNat).2 = c.sock

/-- A write is admitted when the limit leaves room for it. -/
theorem Outgoing.Valid.append_iff {q : Outgoing} (h : q.Valid) (data : List UInt8) :
    (q.append data).1 = true ↔ data.length ≤ q.limit - q.bytes := by
  unfold Outgoing.append
  rw [h.room]
  split
  · rename_i hlen
    exact ⟨nofun, fun hle => absurd hlen (Nat.not_lt.mpr hle)⟩
  · rename_i hlen
    exact ⟨fun _ => Nat.not_lt.mp hlen, fun _ => rfl⟩

theorem EventSocket.queueWrite_refused {accepts : Bool} {data : Option (List UInt8)}
    {s : EventSocket} (h : (s.queueWrite accepts data).1 = false) :
    (s.queueWrite accepts data).2 = s := by
  rcases s.queueWrite_cases accepts data with he | ⟨he, -⟩ | ⟨-, -, -, -, -, he⟩
  · rw [he]
  · rw [he] at h
    cases h
  · rw [he, EventSocket.withOutgoing_fst] at h
    rw [he, EventSocket.withOutgoing, Outgoing.append_refused h]

/-- An object that passes the checks admits what its queue has room for. -/
theorem EventSocket.queueWrite_iff {s : EventSocket} (hq : s.outgoing.Valid)
    (hvalid : s.isValidSocket = true) (hconn : s.connected = true) (hblock : s.blocking = false)
    (data : List UInt8) : (s.queueWrite true (some data)).1 = true ↔
      data.length ≤ s.outgoing.limit - s.queuedBytes := by
  unfold EventSocket.queueWrite
  rw [if_neg (by simp [hvalid, hconn, hblock])]
  dsimp only [Option.getD_some]
  split
  · rename_i hempty
    exact ⟨fun _ => by omega, fun _ => rfl⟩
  · exact hq.append_iff data

/-- What is queued grows by what is admitted, and stays within the limit. -/
theorem EventSocket.queueWrite_total {s : EventSocket} {accepts : Bool} {data : List UInt8}
    (hq : s.outgoing.Valid) (h : (s.queueWrite accepts (some data)).1 = true) :
    (s.queueWrite accepts (some data)).2.queuedBytes = s.queuedBytes + data.length ∧
      s.queuedBytes + data.length < 2 ^ 64 := by
  obtain ⟨hvalid, hpending⟩ := s.queueWrite_spec accepts (some data) hq
  have hsum : (s.queueWrite accepts (some data)).2.queuedBytes = s.queuedBytes + data.length := by
    rw [EventSocket.queuedBytes, hvalid.bytes_eq, hpending, if_pos h, List.length_append,
      ← hq.bytes_eq]
    rfl
  have hbound := Nat.lt_of_le_of_lt hvalid.bytes_le hvalid.limit_lt
  exact ⟨hsum, hsum ▸ hbound⟩

theorem AdmissionSpec.of_valid (accepts : σ → Bool) (c : Conn σ) (hq : c.sock.outgoing.Valid) :
    AdmissionSpec accepts c where
  bounded := hq.bytes_le
  room := by rw [hq.room, Nat.sub_add_cancel hq.bytes_le]
  total data := EventSocket.queueWrite_total hq
  queueWrite hvalid hconn hblock haccepts data := by
    rw [haccepts]
    exact EventSocket.queueWrite_iff hq hvalid hconn hblock data
  setMaxQueuedBytes limit := by
    rw [EventSocket.setMaxQueuedBytes, EventSocket.withOutgoing_fst, Outgoing.setLimit]
    split
    · rename_i hlt
      exact ⟨fun hset => absurd hset Bool.false_ne_true, fun hle => absurd hlt (Nat.not_lt.mpr hle)⟩
    · rename_i hle
      exact ⟨fun _ => Nat.not_lt.mp hle, fun _ => rfl⟩
  writeRefused data := EventSocket.queueWrite_refused
  limitRefused limit h := by
    rw [EventSocket.setMaxQueuedBytes, EventSocket.withOutgoing_fst, Outgoing.setLimit] at h
    rw [EventSocket.setMaxQueuedBytes, Outgoing.setLimit]
    split
    · rfl
    · rename_i hle
      rw [if_neg hle] at h
      cases h

/-- In every state of a run the queue is within its limit, and admits what the
limit leaves room for. -/
theorem admission_exact (h : Host) (t : Transport σ) (accepts : σ → Bool) (ops : List (QueueOp σ))
    (sock : Socket) (net : σ) :
    AdmissionSpec accepts (runQueue h t accepts ops ⟨{ toSocket := sock }, net⟩).1 :=
  .of_valid accepts _
    (runQueue_spec h t accepts ops ⟨{ toSocket := sock }, net⟩ Outgoing.Valid.empty).1

end Admission

end Aeon
