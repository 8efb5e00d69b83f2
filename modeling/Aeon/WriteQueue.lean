import Aeon.EventSocket

/-!
# The outgoing queue refines a first-in first-out byte stream

Every operation under the queue lock keeps `Outgoing.Valid`, and on
`Outgoing.pending` it is one step of `Fifo.Step`.
-/

namespace Aeon

open Errno

namespace Outgoing

theorem pending_clear (q : Outgoing) : q.clear.pending = [] := by simp [clear, pending]

theorem Valid.clear {q : Outgoing} (h : q.Valid) : q.clear.Valid :=
  ⟨Fifo.Tight.nil, by rw [pending_clear]; rfl, Nat.zero_le _, h.limit_lt⟩

theorem Valid.setLimit {q : Outgoing} {limit : ℕ} (h : q.Valid) (hl : limit < 2 ^ 64) :
    (q.setLimit limit).2.Valid := by
  unfold Outgoing.setLimit
  split
  · exact h
  · exact ⟨h.tight, h.bytes_eq, by dsimp only; omega, hl⟩

@[simp] theorem pending_setLimit (q : Outgoing) (limit : ℕ) :
    (q.setLimit limit).2.pending = q.pending := by
  unfold Outgoing.setLimit
  split <;> rfl

section Append

variable {chunks : List (List UInt8)} {data : List UInt8} {off : ℕ} {q : Outgoing}

/-- Appending either lengthens the last chunk or starts a new one. -/
theorem coalesce_cases (chunks : List (List UInt8)) (data : List UInt8) :
    (∃ init back, chunks = init ++ [back] ∧ coalesce chunks data = init ++ [back ++ data]) ∨
    coalesce chunks data = chunks ++ [data] := by
  unfold coalesce
  cases hb : chunks.getLast? with
  | none => exact Or.inr rfl
  | some back =>
    obtain ⟨init, rfl⟩ : ∃ init, chunks = init ++ [back] := by
      obtain ⟨init, h⟩ := List.getLast?_eq_some_iff.mp hb
      exact ⟨init, h⟩
    dsimp only
    split
    · exact Or.inl ⟨init, back, rfl, by simp⟩
    · exact Or.inr rfl

theorem content_coalesce (h : off ≤ chunks.flatten.length) :
    Fifo.content (coalesce chunks data) off = Fifo.content chunks off ++ data := by
  rcases coalesce_cases chunks data with ⟨init, back, rfl, hc⟩ | hc
  · rw [hc, Fifo.content_grow h]
  · rw [hc, Fifo.content_snoc h]

theorem tight_coalesce (h : Fifo.Tight chunks off) (hd : data ≠ []) :
    Fifo.Tight (coalesce chunks data) off := by
  rcases coalesce_cases chunks data with ⟨init, back, rfl, hc⟩ | hc
  · rw [hc]
    exact h.grow
  · rw [hc]
    exact h.snoc hd

/-- What remains of the first chunk only ever grows at its end. -/
theorem head_coalesce (data front : List UInt8) (rest : List (List UInt8)) :
    ∃ more rest', coalesce (front :: rest) data = (front ++ more) :: rest' := by
  rcases coalesce_cases (front :: rest) data with ⟨init, back, he, hc⟩ | hc
  · cases init with
    | nil =>
      simp only [List.nil_append, List.cons.injEq] at he
      exact ⟨data, [], by rw [hc, he.1]; rfl⟩
    | cons c cs =>
      simp only [List.cons_append, List.cons.injEq] at he
      exact ⟨[], cs ++ [back ++ data], by rw [hc, he.1]; simp⟩
  · exact ⟨[], rest ++ [data], by rw [hc]; simp⟩

theorem Valid.room (h : q.Valid) : sizeSub q.limit q.bytes = q.limit - q.bytes :=
  sizeSub_eq h.bytes_le (by have := h.limit_lt; omega)

theorem append_refused (h : (q.append data).1 = false) : (q.append data).2 = q := by
  unfold append at h ⊢
  split
  · rfl
  · rename_i hlen
    rw [if_neg hlen] at h
    cases h

theorem Valid.append (h : q.Valid) (hd : data ≠ []) :
    (q.append data).2.Valid ∧
      (q.append data).2.pending = if (q.append data).1 then q.pending ++ data else q.pending := by
  unfold Outgoing.append
  split
  · exact ⟨h, by simp⟩
  · rename_i hroom
    rw [h.room] at hroom
    have hbytes := h.bytes_le
    have hlimit := h.limit_lt
    have hsum : sizeAdd q.bytes data.length = q.bytes + data.length := sizeAdd_eq (by omega)
    have hcontent : Fifo.content (coalesce q.chunks data) q.frontOffset = q.pending ++ data :=
      content_coalesce h.tight.off_le
    refine ⟨⟨tight_coalesce h.tight hd, ?_, ?_, hlimit⟩, ?_⟩
    · simp only [hsum]
      rw [pending, hcontent, List.length_append, h.bytes_eq]
    · simp only [hsum]
      omega
    · simpa only [pending, if_true] using hcontent

end Append

section Advance

variable {q : Outgoing} {count : ℕ}

theorem Valid.front (h : q.Valid) (hb : q.bytes ≠ 0) :
    ∃ front rest, q.chunks = front :: rest ∧ q.frontOffset < front.length ∧
      front.length - q.frontOffset ≤ q.bytes := by
  cases hc : q.chunks with
  | nil =>
    have hbytes := h.bytes_eq
    simp only [pending, hc, Fifo.content_nil, List.length_nil] at hbytes
    exact absurd hbytes hb
  | cons front rest =>
    have hoff := h.tight.inFront front rest hc
    refine ⟨front, rest, rfl, hoff, ?_⟩
    rw [h.bytes_eq, pending, hc, Fifo.content_cons (Nat.le_of_lt hoff)]
    simp

theorem Valid.requested_eq (h : q.Valid) (left : ℕ) {front : List UInt8} {rest : List (List UInt8)}
    (hc : q.chunks = front :: rest) :
    q.requested left = min (min (front.length - q.frontOffset) left) intMax := by
  have hoff := h.tight.inFront front rest hc
  have hle : front.length - q.frontOffset ≤ q.bytes := by
    rw [h.bytes_eq, pending, hc, Fifo.content_cons (Nat.le_of_lt hoff)]
    simp
  have hb := h.bytes_le
  have hl := h.limit_lt
  rw [requested, hc, List.headD_cons, sizeSub_eq (Nat.le_of_lt hoff) (by omega)]

/-- The offered bytes are the first ones waiting, as many as were requested. -/
theorem Valid.request_eq (h : q.Valid) (left : ℕ) (hb : q.bytes ≠ 0) :
    q.request left = q.pending.take (q.requested left) ∧
      (q.request left).length = q.requested left ∧ q.requested left ≤ q.bytes := by
  obtain ⟨front, rest, hc, hoff, hle⟩ := h.front hb
  have hreq := h.requested_eq left hc
  have hk : q.requested left ≤ front.length - q.frontOffset := by rw [hreq]; omega
  have hdata : q.request left = (front.drop q.frontOffset).take (q.requested left) := by
    rw [request, hc, List.headD_cons]
  refine ⟨?_, ?_, Nat.le_trans hk hle⟩
  · rw [hdata, pending, hc, Fifo.take_content (Nat.le_of_lt hoff) hk]
  · rw [hdata, List.length_take, List.length_drop]
    omega

theorem Valid.requested_pos (h : q.Valid) {left : ℕ} (hb : q.bytes ≠ 0) (hl : left ≠ 0) :
    0 < q.requested left := by
  obtain ⟨front, rest, hc, hoff, -⟩ := h.front hb
  have hi : intMax ≠ 0 := by decide
  rw [h.requested_eq left hc]
  omega

theorem Valid.advance (h : q.Valid) {left : ℕ} (hb : q.bytes ≠ 0) (hk : count ≤ q.requested left) :
    (q.advance count).Valid ∧ (q.advance count).pending = q.pending.drop count := by
  obtain ⟨front, rest, hc, hoff, hle⟩ := h.front hb
  have hreq := h.requested_eq left hc
  have hcount : count ≤ front.length - q.frontOffset := by omega
  have hbytes := h.bytes_le
  have hlimit := h.limit_lt
  have hsub : sizeSub q.bytes count = q.bytes - count := sizeSub_eq (by omega) (by omega)
  have hlen : q.bytes - count = (q.pending.drop count).length := by
    rw [List.length_drop, h.bytes_eq]
  have htight := h.tight
  rw [hc] at htight
  by_cases hfin : q.frontOffset + count = front.length
  · have ha : q.advance count =
        { q with chunks := rest, frontOffset := 0, bytes := q.bytes - count } := by
      simp only [Outgoing.advance, hc, if_pos hfin, hsub]
    have hp : (q.advance count).pending = q.pending.drop count := by
      rw [ha, pending, pending, hc, Fifo.content_finish hfin]
    refine ⟨⟨?_, ?_, ?_, ?_⟩, hp⟩
    · rw [ha]
      exact htight.finish
    · rw [hp, ← hlen, ha]
    · rw [ha]
      dsimp only
      omega
    · rw [ha]
      exact hlimit
  · have ha : q.advance count =
        { q with frontOffset := q.frontOffset + count, bytes := q.bytes - count } := by
      simp only [Outgoing.advance, hc, if_neg hfin, hsub]
    have hp : (q.advance count).pending = q.pending.drop count := by
      rw [ha, pending, pending, Fifo.content_advance]
    refine ⟨⟨?_, ?_, ?_, ?_⟩, hp⟩
    · rw [ha]
      dsimp only
      rw [hc]
      exact htight.advance (by omega)
    · rw [hp, ← hlen, ha]
    · rw [ha]
      dsimp only
      omega
    · rw [ha]
      exact hlimit

end Advance

end Outgoing

section Flush

variable {σ : Type} {t : Transport σ}

theorem Transport.reported_ne (t : Transport σ) (s : σ) (errno : ℕ) : t.reported s errno ≠ 0 := by
  unfold Transport.reported
  split
  · rename_i h
    omega
  · have hne : (if errno ≠ 0 then errno else invalidDescriptorError) ≠ 0 := by
      split
      · assumption
      · decide
    have hlt := translateNativeError_lt hne
    simp only [socketError] at hlt
    omega

/-- The outcomes of one send that end a flush. -/
theorem flushOnce_stop {requested i : ℕ} {sent : IoResult} {s : σ} {r r' : FlushResult}
    {q q' : Outgoing} (h : flushOnce t requested sent s r q i = .stop r' q') :
    (r' = r ∧ q' = q ∧ sent.ret ≤ 0) ∨
    (r'.bytes = r.bytes ∧ r'.error ≠ 0 ∧ q' = q.clear ∧
      (sent.ret < 0 ∨ (requested : Int) < sent.ret)) := by
  unfold flushOnce at h
  split at h
  · rename_i hneg
    split at h
    · cases h
    · split at h
      · obtain ⟨rfl, rfl⟩ := FlushStep.stop.inj h
        exact Or.inl ⟨rfl, rfl, by omega⟩
      · obtain ⟨rfl, rfl⟩ := FlushStep.stop.inj h
        exact Or.inr ⟨rfl, t.reported_ne _ _, rfl, Or.inl hneg⟩
  · split at h
    · obtain ⟨rfl, rfl⟩ := FlushStep.stop.inj h
      exact Or.inl ⟨rfl, rfl, by omega⟩
    · split at h
      · obtain ⟨rfl, rfl⟩ := FlushStep.stop.inj h
        exact Or.inr ⟨rfl, show errSystem ≠ 0 by decide, rfl, Or.inr ‹_›⟩
      · cases h

/-- What a flush in progress has still to do, from a valid queue. -/
structure FlushSpec (r : FlushResult) (q : Outgoing) (f : Flushed σ) (k : ℕ) : Prop where
  valid : f.queue.Valid
  bytes : f.result.bytes = r.bytes + k
  le : k ≤ q.pending.length
  handed : handed f.calls = q.pending.take k
  kept : f.result.error = 0 → f.queue.pending = q.pending.drop k
  lost : f.result.error ≠ 0 → f.queue.pending = []

theorem taken_nonpos {d : List UInt8} {x : IoResult} (h : x.ret ≤ 0) : taken (d, x) = [] := by
  have hto : x.ret.toNat = 0 := by omega
  simp [taken, hto]

theorem taken_over {d : List UInt8} {x : IoResult} (h : (d.length : Int) < x.ret) :
    taken (d, x) = [] := if_pos h

theorem taken_of_le {d : List UInt8} {x : IoResult} (h : x.ret ≤ d.length) :
    taken (d, x) = d.take x.ret.toNat := if_neg (by dsimp only; omega)

@[simp] theorem handed_nil : handed [] = [] := rfl

@[simp] theorem handed_cons (c : List UInt8 × IoResult) (cs : List (List UInt8 × IoResult)) :
    handed (c :: cs) = taken c ++ handed cs := rfl

theorem flushLoop_stop {budget i : ℕ} {r r' : FlushResult} {q q' : Outgoing} {s : σ}
    (hb : q.bytes ≠ 0 ∧ r.bytes < budget)
    (hs : flushOnce t (q.requested (budget - r.bytes)) (t.send (q.request (budget - r.bytes)) s).1
      (t.send (q.request (budget - r.bytes)) s).2 r q i = .stop r' q') :
    flushLoop t budget r q i s = ⟨r', q', (t.send (q.request (budget - r.bytes)) s).2,
      [(q.request (budget - r.bytes), (t.send (q.request (budget - r.bytes)) s).1)]⟩ := by
  rw [flushLoop, dif_pos hb]
  dsimp only
  split
  · rename_i hs'
    rw [hs] at hs'
    obtain ⟨rfl, rfl⟩ := FlushStep.stop.inj hs'
    rfl
  · rename_i hs'
    rw [hs] at hs'
    cases hs'

theorem flushLoop_again {budget i i' : ℕ} {r r' : FlushResult} {q q' : Outgoing} {s : σ}
    (hb : q.bytes ≠ 0 ∧ r.bytes < budget)
    (hs : flushOnce t (q.requested (budget - r.bytes)) (t.send (q.request (budget - r.bytes)) s).1
      (t.send (q.request (budget - r.bytes)) s).2 r q i = .again r' q' i') :
    flushLoop t budget r q i s =
      let f := flushLoop t budget r' q' i' (t.send (q.request (budget - r.bytes)) s).2
      { f with calls :=
          (q.request (budget - r.bytes), (t.send (q.request (budget - r.bytes)) s).1) :: f.calls } := by
  conv_lhs => rw [flushLoop, dif_pos hb]
  dsimp only
  split
  · rename_i hs'
    rw [hs] at hs'
    cases hs'
  · rename_i hs'
    rw [hs] at hs'
    obtain ⟨rfl, rfl, rfl⟩ := FlushStep.again.inj hs'
    rfl

theorem flushLoop_done {budget i : ℕ} {r : FlushResult} {q : Outgoing} {s : σ}
    (hb : ¬(q.bytes ≠ 0 ∧ r.bytes < budget)) : flushLoop t budget r q i s = ⟨r, q, s, []⟩ := by
  rw [flushLoop, dif_neg hb]

/-- What every send of the transport keeps, a flush keeps. -/
theorem flushLoop_keeps {I : σ → Prop} (send : ∀ data s, I s → I (t.send data s).2) (budget : ℕ)
    (r : FlushResult) (q : Outgoing) (i : ℕ) (s : σ) (hs : I s) :
    I (flushLoop t budget r q i s).state := by
  induction r, q, i, s using flushLoop.induct t budget with
  | case1 r q i s hb data sent r' q' hstop =>
    rw [flushLoop_stop hb hstop]
    exact send _ s hs
  | case2 r q i s hb data sent r' q' i' hagain ih =>
    rw [flushLoop_again hb hagain]
    exact ih (send _ s hs)
  | case3 r q i s hb =>
    rw [flushLoop_done hb]
    exact hs

/-- What the first send establishes and every send keeps holds after the flush. -/
theorem flushLoop_first {I : σ → Prop} (send : ∀ data s, I s → I (t.send data s).2) {budget i : ℕ}
    {r : FlushResult} {q : Outgoing} {s : σ} (hb : q.bytes ≠ 0 ∧ r.bytes < budget)
    (hfirst : I (t.send (q.request (budget - r.bytes)) s).2) :
    I (flushLoop t budget r q i s).state := by
  cases hs : flushOnce t (q.requested (budget - r.bytes)) (t.send (q.request (budget - r.bytes)) s).1
      (t.send (q.request (budget - r.bytes)) s).2 r q i with
  | stop r' q' =>
    rw [flushLoop_stop hb hs]
    exact hfirst
  | again r' q' i' =>
    rw [flushLoop_again hb hs]
    exact flushLoop_keeps send budget r' q' i' _ hfirst

theorem flushQueued_keeps {I : σ → Prop} (send : ∀ data s, I s → I (t.send data s).2)
    (budget : ℕ) (s : EventSocket) (net : σ) (hnet : I net) :
    I (s.flushQueued t budget net).state := by
  unfold EventSocket.flushQueued
  split
  · exact hnet
  · exact flushLoop_keeps send budget {} s.outgoing 0 net hnet

theorem flushLoop_spec (budget : ℕ) (r : FlushResult) (q : Outgoing) (i : ℕ) (s : σ)
    (hq : q.Valid) (hr : r.error = 0) :
    ∃ k, FlushSpec r q (flushLoop t budget r q i s) k := by
  induction r, q, i, s using flushLoop.induct t budget with
  | case1 r q i s hb data sent r' q' hs =>
    obtain ⟨hdata, hlen, -⟩ := hq.request_eq (budget - r.bytes) hb.1
    rw [flushLoop_stop hb hs]
    rcases flushOnce_stop hs with ⟨rfl, rfl, hret⟩ | ⟨hbytes, herr, rfl, hret⟩
    · have htaken : handed [(data, sent.1)] = [] := by rw [handed_cons, taken_nonpos hret]; rfl
      exact ⟨0, hq, rfl, Nat.zero_le _, htaken, fun _ => rfl, fun h => absurd hr h⟩
    · have htaken : handed [(data, sent.1)] = [] := by
        rcases hret with hret | hret
        · rw [handed_cons, taken_nonpos (Int.le_of_lt hret)]
          rfl
        · rw [handed_cons, taken_over (by rw [hlen]; exact hret)]
          rfl
      exact ⟨0, hq.clear, hbytes, Nat.zero_le _, htaken, fun h => absurd h herr,
        fun _ => q.pending_clear⟩
  | case2 r q i s hb data sent r' q' i' hs ih =>
    obtain ⟨hdata, hlen, hle⟩ := hq.request_eq (budget - r.bytes) hb.1
    rw [flushLoop_again hb hs]
    rcases flushOnce_again hs with ⟨rfl, rfl, rfl, -, hret⟩ | ⟨hpos, hmax, rfl, rfl, rfl⟩
    · obtain ⟨k, hk⟩ := ih hq hr
      refine ⟨k, hk.valid, hk.bytes, hk.le, ?_, hk.kept, hk.lost⟩
      rw [handed_cons, taken_nonpos (Int.le_of_lt hret)]
      exact hk.handed
    · have hcount : sent.1.ret.toNat ≤ q.requested (budget - r.bytes) := by omega
      obtain ⟨hvalid, hpending⟩ := hq.advance hb.1 hcount
      obtain ⟨k, hk⟩ := ih hvalid hr
      have hkle := hk.le
      rw [hpending, List.length_drop, ← hq.bytes_eq] at hkle
      have hfirst (n : ℕ) (hn : n ≤ q.requested (budget - r.bytes)) :
          data.take n = q.pending.take n := by
        rw [show data = _ from hdata, List.take_take, Nat.min_eq_left hn]
      refine ⟨sent.1.ret.toNat + k, hk.valid, ?_, ?_, ?_, ?_, hk.lost⟩
      · exact hk.bytes.trans (Nat.add_assoc _ _ _)
      · rw [← hq.bytes_eq]
        omega
      · rw [handed_cons, taken_of_le (by rw [hlen]; exact hmax), List.take_add, ← hpending]
        exact congr_arg₂ (· ++ ·) (hfirst _ hcount) hk.handed
      · intro he
        exact (hk.kept he).trans (by rw [hpending, List.drop_drop])
  | case3 r q i s hb =>
    rw [flushLoop_done hb]
    exact ⟨0, hq, rfl, Nat.zero_le _, rfl, fun _ => rfl, fun h => absurd hr h⟩

/-- A flush hands over exactly the first bytes waiting, and keeps the others
unless it reports an error. -/
theorem flushQueued_spec (budget : ℕ) (s : EventSocket) (net : σ) (hq : s.outgoing.Valid) :
    ∃ k, FlushSpec {} s.outgoing (s.flushQueued t budget net) k := by
  unfold EventSocket.flushQueued
  split
  · exact ⟨0, hq, rfl, Nat.zero_le _, rfl, fun _ => rfl, fun h => absurd rfl h⟩
  · obtain ⟨k, hk⟩ := flushLoop_spec (t := t) budget {} s.outgoing 0 net hq rfl
    exact ⟨k, hk.valid, hk.bytes, hk.le, hk.handed, hk.kept, hk.lost⟩

end Flush

section Runs

variable {σ : Type}

/-- An event socket and the state of whatever carries its bytes. -/
structure Conn (σ : Type) where
  sock : EventSocket
  net : σ

/-- The operations on the queue.  `other` stands for all else that happens to
the object in between: it leaves the queue alone. -/
inductive QueueOp (σ : Type)
  | queueWrite (data : Option (List UInt8))
  | setMaxQueuedBytes (limit : UInt64)
  | flush (budget : UInt64)
  | close
  | other (sock : Socket) (net : σ)

/-- The operation on a connection, and what an observer of the stream sees. -/
def QueueOp.exec (h : Host) (t : Transport σ) (accepts : σ → Bool) (c : Conn σ) :
    QueueOp σ → Conn σ × Fifo.Obs UInt8
  | .queueWrite data =>
    let r := c.sock.queueWrite (accepts c.net) data
    ({ c with sock := r.2 }, if r.1 then .accepted (data.getD []) else .refused)
  | .setMaxQueuedBytes limit =>
    ({ c with sock := (c.sock.setMaxQueuedBytes limit.toNat).2 }, .refused)
  | .flush budget =>
    let f := c.sock.flushQueued t budget.toNat c.net
    (⟨{ c.sock with outgoing := f.queue }, f.state⟩,
      if f.result.error = 0 then .taken (handed f.calls) else .failed (handed f.calls))
  | .close => ({ c with sock := (c.sock.close h).2 }, .discarded)
  | .other sock net => (⟨{ c.sock with toSocket := sock }, net⟩, .refused)

def runQueue (h : Host) (t : Transport σ) (accepts : σ → Bool) :
    List (QueueOp σ) → Conn σ → Conn σ × List (Fifo.Obs UInt8)
  | [], c => (c, [])
  | o :: ops, c =>
    let r := o.exec h t accepts c
    let rs := runQueue h t accepts ops r.1
    (rs.1, r.2 :: rs.2)

/-- What every operation does from a connection, in terms of the pending bytes. -/
structure QueueSpec (h : Host) (t : Transport σ) (accepts : σ → Bool) (c : Conn σ) : Prop where
  queuedBytes : c.sock.queuedBytes = c.sock.outgoing.pending.length
  frontOffset : ∀ front rest, c.sock.outgoing.chunks = front :: rest →
    c.sock.outgoing.frontOffset < front.length
  atStart : c.sock.outgoing.chunks = [] → c.sock.outgoing.frontOffset = 0
  queueWrite : ∀ data, (c.sock.queueWrite (accepts c.net) data).2.outgoing.pending =
    if (c.sock.queueWrite (accepts c.net) data).1 then c.sock.outgoing.pending ++ data.getD []
    else c.sock.outgoing.pending
  setMaxQueuedBytes : ∀ limit : UInt64,
    (c.sock.setMaxQueuedBytes limit.toNat).2.outgoing.pending = c.sock.outgoing.pending
  flushHanded : ∀ budget : UInt64,
    (c.sock.flushQueued t budget.toNat c.net).result.bytes ≤ c.sock.outgoing.pending.length ∧
    handed (c.sock.flushQueued t budget.toNat c.net).calls =
      c.sock.outgoing.pending.take (c.sock.flushQueued t budget.toNat c.net).result.bytes
  flushKept : ∀ budget : UInt64, (c.sock.flushQueued t budget.toNat c.net).queue.pending =
    if (c.sock.flushQueued t budget.toNat c.net).result.error = 0 then
      c.sock.outgoing.pending.drop (c.sock.flushQueued t budget.toNat c.net).result.bytes
    else []
  close : (c.sock.close h).2.outgoing.pending = []

/-- What `queue_write` can do: refuse, accept nothing, or leave it to the queue. -/
theorem EventSocket.queueWrite_cases (accepts : Bool) (data : Option (List UInt8))
    (s : EventSocket) :
    s.queueWrite accepts data = (false, s) ∨
    (s.queueWrite accepts data = (true, s) ∧ data.getD [] = []) ∨
    (data.getD [] ≠ [] ∧ s.isValidSocket = true ∧ s.connected = true ∧ s.blocking = false ∧
      accepts = true ∧
      s.queueWrite accepts data = s.withOutgoing (s.outgoing.append (data.getD []))) := by
  by_cases hg : (!s.isValidSocket || !s.connected || s.blocking || data.isNone || !accepts) = true
  · exact Or.inl (if_pos hg)
  · have he : s.queueWrite accepts data = if (data.getD []).length = 0 then (true, s)
        else s.withOutgoing (s.outgoing.append (data.getD [])) := if_neg hg
    by_cases hd : data.getD [] = []
    · exact Or.inr (Or.inl ⟨by rw [he, hd]; rfl, hd⟩)
    · rw [if_neg fun h => hd (List.length_eq_zero_iff.mp h)] at he
      simp only [Bool.or_eq_true, Bool.not_eq_true', not_or, Bool.not_eq_true,
        Bool.not_eq_false] at hg
      obtain ⟨⟨⟨⟨hvalid, hconn⟩, hblock⟩, -⟩, haccepts⟩ := hg
      exact Or.inr (Or.inr ⟨hd, hvalid, hconn, hblock, haccepts, he⟩)

theorem EventSocket.queueWrite_spec (accepts : Bool) (data : Option (List UInt8)) (s : EventSocket)
    (hq : s.outgoing.Valid) :
    (s.queueWrite accepts data).2.outgoing.Valid ∧
      (s.queueWrite accepts data).2.outgoing.pending =
        if (s.queueWrite accepts data).1 then s.outgoing.pending ++ data.getD []
        else s.outgoing.pending := by
  rcases s.queueWrite_cases accepts data with he | ⟨he, hd⟩ | ⟨hd, -, -, -, -, he⟩
  · rw [he]
    exact ⟨hq, by simp⟩
  · rw [he, hd]
    exact ⟨hq, by simp⟩
  · rw [he, EventSocket.withOutgoing_outgoing, EventSocket.withOutgoing_fst]
    exact hq.append hd

theorem QueueSpec.of_valid (h : Host) (t : Transport σ) (accepts : σ → Bool) (c : Conn σ)
    (hq : c.sock.outgoing.Valid) : QueueSpec h t accepts c where
  queuedBytes := hq.bytes_eq
  frontOffset := hq.tight.inFront
  atStart := hq.tight.atStart
  queueWrite data := (c.sock.queueWrite_spec _ data hq).2
  setMaxQueuedBytes limit := by
    rw [EventSocket.setMaxQueuedBytes, EventSocket.withOutgoing_outgoing]
    exact Outgoing.pending_setLimit _ _
  flushHanded budget := by
    obtain ⟨k, hk⟩ := flushQueued_spec (t := t) budget.toNat c.sock c.net hq
    have hb : (c.sock.flushQueued t budget.toNat c.net).result.bytes = k :=
      hk.bytes.trans (Nat.zero_add k)
    exact ⟨hb ▸ hk.le, hb ▸ hk.handed⟩
  flushKept budget := by
    obtain ⟨k, hk⟩ := flushQueued_spec (t := t) budget.toNat c.sock c.net hq
    have hb : (c.sock.flushQueued t budget.toNat c.net).result.bytes = k :=
      hk.bytes.trans (Nat.zero_add k)
    split
    · rename_i he
      rw [hk.kept he, hb]
    · exact hk.lost ‹_›
  close := Outgoing.pending_clear _

theorem QueueOp.exec_spec (h : Host) (t : Transport σ) (accepts : σ → Bool) (c : Conn σ)
    (hq : c.sock.outgoing.Valid) (o : QueueOp σ) :
    (o.exec h t accepts c).1.sock.outgoing.Valid ∧
      Fifo.Step c.sock.outgoing.pending (o.exec h t accepts c).2
        (o.exec h t accepts c).1.sock.outgoing.pending := by
  have hspec := QueueSpec.of_valid h t accepts c hq
  cases o with
  | queueWrite data =>
    refine ⟨(c.sock.queueWrite_spec _ data hq).1, ?_⟩
    simp only [QueueOp.exec, hspec.queueWrite data]
    split
    · exact .accept _
    · exact .refuse
  | setMaxQueuedBytes limit =>
    have hvalid := hq.setLimit limit.toNat_lt
    refine ⟨hvalid, ?_⟩
    simp only [QueueOp.exec, hspec.setMaxQueuedBytes limit]
    exact .refuse
  | flush budget =>
    obtain ⟨k, hk⟩ := flushQueued_spec (t := t) budget.toNat c.sock c.net hq
    refine ⟨hk.valid, ?_⟩
    simp only [QueueOp.exec, hspec.flushKept budget, (hspec.flushHanded budget).2]
    split
    · exact .take _
    · exact .fail _
  | close =>
    refine ⟨hq.clear, ?_⟩
    simp only [QueueOp.exec, hspec.close]
    exact .discard
  | other sock net => exact ⟨hq, .refuse⟩

theorem runQueue_spec (h : Host) (t : Transport σ) (accepts : σ → Bool) (ops : List (QueueOp σ))
    (c : Conn σ) (hq : c.sock.outgoing.Valid) :
    (runQueue h t accepts ops c).1.sock.outgoing.Valid ∧
      Fifo.Run c.sock.outgoing.pending (runQueue h t accepts ops c).2
        (runQueue h t accepts ops c).1.sock.outgoing.pending := by
  induction ops generalizing c with
  | nil => exact ⟨hq, .nil _⟩
  | cons o ops ih =>
    obtain ⟨hvalid, hstep⟩ := o.exec_spec h t accepts c hq
    obtain ⟨hrest, hrun⟩ := ih _ hvalid
    exact ⟨hrest, .cons hstep hrun⟩

theorem Outgoing.Valid.empty : ({} : Outgoing).Valid :=
  ⟨Fifo.Tight.nil, rfl, Nat.zero_le _, by decide⟩

/-- From a new queue, every run of queue operations over every transport is a
run of the byte stream, and nothing accepted is lost, repeated or reordered
unless an error or a close empties the stream. -/
theorem runQueue_refines_stream (h : Host) (t : Transport σ) (accepts : σ → Bool)
    (ops : List (QueueOp σ)) (sock : Socket) (net : σ) :
    QueueSpec h t accepts (runQueue h t accepts ops ⟨{ toSocket := sock }, net⟩).1 ∧
    Fifo.Run [] (runQueue h t accepts ops ⟨{ toSocket := sock }, net⟩).2
      (runQueue h t accepts ops ⟨{ toSocket := sock }, net⟩).1.sock.outgoing.pending ∧
    ((∀ o ∈ (runQueue h t accepts ops ⟨{ toSocket := sock }, net⟩).2, o.Lossless) →
      (runQueue h t accepts ops ⟨{ toSocket := sock }, net⟩).2.flatMap Fifo.Obs.acceptedItems =
        (runQueue h t accepts ops ⟨{ toSocket := sock }, net⟩).2.flatMap Fifo.Obs.takenItems ++
          (runQueue h t accepts ops ⟨{ toSocket := sock }, net⟩).1.sock.outgoing.pending) := by
  obtain ⟨hvalid, hrun⟩ :=
    runQueue_spec h t accepts ops ⟨{ toSocket := sock }, net⟩ Outgoing.Valid.empty
  exact ⟨QueueSpec.of_valid h t accepts _ hvalid, hrun, fun hl => hrun.conserves hl⟩

end Runs

end Aeon
