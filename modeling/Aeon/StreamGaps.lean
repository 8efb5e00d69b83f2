import Aeon.EventOps

/-!
# The byte stream of one plain connection

What `queue_write` accepts on a plain TCP connection and what the flushes of
`poll` hand to the transport.  A send that fails empties the queue and leaves
the connection open, so the stream may go on behind a gap.
-/

namespace Aeon

open Errno

/-- An answer of the transport that ends a flush with an error. -/
def FatalSend (call : List UInt8 × IoResult) : Prop :=
  call.2.ret < 0 ∧ wouldBlockError call.2.errno = false ∨ (call.1.length : Int) < call.2.ret

/-- After a fatal answer the transport takes nothing more. -/
def StopsAfterFault (calls : List (List UInt8 × IoResult)) : Prop :=
  calls.Pairwise fun call later => FatalSend call → taken later = []

theorem handed_eq_nil {calls : List (List UInt8 × IoResult)} :
    handed calls = [] ↔ ∀ call ∈ calls, taken call = [] := List.flatMap_eq_nil_iff

/-- What one answer means for the flush that it ends. -/
theorem flushOnce_stop_fatal {σ : Type} {t : Transport σ} {i : ℕ} {data : List UInt8}
    {sent : IoResult} {s : σ} {r r' : FlushResult} {q q' : Outgoing} (hr : r.error = 0)
    (h : flushOnce t data.length sent s r q i = .stop r' q') :
    r'.error ≠ 0 ↔ FatalSend (data, sent) := by
  unfold flushOnce at h
  split at h
  · rename_i hneg
    split at h
    · cases h
    · rename_i hagain
      split at h
      · rename_i hblock
        obtain ⟨rfl, rfl⟩ := FlushStep.stop.inj h
        have hwould : wouldBlockError sent.errno = true := by
          rcases hblock with heintr | hblock
          · rw [heintr]
            rfl
          · exact hblock
        refine ⟨fun hne => absurd hr hne, fun hfatal => ?_⟩
        rcases hfatal with ⟨-, hnot⟩ | hover
        · rw [hwould] at hnot
          cases hnot
        · dsimp only at hover
          omega
      · rename_i hblock
        obtain ⟨rfl, rfl⟩ := FlushStep.stop.inj h
        refine ⟨fun _ => .inl ⟨hneg, ?_⟩, fun _ => t.reported_ne _ _⟩
        exact Bool.eq_false_iff.mpr fun hwould => hblock (.inr hwould)
  · rename_i hneg
    split at h
    · rename_i hzero
      obtain ⟨rfl, rfl⟩ := FlushStep.stop.inj h
      refine ⟨fun hne => absurd hr hne, fun hfatal => ?_⟩
      rcases hfatal with hfatal | hover
      · exact absurd hfatal.1 hneg
      · dsimp only at hover
        omega
    · split at h
      · rename_i hover
        obtain ⟨rfl, rfl⟩ := FlushStep.stop.inj h
        exact ⟨fun _ => .inr hover, fun _ => show errSystem ≠ 0 by decide⟩
      · cases h

theorem flushOnce_again_sound {σ : Type} {t : Transport σ} {i i' : ℕ} {data : List UInt8}
    {sent : IoResult} {s : σ} {r r' : FlushResult} {q q' : Outgoing}
    (h : flushOnce t data.length sent s r q i = .again r' q' i') : ¬FatalSend (data, sent) := by
  rintro (⟨hneg, hnot⟩ | hover)
  · dsimp only at hneg hnot
    unfold flushOnce at h
    rw [if_pos hneg] at h
    split at h
    · rename_i hi
      rw [hi.1] at hnot
      cases hnot
    · split at h <;> cases h
  · dsimp only at hover
    rcases flushOnce_again h with ⟨-, -, -, -, hneg⟩ | ⟨-, hle, -⟩ <;> omega

/-- A flush that fails has bytes left to lose, and its last call is the fatal one. -/
structure FaultSpec {σ : Type} (r : FlushResult) (q : Outgoing) (f : Flushed σ) : Prop where
  stops : StopsAfterFault f.calls
  fault : f.result.error ≠ 0 ↔ ∃ call ∈ f.calls, FatalSend call
  left : f.result.error ≠ 0 → f.result.bytes - r.bytes < q.bytes

theorem flushLoop_fault {σ : Type} {t : Transport σ} (budget : ℕ) (r : FlushResult) (q : Outgoing)
    (i : ℕ) (s : σ) (hq : q.Valid) (hr : r.error = 0) :
    FaultSpec r q (flushLoop t budget r q i s) := by
  induction r, q, i, s using flushLoop.induct t budget with
  | case1 r q i s hb data sent r' q' hstop =>
    have hlen := (hq.request_eq (budget - r.bytes) hb.1).2.1
    rw [flushLoop_stop hb hstop]
    have hfatal : r'.error ≠ 0 ↔ FatalSend (data, sent.1) :=
      flushOnce_stop_fatal hr (by rw [hlen]; exact hstop)
    refine ⟨List.pairwise_singleton _ _, hfatal.trans (by simp [data, sent]), fun _ => ?_⟩
    rcases flushOnce_stop hstop with ⟨rfl, -, -⟩ | ⟨hbytes, -, -, -⟩
    · rw [Nat.sub_self]
      exact Nat.pos_of_ne_zero hb.1
    · rw [hbytes, Nat.sub_self]
      exact Nat.pos_of_ne_zero hb.1
  | case2 r q i s hb data sent r' q' i' hagain ih =>
    obtain ⟨-, hlen, -⟩ := hq.request_eq (budget - r.bytes) hb.1
    rw [flushLoop_again hb hagain]
    have hsound : ¬FatalSend (data, sent.1) := flushOnce_again_sound (by rw [hlen]; exact hagain)
    have hcons {f : Flushed σ} (hf : FaultSpec r' q' f)
        (hleft : f.result.error ≠ 0 → f.result.bytes - r.bytes < q.bytes) :
        FaultSpec r q { f with calls := (data, sent.1) :: f.calls } := by
      refine ⟨List.pairwise_cons.mpr ⟨fun _ _ h => absurd h hsound, hf.stops⟩, ?_, hleft⟩
      refine hf.fault.trans ⟨?_, ?_⟩
      · rintro ⟨call, hc, h⟩
        exact ⟨call, List.mem_cons_of_mem _ hc, h⟩
      rintro ⟨call, hc, h⟩
      rcases List.mem_cons.mp hc with rfl | hc
      · exact absurd h hsound
      · exact ⟨call, hc, h⟩
    rcases flushOnce_again hagain with ⟨rfl, rfl, rfl, -, -⟩ | ⟨hpos, hmax, rfl, rfl, rfl⟩
    · have hrest := ih hq hr
      exact hcons hrest hrest.left
    · have hcount : sent.1.ret.toNat ≤ q.requested (budget - r.bytes) := by omega
      obtain ⟨hvalid, hpending⟩ := hq.advance hb.1 hcount
      have hleft {f : Flushed σ} (hf : FaultSpec { r with bytes := r.bytes + sent.1.ret.toNat }
          (q.advance sent.1.ret.toNat) f) (herror : f.result.error ≠ 0) :
          f.result.bytes - r.bytes < q.bytes := by
        have hless := hf.left herror
        rw [hvalid.bytes_eq, hpending, List.length_drop, ← hq.bytes_eq] at hless
        dsimp only at hless
        omega
      exact hcons (ih hvalid hr) (hleft (ih hvalid hr))
  | case3 r q i s hb =>
    rw [flushLoop_done hb]
    refine ⟨List.Pairwise.nil, ⟨fun h => absurd hr h, ?_⟩, fun h => absurd hr h⟩
    rintro ⟨_, h, _⟩
    exact absurd h List.not_mem_nil

theorem flushQueued_fault {σ : Type} {t : Transport σ} (budget : ℕ) (s : EventSocket) (net : σ)
    (hq : s.outgoing.Valid) : FaultSpec {} s.outgoing (s.flushQueued t budget net) := by
  unfold EventSocket.flushQueued
  split
  · exact ⟨List.Pairwise.nil, ⟨fun h => absurd rfl h, fun ⟨_, h, _⟩ => absurd h List.not_mem_nil⟩,
      fun h => absurd rfl h⟩
  · have hfault := flushLoop_fault (t := t) budget {} s.outgoing 0 net hq rfl
    exact ⟨hfault.stops, hfault.fault, hfault.left⟩

/-- One connection of a plain socket: what has been accepted on it, the calls of
its transport, and the places in the accepted bytes that these calls took. -/
structure Stream where
  sock : EventSocket
  accepted : List UInt8 := []
  calls : List (List UInt8 × IoResult) := []
  places : List ℕ := []

/-- Where the first queued byte is among the accepted ones: those queued are the last. -/
def Stream.next (st : Stream) : ℕ := st.accepted.length - st.sock.queuedBytes

/-- The calls on the queue of the connection, and the flush of `poll`. -/
inductive StreamOp
  | queueWrite (data : Option (List UInt8))
  | setMaxQueuedBytes (limit : UInt64)
  | flush

namespace Stream

variable (h : Host)

def exec (st : Stream) : StreamOp → Stream
  | .queueWrite data =>
    let r := st.sock.queueWrite true data
    { st with sock := r.2, accepted := if r.1 then st.accepted ++ data.getD [] else st.accepted }
  | .setMaxQueuedBytes limit => { st with sock := (st.sock.setMaxQueuedBytes limit.toNat).2 }
  | .flush =>
    let f := st.sock.flushQueued (EventSocket.transport h) sendBudget st.sock.toSocket
    { st with
      sock := { toSocket := f.state, outgoing := f.queue }
      calls := st.calls ++ f.calls
      places := st.places ++ List.range' st.next (handed f.calls).length }

/-- A connection starts with an empty queue. -/
def run (sock : Socket) (ops : List StreamOp) : Stream :=
  ops.foldl (exec h) { sock := { toSocket := sock } }

/-- The transport has been handed the first accepted bytes, with none left out. -/
def Whole (st : Stream) : Prop := st.places = List.range st.places.length

/-- What an application and `poll` do with the object. -/
theorem exec_object (e : NetHost) (st : Stream) :
    (∀ data, ((EventObject.tcp st.sock).queueWrite data).2 =
      .tcp (st.exec e.tls.toHost (.queueWrite data)).sock) ∧
    ((EventObject.tcp st.sock).flushQueued e).2 = .tcp (st.exec e.tls.toHost .flush).sock := by
  refine ⟨fun _ => rfl, ?_⟩
  unfold EventObject.flushQueued
  dsimp only
  split <;> rfl

/-- The bookkeeping of a connection agrees with its queue. -/
structure Consistent (st : Stream) : Prop where
  valid : st.sock.outgoing.Valid
  pending : st.sock.outgoing.pending = st.accepted.drop st.next
  queued_le : st.sock.queuedBytes ≤ st.accepted.length
  handed : handed st.calls = st.places.map fun i => st.accepted.getD i 0
  places_lt : ∀ i ∈ st.places, i < st.next
  sound : (∀ call ∈ st.calls, ¬FatalSend call) → st.places = List.range st.next
  stopped : (∃ call ∈ st.calls, FatalSend call) → StopsAfterFault st.calls →
    ∃ n, st.places = List.range n ∧ n < st.next
  broken : ¬StopsAfterFault st.calls → ¬st.Whole

section Places

theorem take_drop_eq_map {α : Type} (l : List α) (x : α) {a k : ℕ} (h : a + k ≤ l.length) :
    (l.drop a).take k = (List.range' a k).map fun i => l.getD i x := by
  refine List.ext_getElem (by simp; omega) fun i hi _ => ?_
  simp only [List.length_take, List.length_drop] at hi
  simp [List.getElem?_eq_getElem (show a + i < l.length by omega)]

/-- A range that is continued elsewhere is no range. -/
theorem range_append {places more : List ℕ}
    (h : places ++ more = List.range (places ++ more).length) :
    places = List.range places.length ∧ ∀ a m, more = List.range' a (m + 1) → a = places.length := by
  refine ⟨?_, fun a m hmore => ?_⟩
  · have htake := congrArg (List.take places.length) h
    rwa [List.take_left, List.length_append, List.take_range, Nat.min_eq_left (Nat.le_add_right _ _)]
      at htake
  · have hget := congrArg (fun l => l[places.length]?) h
    simpa [hmore, List.getElem?_append_right, List.getElem?_range] using hget

end Places

namespace Consistent

variable {st : Stream} (hst : st.Consistent)

theorem start (sock : Socket) : ({ sock := { toSocket := sock } } : Stream).Consistent where
  valid := Outgoing.Valid.empty
  pending := rfl
  queued_le := Nat.le_refl _
  handed := rfl
  places_lt := nofun
  sound _ := rfl
  stopped := fun ⟨_, h, _⟩ => absurd h List.not_mem_nil
  broken h := absurd List.Pairwise.nil h

include hst

theorem queueWrite (data : Option (List UInt8)) : (st.exec h (.queueWrite data)).Consistent := by
  obtain ⟨hvalid, hpending⟩ := st.sock.queueWrite_spec true data hst.valid
  have hqueued : (st.sock.queueWrite true data).2.queuedBytes = st.sock.queuedBytes +
      if (st.sock.queueWrite true data).1 then (data.getD []).length else 0 := by
    rw [EventSocket.queuedBytes, hvalid.bytes_eq, hpending, EventSocket.queuedBytes,
      hst.valid.bytes_eq]
    split
    · exact List.length_append
    · rfl
  have hlength : (st.exec h (.queueWrite data)).accepted.length = st.accepted.length +
      if (st.sock.queueWrite true data).1 then (data.getD []).length else 0 := by
    show (if (st.sock.queueWrite true data).1 then _ else _ : List UInt8).length = _
    split
    · exact List.length_append
    · rfl
  have hle := hst.queued_le
  have hnext : (st.exec h (.queueWrite data)).next = st.next := by
    show (st.exec h (.queueWrite data)).accepted.length -
      (st.sock.queueWrite true data).2.queuedBytes = _
    rw [hlength, hqueued, next]
    omega
  have hgrow : st.accepted <+: (st.exec h (.queueWrite data)).accepted := by
    show st.accepted <+: if (st.sock.queueWrite true data).1 then _ else _
    split
    · exact List.prefix_append _ _
    · exact List.prefix_refl _
  refine ⟨hvalid, ?_, ?_, ?_, ?_, ?_, ?_, hst.broken⟩
  · rw [hnext]
    show (st.sock.queueWrite true data).2.outgoing.pending =
      List.drop st.next (if (st.sock.queueWrite true data).1 then _ else _)
    rw [hpending, hst.pending]
    split
    · exact (List.drop_append_of_le_length (Nat.sub_le _ _)).symm
    · rfl
  · show (st.sock.queueWrite true data).2.queuedBytes ≤ _
    rw [hlength, hqueued]
    omega
  · refine hst.handed.trans (List.map_congr_left fun i hi => ?_)
    obtain ⟨more, hmore⟩ := hgrow
    have hlt := Nat.lt_of_lt_of_le (hst.places_lt i hi) (Nat.sub_le _ _)
    rw [← hmore, List.getD_eq_getElem?_getD, List.getD_eq_getElem?_getD, List.getElem?_append_left hlt]
  · exact fun i hi => hnext ▸ hst.places_lt i hi
  · exact fun hsound => hnext ▸ hst.sound hsound
  · exact fun hfault hstops => hnext ▸ hst.stopped hfault hstops

theorem setMaxQueuedBytes (limit : UInt64) : (st.exec h (.setMaxQueuedBytes limit)).Consistent := by
  have hbytes : (st.sock.setMaxQueuedBytes limit.toNat).2.queuedBytes = st.sock.queuedBytes := by
    show ((st.sock.outgoing.setLimit limit.toNat).2).bytes = _
    unfold Outgoing.setLimit
    split <;> rfl
  have hnext : (st.exec h (.setMaxQueuedBytes limit)).next = st.next := by
    show st.accepted.length - (st.sock.setMaxQueuedBytes limit.toNat).2.queuedBytes = _
    rw [hbytes, next]
  refine ⟨hst.valid.setLimit limit.toNat_lt, ?_, ?_, hst.handed, ?_, ?_, ?_, hst.broken⟩
  · rw [hnext]
    exact (Outgoing.pending_setLimit _ _).trans hst.pending
  · show (st.sock.setMaxQueuedBytes limit.toNat).2.queuedBytes ≤ _
    rw [hbytes]
    exact hst.queued_le
  · exact fun i hi => hnext ▸ hst.places_lt i hi
  · exact fun hsound => hnext ▸ hst.sound hsound
  · exact fun hfault hstops => hnext ▸ hst.stopped hfault hstops

/-- A flush hands over the first queued bytes, and an error leaves nothing queued. -/
theorem flush : (st.exec h .flush).Consistent := by
  obtain ⟨k, hk⟩ := flushQueued_spec (t := EventSocket.transport h) sendBudget st.sock
    st.sock.toSocket hst.valid
  have hfault := flushQueued_fault (t := EventSocket.transport h) sendBudget st.sock
    st.sock.toSocket hst.valid
  revert hk hfault
  show ∀ (hk : FlushSpec {} st.sock.outgoing _ k) (hfault : FaultSpec {} st.sock.outgoing _),
    Consistent { st with
      sock := { toSocket := _, outgoing := _ }
      calls := st.calls ++ _
      places := st.places ++ List.range' st.next (Aeon.handed _).length }
  generalize st.sock.flushQueued (EventSocket.transport h) sendBudget st.sock.toSocket = f
  intro hk hfault
  have hqueued : st.sock.queuedBytes = st.sock.outgoing.pending.length := hst.valid.bytes_eq
  have hle := hst.queued_le
  have hkle := hk.le
  have hcount : (Aeon.handed f.calls).length = k := by
    rw [hk.handed, List.length_take, Nat.min_eq_left hkle]
  have hbytes : f.result.bytes = k := hk.bytes.trans (Nat.zero_add k)
  have hnext : st.accepted.length - f.queue.bytes =
      if f.result.error = 0 then st.next + k else st.accepted.length := by
    rw [hk.valid.bytes_eq, next]
    split
    · rw [hk.kept ‹_›, List.length_drop]
      omega
    · rw [hk.lost ‹_›]
      rfl
  have hahead : st.next + k ≤ st.accepted.length - f.queue.bytes := by
    rw [hnext]
    split
    · exact Nat.le_refl _
    · rw [next]
      omega
  rw [hcount]
  refine ⟨hk.valid, ?_, ?_, ?_, fun i hi => ?_, fun hsound => ?_, fun hfaulty hstops => ?_, fun hgoes => ?_⟩
  · show f.queue.pending = List.drop (st.accepted.length - f.queue.bytes) st.accepted
    rw [hnext]
    split
    · rw [hk.kept ‹_›, hst.pending, List.drop_drop]
    · rw [hk.lost ‹_›, List.drop_length]
  · show f.queue.bytes ≤ st.accepted.length
    rw [hk.valid.bytes_eq]
    by_cases herror : f.result.error = 0
    · rw [hk.kept herror, List.length_drop]
      omega
    · rw [hk.lost herror]
      exact Nat.zero_le _
  · show Aeon.handed (st.calls ++ f.calls) = _
    rw [Aeon.handed, List.flatMap_append, ← Aeon.handed, ← Aeon.handed, List.map_append, hst.handed,
      hk.handed, hst.pending, take_drop_eq_map _ 0]
    rw [next]
    omega
  · show i < st.accepted.length - f.queue.bytes
    rcases List.mem_append.mp hi with hold | hnew
    · have hlt := hst.places_lt i hold
      omega
    · have hlt := (List.mem_range'_1.mp hnew).2
      omega
  · show st.places ++ List.range' st.next k = List.range (st.accepted.length - f.queue.bytes)
    have hok : f.result.error = 0 := by
      by_contra herror
      obtain ⟨call, hc, hfatal⟩ := hfault.fault.mp herror
      exact hsound call (List.mem_append_right _ hc) hfatal
    rw [hnext, if_pos hok, hst.sound fun call hc => hsound call (List.mem_append_left _ hc),
      List.range_eq_range', List.range_eq_range', ← List.range'_append_1, Nat.zero_add]
  · show ∃ n, st.places ++ List.range' st.next k = List.range n ∧ n < st.accepted.length - f.queue.bytes
    by_cases hbefore : ∃ call ∈ st.calls, FatalSend call
    · obtain ⟨hold, -, hcross⟩ := List.pairwise_append.mp hstops
      obtain ⟨n, hplaces, hlt⟩ := hst.stopped hbefore hold
      obtain ⟨call, hc, hfatal⟩ := hbefore
      have hnone := handed_eq_nil.mpr fun later hl => hcross call hc later hl hfatal
      rw [hnone] at hcount
      refine ⟨n, ?_, by omega⟩
      rw [← hcount]
      exact (List.append_nil _).trans hplaces
    · have hsound := hst.sound fun call hc hfatal => hbefore ⟨call, hc, hfatal⟩
      have herror : f.result.error ≠ 0 := by
        obtain ⟨call, hc, hfatal⟩ := hfaulty
        rcases List.mem_append.mp hc with hc | hc
        · exact absurd ⟨call, hc, hfatal⟩ hbefore
        · exact hfault.fault.mpr ⟨call, hc, hfatal⟩
      have hleft := hfault.left herror
      refine ⟨st.next + k, ?_, ?_⟩
      · rw [hsound, List.range_eq_range', List.range_eq_range', ← List.range'_append_1, Nat.zero_add]
      · rw [hnext, if_neg herror, next]
        rw [hbytes] at hleft
        have hq : st.sock.queuedBytes = st.sock.outgoing.bytes := rfl
        dsimp only at hleft
        omega
  · show ¬(st.places ++ List.range' st.next k = List.range (st.places ++ List.range' st.next k).length)
    intro hwhole
    obtain ⟨hold, hmore⟩ := range_append hwhole
    have hstops : StopsAfterFault st.calls := by
      by_contra hbroken
      exact hst.broken hbroken hold
    refine hgoes (List.pairwise_append.mpr ⟨hstops, hfault.stops, fun call hc later hl hfatal => ?_⟩)
    obtain ⟨n, hplaces, hlt⟩ := hst.stopped ⟨call, hc, hfatal⟩ hstops
    cases k with
    | zero => exact handed_eq_nil.mp (List.length_eq_zero_iff.mp hcount) later hl
    | succ k =>
      have hat := hmore st.next k rfl
      rw [hplaces, List.length_range] at hat
      omega

end Consistent

theorem run_consistent (sock : Socket) (ops : List StreamOp) : (run h sock ops).Consistent := by
  have hrun (ops : List StreamOp) {st : Stream} (hst : st.Consistent) :
      (ops.foldl (exec h) st).Consistent := by
    induction ops generalizing st with
    | nil => exact hst
    | cons o ops ih =>
      refine ih ?_
      cases o with
      | queueWrite data => exact hst.queueWrite h data
      | setMaxQueuedBytes limit => exact hst.setMaxQueuedBytes h limit
      | flush => exact hst.flush h
  exact hrun ops (.start sock)

theorem Consistent.handed_whole_iff {st : Stream} (hst : st.Consistent) :
    st.Whole ↔ StopsAfterFault st.calls := by
  refine ⟨fun hwhole => ?_, fun hstops => ?_⟩
  · by_contra hgoes
    exact hst.broken hgoes hwhole
  · by_cases hfault : ∃ call ∈ st.calls, FatalSend call
    · obtain ⟨n, hplaces, -⟩ := hst.stopped hfault hstops
      rw [Whole, hplaces, List.length_range]
    · have hsound := hst.sound fun call hc hfatal => hfault ⟨call, hc, hfatal⟩
      rw [Whole, hsound, List.length_range]

/-- The bytes at the first places are the first bytes. -/
theorem Consistent.handed_le {st : Stream} (hst : st.Consistent) (hwhole : st.Whole) :
    Aeon.handed st.calls <+: st.accepted := by
  have hle : st.places.length ≤ st.accepted.length := by
    by_contra hlt
    have hmem : st.accepted.length ∈ st.places := by
      rw [hwhole]
      exact List.mem_range.mpr (Nat.lt_of_not_le hlt)
    have hplace := hst.places_lt _ hmem
    rw [next] at hplace
    omega
  have htake : Aeon.handed st.calls = st.accepted.take st.places.length := by
    rw [hst.handed, hwhole, List.length_range, List.range_eq_range',
      ← take_drop_eq_map _ 0 (by omega), List.drop_zero]
  exact htake ▸ List.take_prefix _ _

/-- The stream of a connection has no gap exactly when the transport takes nothing
after a send that failed. -/
theorem whole_iff (sock : Socket) (ops : List StreamOp) :
    ((run h sock ops).Whole ↔ StopsAfterFault (run h sock ops).calls) ∧
    ((run h sock ops).Whole → handed (run h sock ops).calls <+: (run h sock ops).accepted) :=
  ⟨(run_consistent h sock ops).handed_whole_iff, (run_consistent h sock ops).handed_le⟩

/-- A host whose first send finds no buffers, and whose other sends succeed. -/
def withoutBuffers : Host :=
  { Host.steady with send := fun k => if k = 0 then ⟨-1, ENOBUFS⟩ else ⟨1, 0⟩ }

/-- Two messages, each flushed once it is queued: only the second one is sent. -/
theorem gap_after_fault :
    let st := run withoutBuffers { sockfd := some 3, connected := true, blocking := false }
      [.queueWrite (some [1]), .flush, .queueWrite (some [2]), .flush]
    st.accepted = [1, 2] ∧ handed st.calls = [2] ∧ ¬handed st.calls <+: st.accepted := by
  decide +kernel

end Stream

end Aeon
