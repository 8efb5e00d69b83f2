import Aeon.SessionModel

/-!
# The one write that a session may owe OpenSSL

An `SSL_write` that answers `WANT_READ` or `WANT_WRITE` must be repeated.  The
object keeps its length, its origin and a hash.  The invariant says that this
record is about the last write of the session, and that the bytes of a queued
one are still at the front of the queue.
-/

namespace Aeon

open History

/-- The `SSL_write` calls of a session. -/
def Event.writeOf (id : ℕ) : Event → Option (Origin × List UInt8 × SslResult)
  | .sslWrite i origin data result _ _ => if i = id then some (origin, data, result) else none
  | _ => none

/-- The write that OpenSSL expects to see again on the session. -/
def owed (id : ℕ) (log : List Event) : Option (Origin × List UInt8) :=
  match latest (Event.writeOf id) log with
  | some (origin, data, result) => if result.wants then some (origin, data) else none
  | none => none

theorem owed_append {id : ℕ} (log : List Event) {es : List Event} (h : ∀ e ∈ es, e.writeOf id = none) :
    owed id (log ++ es) = owed id log := by
  unfold owed
  rw [latest_append h]

theorem owed_write {id : ℕ} {log : List Event} {origin : Origin} {data : List UInt8}
    {result : SslResult} {retry : Bool} {waiting : ℕ} :
    owed id (log ++ [.sslWrite id origin data result retry waiting]) =
      if result.wants then some (origin, data) else none := by
  unfold owed
  rw [latest_snoc]
  simp [Event.writeOf]

theorem owed_of_none {id : ℕ} {log : List Event} (h : ∀ e ∈ log, e.writeOf id = none) :
    owed id log = none := owed_append [] h

theorem Event.writeOf_of_session {id : ℕ} {e : Event} (h : e.session ≠ some id) :
    e.writeOf id = none := by
  cases e with
  | sslWrite i => exact if_neg fun hi => h (congr_arg some hi)
  | _ => rfl

/-- The bytes are the first of the queue. -/
def Outgoing.Holds (q : Outgoing) (data : List UInt8) : Prop :=
  ∃ front rest more, q.chunks = front :: rest ∧ front.drop q.frontOffset = data ++ more

theorem Outgoing.Holds.append {q : Outgoing} {data more : List UInt8} (h : q.Holds data)
    (hd : data ≠ []) : (q.append more).2.Holds data := by
  obtain ⟨front, rest, tail, hc, hfront⟩ := h
  have hoff : q.frontOffset ≤ front.length := by
    by_contra hlt
    rw [List.drop_eq_nil_of_le (by omega)] at hfront
    exact hd (List.append_eq_nil_iff.mp hfront.symm).1
  unfold Outgoing.append
  split
  · exact ⟨front, rest, tail, hc, hfront⟩
  · obtain ⟨grown, rest', hco⟩ := Outgoing.head_coalesce more front rest
    refine ⟨front ++ grown, rest', tail ++ grown, by rw [hc, hco], ?_⟩
    rw [List.drop_append_of_le_length hoff, hfront, List.append_assoc]

theorem Outgoing.Holds.setLimit {q : Outgoing} {data : List UInt8} (h : q.Holds data)
    (limit : ℕ) : (q.setLimit limit).2.Holds data := by
  unfold Outgoing.setLimit
  split <;> exact h

/-- A request of the full budget begins with the bytes that the queue holds. -/
theorem Outgoing.Holds.request {q : Outgoing} {data : List UInt8} (h : q.Holds data)
    (hq : q.Valid) (hlen : data.length ≤ sendBudget) :
    data.length ≤ (q.request sendBudget).length ∧
      (q.request sendBudget).take data.length = data := by
  obtain ⟨front, rest, more, hc, hfront⟩ := h
  have hsize : front.length - q.frontOffset = data.length + more.length := by
    rw [← List.length_drop, hfront, List.length_append]
  have hreq := hq.requested_eq sendBudget hc
  have hmax : sendBudget ≤ intMax := by decide
  have hle : data.length ≤ q.requested sendBudget := by omega
  have hdata : q.request sendBudget = (data ++ more).take (q.requested sendBudget) := by
    rw [Outgoing.request, hc, List.headD_cons, hfront]
  refine ⟨?_, ?_⟩
  · rw [hdata, List.length_take, List.length_append]
    omega
  · rw [hdata, List.take_take, Nat.min_eq_left hle, List.take_left]

/-- The queue holds what it offers. -/
theorem Outgoing.Valid.holds {q : Outgoing} {left : ℕ} (hq : q.Valid) (hb : q.bytes ≠ 0) :
    q.Holds (q.request left) := by
  obtain ⟨front, rest, hc, -, -⟩ := hq.front hb
  refine ⟨front, rest, (front.drop q.frontOffset).drop (q.requested left), hc, ?_⟩
  rw [Outgoing.request, hc, List.headD_cons, List.take_append_drop]

namespace Session

/-- The record of the object is about this write. -/
structure Owes (v : Session) (origin : Origin) (data : List UInt8) : Prop where
  nonempty : data ≠ []
  length : v.retryLen = data.length
  hash : v.retryHash = bytesHash data
  queued : v.retryQueued = true ↔ origin = .queued
  kept : origin = .queued → data.length ≤ sendBudget ∧ v.queue.Holds data

structure Record (v : Session) (id : ℕ) : Prop where
  nothing : owed id v.log = none → v.retryLen = 0
  something : ∀ origin data, owed id v.log = some (origin, data) → v.Owes origin data

/-- What the writes of a session look like next to the write it owes. -/
def Repeats (pre : List Event) (e : Event) : Prop :=
  ∀ id origin data result retry waiting, e = .sslWrite id origin data result retry waiting →
    (∀ origin' data', owed id pre = some (origin', data') →
      origin = origin' ∧ data.length = data'.length ∧ (origin = .queued → data = data')) ∧
    (origin = .direct → owed id pre = none → waiting = 0)

theorem Record.of_none {v : Session} {id : ℕ} (h : owed id v.log = none) (hl : v.retryLen = 0) :
    v.Record id :=
  ⟨fun _ => hl, fun _ _ h' => by simp [h] at h'⟩

theorem Record.of_some {v : Session} {id : ℕ} {origin : Origin} {data : List UInt8}
    (h : owed id v.log = some (origin, data)) (ho : v.Owes origin data) : v.Record id := by
  refine ⟨fun h' => by simp [h] at h', fun origin' data' h' => ?_⟩
  rw [h, Option.some.injEq, Prod.mk.injEq] at h'
  obtain ⟨rfl, rfl⟩ := h'
  exact ho

/-- A session owes a write exactly while the object has a record. -/
theorem Record.owes {v : Session} {id : ℕ} (h : v.Record id) (hl : v.retryLen ≠ 0) :
    ∃ origin data, owed id v.log = some (origin, data) ∧ v.Owes origin data := by
  cases ho : owed id v.log with
  | none => exact absurd (h.nothing ho) hl
  | some w => exact ⟨w.1, w.2, rfl, h.something _ _ ho⟩

theorem Record.owed_none {v : Session} {id : ℕ} (h : v.Record id) (hl : v.retryLen = 0) :
    owed id v.log = none := by
  cases ho : owed id v.log with
  | none => rfl
  | some w =>
    have howes := h.something w.1 w.2 ho
    exact absurd (List.length_eq_zero_iff.mp (howes.length.symm.trans hl)) howes.nonempty

/-- Nothing changes for a step that leaves the record alone and keeps the
bytes at the front of the queue. -/
theorem Record.frame {v v' : Session} {id : ℕ} {es : List Event} (h : v.Record id)
    (hlog : v'.log = v.log ++ es) (hes : ∀ e ∈ es, e.writeOf id = none)
    (hlen : v'.retryLen = v.retryLen) (hqueued : v'.retryQueued = v.retryQueued)
    (hhash : v'.retryHash = v.retryHash)
    (hq : ∀ data, data ≠ [] → v.queue.Holds data → v'.queue.Holds data) : v'.Record id := by
  have hsame : owed id v'.log = owed id v.log := by rw [hlog, owed_append v.log hes]
  refine ⟨fun ho => hlen.trans (h.nothing (hsame ▸ ho)), fun origin data ho => ?_⟩
  have howes := h.something origin data (hsame ▸ ho)
  exact ⟨howes.nonempty, hlen.trans howes.length, hhash.trans howes.hash,
    by rw [hqueued, howes.queued],
    fun hor => ⟨(howes.kept hor).1, hq data howes.nonempty (howes.kept hor).2⟩⟩

structure RetryInv (v : Session) : Prop where
  record : ∀ id, v.live = some id → v.Record id
  repeats : Always Repeats v.log
  never : .retryRejected .queued ∉ v.log

/-- Steps that write nothing. -/
theorem RetryInv.frame {v v' : Session} (h : v.RetryInv) (es : List Event)
    (hlog : v'.log = v.log ++ es)
    (hes : ∀ e ∈ es, (∀ id, e.writeOf id = none) ∧ e ≠ .retryRejected .queued)
    (hrecord : ∀ id, v'.live = some id → v'.Record id) : v'.RetryInv := by
  refine ⟨hrecord, ?_, ?_⟩
  · rw [hlog]
    refine h.repeats.append fun e he pre id origin data result retry waiting hw => ?_
    have := (hes e he).1 id
    simp [hw, Event.writeOf] at this
  · rw [hlog, List.mem_append]
    exact fun hmem => hmem.elim h.never fun he => (hes _ he).2 rfl

/-- The record after a write, whichever its origin. -/
theorem settle_record {v : Session} {id waiting : ℕ} {origin : Origin} {data : List UInt8}
    {answer : SslResult} {queued retry : Bool} (hd : data ≠ [])
    (hqueued : queued = true ↔ origin = .queued)
    (hretry : v.retryLen ≠ 0 → v.retryQueued = queued ∧ data.length = v.retryLen ∧
      bytesHash data = v.retryHash)
    (hkept : origin = .queued → data.length ≤ sendBudget ∧ v.queue.Holds data) :
    ((v.settle data queued answer).note
      [.sslWrite id origin data answer retry waiting]).Record id := by
  have howed : owed id (v.log ++ [.sslWrite id origin data answer retry waiting]) =
      if answer.wants then some (origin, data) else none := owed_write
  unfold settle
  by_cases hpos : answer.ret > 0
  · rw [SslResult.wants_of_pos hpos] at howed
    rw [if_pos hpos]
    exact .of_none howed rfl
  · rw [if_neg hpos]
    cases hw : answer.wants with
    | false =>
      rw [hw] at howed
      exact .of_none howed rfl
    | true =>
      rw [hw] at howed
      rw [if_pos rfl]
      by_cases hl : v.retryLen ≠ 0
      · obtain ⟨hsame, hlen, hhash⟩ := hretry hl
        rw [if_pos hl]
        exact .of_some howed ⟨hd, hlen.symm, hhash.symm, by rw [note_retryQueued, hsame, hqueued],
          hkept⟩
      · rw [if_neg hl]
        exact .of_some howed ⟨hd, rfl, rfl, hqueued, hkept⟩

/-- What a queued write offers: the bytes owed, or else a request that the queue
holds and that is short enough to be repeated. -/
theorem offered_spec {v : Session} {id left : ℕ} (hq : v.queue.Valid) (hb : v.queue.bytes ≠ 0)
    (hpos : 0 < left) (hleft : left ≤ sendBudget) (hrecord : v.Record id)
    (hretry : v.retryLen ≠ 0 → v.retryQueued = true ∧ left = sendBudget ∧
      v.retryLen ≤ (v.queue.request left).length) :
    v.offered left ≠ [] ∧ (v.offered left).length ≤ sendBudget ∧ v.queue.Holds (v.offered left) ∧
      (v.retryLen ≠ 0 → ∀ origin data, v.Owes origin data →
        origin = .queued ∧ v.offered left = data) := by
  by_cases hl : v.retryLen ≠ 0
  · obtain ⟨hqueued, rfl, -⟩ := hretry hl
    have hsame (origin : Origin) (data : List UInt8) (howes : v.Owes origin data) :
        origin = .queued ∧ v.offered sendBudget = data := by
      have horigin := howes.queued.mp hqueued
      obtain ⟨hlen, hholds⟩ := howes.kept horigin
      refine ⟨horigin, ?_⟩
      rw [offered, if_pos hl, howes.length]
      exact (hholds.request hq hlen).2
    obtain ⟨origin, data, -, howes⟩ := hrecord.owes hl
    obtain ⟨horigin, heq⟩ := hsame origin data howes
    obtain ⟨hlen, hholds⟩ := howes.kept horigin
    rw [heq] at hsame ⊢
    exact ⟨howes.nonempty, hlen, hholds, fun _ => hsame⟩
  · have hoff : v.offered left = v.queue.request left := if_neg hl
    obtain ⟨-, hlen, -⟩ := hq.request_eq left hb
    have hlow := hq.requested_pos hb (Nat.ne_of_gt hpos)
    have hhigh : v.queue.requested left ≤ left := by
      unfold Outgoing.requested
      omega
    rw [hoff]
    refine ⟨fun hnil => ?_, by omega, hq.holds hb, fun h => absurd h hl⟩
    rw [hnil, List.length_nil] at hlen
    omega

/-- The write is a repetition of the one owed, or the first of its record. -/
theorem RetryInv.write {v w : Session} {id : ℕ} (h : v.RetryInv) (hrecord : v.Record id)
    (origin : Origin) (data : List UInt8) (answer : SslResult) (retry : Bool) (waiting : ℕ)
    (es : List Event)
    (hlog : w.log = v.log ++ .sslWrite id origin data answer retry waiting :: es)
    (hes : ∀ e ∈ es, (∀ id, e.writeOf id = none) ∧ e ≠ .retryRejected .queued)
    (hsame : v.retryLen ≠ 0 → ∀ origin' data', v.Owes origin' data' →
      origin = origin' ∧ data.length = data'.length ∧ (origin = .queued → data = data'))
    (hfirst : origin = .direct → v.retryLen = 0 → waiting = 0)
    (hw : ∀ id, w.live = some id → w.Record id) : w.RetryInv := by
  have hone : Always Repeats (v.log ++ [.sslWrite id origin data answer retry waiting]) := by
    refine h.repeats.snoc fun id' origin' data' result retry' waiting' he => ?_
    cases he
    refine ⟨fun o d howed => ?_, fun ho hnone => hfirst ho (hrecord.nothing hnone)⟩
    have howes := hrecord.something o d howed
    have hl : v.retryLen ≠ 0 := by
      rw [howes.length]
      exact fun hz => howes.nonempty (List.length_eq_zero_iff.mp hz)
    exact hsame hl o d howes
  have hsnoc : (v.withQueue v.queue).RetryInv := h
  refine ⟨hw, ?_, ?_⟩
  · rw [hlog, show v.log ++ .sslWrite id origin data answer retry waiting :: es =
      (v.log ++ [.sslWrite id origin data answer retry waiting]) ++ es by simp]
    refine hone.append fun e he pre id' o d r t n hwrite => ?_
    have := (hes e he).1 id'
    simp [hwrite, Event.writeOf] at this
  · rw [hlog, List.mem_append, List.mem_cons]
    rintro (hmem | hmem | hmem)
    · exact h.never hmem
    · cases hmem
    · exact (hes _ hmem).2 rfl

/-- The queue offers the bytes of its recorded write again. -/
theorem RetryInv.offers {v : Session} (h : v.RetryInv) (hq : v.queue.Valid) (hlive : v.live ≠ none)
    (hretry : v.retryLen ≠ 0) (hqueued : v.retryQueued = true) :
    v.retryLen ≤ (v.queue.request sendBudget).length ∧
      bytesHash ((v.queue.request sendBudget).take v.retryLen) = v.retryHash := by
  obtain ⟨id, hid⟩ := Option.ne_none_iff_exists'.mp hlive
  obtain ⟨origin, data, -, howes⟩ := (h.record id hid).owes hretry
  obtain ⟨hlen, hholds⟩ := howes.kept (howes.queued.mp hqueued)
  obtain ⟨hle, htake⟩ := hholds.request hq hlen
  rw [howes.length, howes.hash, htake]
  exact ⟨hle, rfl⟩

theorem RetryInv.step {v v' : Session} (h : v.RetryInv) (hn : v.Numbered) (hs : v.Sound)
    (hstep : Step v v') : v'.RetryInv := by
  -- A step that adds `es`, none of them a write, and leaves the record alone.
  have hframe {w : Session} (es : List Event) (hlog : w.log = v.log ++ es)
      (hes : ∀ e ∈ es, (∀ id, e.writeOf id = none) ∧ e ≠ .retryRejected .queued)
      (hlive : w.live = v.live) (hlen : w.retryLen = v.retryLen)
      (hqueued : w.retryQueued = v.retryQueued) (hhash : w.retryHash = v.retryHash)
      (hq : ∀ data, data ≠ [] → v.queue.Holds data → w.queue.Holds data) : w.RetryInv :=
    h.frame es hlog hes fun id hid => (h.record id (hlive ▸ hid)).frame hlog
      (fun e he => (hes e he).1 id) hlen hqueued hhash hq
  cases hstep with
  | native e he =>
    refine hframe [e] rfl ?_ rfl rfl rfl rfl fun _ _ hq => hq
    simp only [List.mem_singleton, forall_eq]
    refine ⟨fun id => ?_, ?_⟩
    · cases e <;> first | rfl | cases he
    · rintro rfl
      cases he
  | setLimit limit => exact hframe [] (by simp) (by simp) rfl rfl rfl rfl fun _ _ hq => hq.setLimit limit
  | enqueue data =>
    exact hframe [_] rfl (by simp [Event.writeOf]) rfl rfl rfl rfl fun _ hd hq => hq.append hd
  | enqueueNothing | alert | handshakeOpen | read | shutdown =>
    exact hframe [_] rfl (by simp [Event.writeOf]) rfl rfl rfl rfl fun _ _ hq => hq
  | notify => exact hframe [_] rfl (by simp [Event.writeOf]) rfl rfl rfl rfl fun _ _ hq => hq
  | handshake => exact hframe [_, _] rfl (by simp [Event.writeOf]) rfl rfl rfl rfl fun _ _ hq => hq
  | beginShutdown => exact hframe [] (by simp) (by simp) rfl rfl rfl rfl fun _ _ hq => hq
  | create hlive =>
    refine h.frame [.sslNew v.fresh] rfl (by simp [Event.writeOf]) fun id hid => ?_
    obtain rfl : v.fresh = id := by simpa using hid
    refine .of_none ?_ rfl
    refine (owed_append _ (by simp [Event.writeOf])).trans (owed_of_none fun e he => ?_)
    exact Event.writeOf_of_session fun hid' => absurd (hn.events e he _ hid') (Nat.lt_irrefl _)
  | free => exact h.frame [_] rfl (by simp [Event.writeOf]) fun id hid => by simp at hid
  | reset hlive =>
    exact h.frame [] (by simp [Session.reset, forget]) (by simp)
      fun id hid => by simp [Session.reset, forget, hlive] at hid
  | discard tag hretry =>
    refine h.frame [_] rfl (by simp [Event.writeOf]) fun id hid => .of_none ?_ hretry
    exact (owed_append _ (by simp [Event.writeOf])).trans ((h.record id hid).owed_none hretry)
  | directWrite id data answer hlive hready hopen hd hfirst hretry =>
    refine h.write (h.record id hlive) .direct data answer (v.retryLen ≠ 0) v.queue.bytes []
      (by simp) (by simp) ?_ (fun _ => hfirst) ?_
    · intro hl origin' data' howes
      obtain ⟨hdirect, hlen, -⟩ := hretry hl
      have horigin : origin' = .direct := by
        cases origin' with
        | direct => rfl
        | queued => simp [howes.queued.mpr rfl] at hdirect
      exact ⟨horigin.symm, hlen.trans howes.length, by simp⟩
    · intro id' hid
      obtain rfl : id = id' := by simpa [hlive] using hid
      exact settle_record hd (by simp) hretry (by simp)
  | queuedWrite id left answer hlive hready hbytes hpos hleft hretry =>
    obtain ⟨hd, hlen, hholds, hsame⟩ :=
      offered_spec hs.queue hbytes hpos hleft (h.record id hlive) hretry
    have hrecord : ((v.settle (v.offered left) true answer).note [.sslWrite id .queued
        (v.offered left) answer (v.retryLen ≠ 0) 0]).Record id := by
      refine settle_record hd (by simp) (fun hl => ?_) fun _ => ⟨hlen, hholds⟩
      obtain ⟨origin, data, -, howes⟩ := (h.record id hlive).owes hl
      obtain ⟨-, heq⟩ := hsame hl origin data howes
      exact ⟨(hretry hl).1, by rw [heq, howes.length], by rw [heq, howes.hash]⟩
    have hrepeats (hl : v.retryLen ≠ 0) (origin : Origin) (data : List UInt8)
        (howes : v.Owes origin data) : Origin.queued = origin ∧
          (v.offered left).length = data.length ∧ (Origin.queued = .queued → v.offered left = data) := by
      obtain ⟨horigin, heq⟩ := hsame hl origin data howes
      exact ⟨horigin.symm, by rw [heq], fun _ => heq⟩
    have hlive' (w : Session) (hw : w.live = v.live) (hr : w.Record id) :
        ∀ i, w.live = some i → w.Record i := by
      intro i hi
      rw [hw, hlive, Option.some.injEq] at hi
      exact hi ▸ hr
    have hdone (hw : answer.wants = false) : owed id (v.log ++ [.sslWrite id .queued
        (v.offered left) answer (v.retryLen ≠ 0) 0]) = none := by
      rw [owed_write, hw]
      rfl
    rcases afterFlush_cases (v.queue.requested left) answer
        ((v.settle (v.offered left) true answer).note
          [.sslWrite id .queued (v.offered left) answer (v.retryLen ≠ 0) 0]) with
      ⟨hret, -, he⟩ | ⟨-, he⟩ | ⟨hw, -, he⟩
    · have hw := SslResult.wants_of_pos hret
      rw [he]
      refine h.write (h.record id hlive) .queued (v.offered left) answer (v.retryLen ≠ 0) 0 []
        (by simp) (by simp) hrepeats (by simp) (hlive' _ (by simp) (.of_none ?_ ?_))
      · simpa using hdone hw
      · exact hrecord.nothing (by simpa using hdone hw)
    · rw [he]
      exact h.write (h.record id hlive) .queued (v.offered left) answer (v.retryLen ≠ 0) 0 []
        (by simp) (by simp) hrepeats (by simp) (hlive' _ (by simp) hrecord)
    · rw [he]
      refine h.write (h.record id hlive) .queued (v.offered left) answer (v.retryLen ≠ 0) 0
        [.discarded v.live] (by simp) (by simp [Event.writeOf]) hrepeats (by simp)
        (hlive' _ (by simp) (.of_none ?_ ?_))
      · simp only [note_log, withQueue_log, settle_log, note_live, settle_live]
        exact (owed_append _ (by simp [Event.writeOf])).trans (hdone hw)
      · exact hrecord.nothing (by simpa using hdone hw)
  | queuedRejected hlive hready hbytes hqueued hretry hbad =>
    obtain ⟨hlen, hhash⟩ := h.offers hs.queue hlive hretry hqueued
    exact absurd hbad (by simp [hlen, hhash])

theorem Reachable.retryInv {v : Session} (h : Reachable v) : v.RetryInv := by
  refine (h.induct (I := fun v => v.RetryInv ∧ v.Numbered) (fun v hv => ⟨⟨?_, ?_, ?_⟩, ?_⟩)
    fun v v' hi hs hstep => ⟨hi.1.step hi.2 hs hstep, hi.2.step hstep⟩).1
  · simp [hv.live]
  · intro pre e post he id origin data result retry waiting hw
    have hnative := hv.native e (by rw [he]; simp)
    rw [hw] at hnative
    cases hnative
  · intro hmem
    exact absurd (hv.native _ hmem) (by decide)
  · exact Reachable.numbered ⟨v, hv, .refl v⟩

end Session

end Aeon
