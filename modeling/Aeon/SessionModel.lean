import Aeon.Library.History
import Aeon.SslEventSocket
import Aeon.WriteQueue
import Mathlib.Logic.Relation

/-!
# What a TLS object can do

`Session` keeps what decides which records an object sends: its queue, its
session, the retry it owes OpenSSL and its history.  `Session.Step` says once
what any function of the object can do to these, and every function is a
sequence of steps.
-/

namespace Aeon

/-- Events that concern neither a record nor the order of the session handlers. -/
def Event.native : Event → Bool
  | .opened _ | .closed _ | .reopened _ | .verifyMode .. | .sslVerify .. => true
  | .retryRejected .direct => true
  | .notify _ .close | .notify _ .listen | .notify _ (.error _) | .notify _ (.write _ _) => true
  | _ => false

/-- The session that an event belongs to.  What `native` events and discarded
bytes are tagged with is left out: no condition on the order of records
depends on it. -/
def Event.session : Event → Option ℕ
  | .sslNew id | .sslFree id | .handshake id .. | .sslRead id .. | .sslWrite id ..
  | .sslShutdown id .. => some id
  | .accepted session _ => session
  | .notify session .connect | .notify session (.data _) | .notify session .drain => session
  | _ => none

theorem Event.session_native {e : Event} (h : e.native = true) : e.session = none := by
  cases e with
  | opened | closed | reopened | verifyMode | sslVerify | retryRejected => rfl
  | notify session notice => cases notice <;> first | rfl | cases h
  | _ => cases h

/-- `SSL_read` reports the close_notify of the peer. -/
def SslResult.closes (r : SslResult) : Bool := r.ret ≤ 0 && r.code == .zeroReturn

theorem SslResult.wants_of_pos {r : SslResult} (h : 0 < r.ret) : r.wants = false := by
  simp only [SslResult.wants, Bool.and_eq_false_imp, decide_eq_true_eq]
  omega

/-- The most that `poll` flushes from one object. -/
def sendBudget : ℕ := 64 * 1024

structure Session where
  log : List Event := []
  queue : Outgoing := {}
  live : Option ℕ := none
  fresh : ℕ := 0
  ready : Bool := false
  closing : Bool := false
  retryLen : ℕ := 0
  retryQueued : Bool := false
  retryHash : UInt64 := 0

namespace Session

def note (v : Session) (es : List Event) : Session := { v with log := v.log ++ es }

def withQueue (q : Outgoing) (v : Session) : Session := { v with queue := q }

def directRetry (v : Session) : Bool := v.retryLen ≠ 0 && !v.retryQueued

def forget (v : Session) : Session := { v with retryLen := 0, retryQueued := false, retryHash := 0 }

def reset (v : Session) : Session := { v.forget with ready := false, closing := false }

/-- The retry that an answer of `SSL_write` leaves. -/
def settle (data : List UInt8) (queued : Bool) (answer : SslResult) (v : Session) : Session :=
  if answer.ret > 0 then v.forget
  else if answer.wants then
    if v.retryLen ≠ 0 then v
    else { v with
      retryLen := data.length, retryQueued := queued, retryHash := bytesHash data }
  else v.forget

/-- What the flush does with the queue after an `SSL_write` of `requested` bytes at most. -/
def afterFlush (requested : ℕ) (answer : SslResult) (v : Session) : Session :=
  if 0 < answer.ret ∧ answer.ret ≤ requested then
    v.withQueue (v.queue.advance answer.ret.toNat)
  else if answer.wants then v
  else (v.withQueue v.queue.clear).note [.discarded v.live]

/-- The bytes of a queued `SSL_write`: those recorded, or else all of the request. -/
def offered (left : ℕ) (v : Session) : List UInt8 :=
  if v.retryLen ≠ 0 then (v.queue.request left).take v.retryLen else v.queue.request left

@[simp] theorem note_log (v : Session) (es : List Event) : (v.note es).log = v.log ++ es := rfl

@[simp] theorem note_queue (v : Session) (es : List Event) : (v.note es).queue = v.queue := rfl

@[simp] theorem note_live (v : Session) (es : List Event) : (v.note es).live = v.live := rfl

@[simp] theorem note_fresh (v : Session) (es : List Event) : (v.note es).fresh = v.fresh := rfl

@[simp] theorem note_ready (v : Session) (es : List Event) : (v.note es).ready = v.ready := rfl

@[simp] theorem note_closing (v : Session) (es : List Event) : (v.note es).closing = v.closing := rfl

@[simp] theorem note_retryLen (v : Session) (es : List Event) : (v.note es).retryLen = v.retryLen := rfl

@[simp] theorem note_retryQueued (v : Session) (es : List Event) : (v.note es).retryQueued = v.retryQueued := rfl

@[simp] theorem note_retryHash (v : Session) (es : List Event) : (v.note es).retryHash = v.retryHash := rfl

@[simp] theorem withQueue_queue (q : Outgoing) (v : Session) : (v.withQueue q).queue = q := rfl

@[simp] theorem withQueue_log (q : Outgoing) (v : Session) : (v.withQueue q).log = v.log := rfl

@[simp] theorem withQueue_live (q : Outgoing) (v : Session) : (v.withQueue q).live = v.live := rfl

@[simp] theorem withQueue_fresh (q : Outgoing) (v : Session) : (v.withQueue q).fresh = v.fresh := rfl

@[simp] theorem withQueue_ready (q : Outgoing) (v : Session) : (v.withQueue q).ready = v.ready := rfl

@[simp] theorem withQueue_closing (q : Outgoing) (v : Session) : (v.withQueue q).closing = v.closing := rfl

@[simp] theorem withQueue_retryLen (q : Outgoing) (v : Session) : (v.withQueue q).retryLen = v.retryLen := rfl

@[simp] theorem withQueue_retryQueued (q : Outgoing) (v : Session) : (v.withQueue q).retryQueued = v.retryQueued := rfl

@[simp] theorem withQueue_retryHash (q : Outgoing) (v : Session) : (v.withQueue q).retryHash = v.retryHash := rfl

theorem withQueue_note (q : Outgoing) (es : List Event) (v : Session) :
    (v.note es).withQueue q = (v.withQueue q).note es := rfl

@[simp] theorem withQueue_withQueue (q q' : Outgoing) (v : Session) :
    (v.withQueue q).withQueue q' = v.withQueue q' := rfl

theorem note_note (v : Session) (es es' : List Event) : (v.note es).note es' = v.note (es ++ es') := by
  simp [note]

/-- An answer of `SSL_write` changes the retry and nothing else. -/
theorem settle_eq (data : List UInt8) (queued : Bool) (answer : SslResult) (v : Session) :
    v.settle data queued answer = { v with
      retryLen := (v.settle data queued answer).retryLen
      retryQueued := (v.settle data queued answer).retryQueued
      retryHash := (v.settle data queued answer).retryHash } := by
  unfold settle
  split
  · rfl
  · split
    · split <;> rfl
    · rfl

@[simp] theorem settle_log (data : List UInt8) (queued : Bool) (answer : SslResult) (v : Session) :
    (v.settle data queued answer).log = v.log := by rw [settle_eq]

@[simp] theorem settle_queue (data : List UInt8) (queued : Bool) (answer : SslResult) (v : Session) :
    (v.settle data queued answer).queue = v.queue := by rw [settle_eq]

@[simp] theorem settle_live (data : List UInt8) (queued : Bool) (answer : SslResult) (v : Session) :
    (v.settle data queued answer).live = v.live := by rw [settle_eq]

@[simp] theorem settle_fresh (data : List UInt8) (queued : Bool) (answer : SslResult) (v : Session) :
    (v.settle data queued answer).fresh = v.fresh := by rw [settle_eq]

@[simp] theorem settle_ready (data : List UInt8) (queued : Bool) (answer : SslResult) (v : Session) :
    (v.settle data queued answer).ready = v.ready := by rw [settle_eq]

@[simp] theorem settle_closing (data : List UInt8) (queued : Bool) (answer : SslResult) (v : Session) :
    (v.settle data queued answer).closing = v.closing := by rw [settle_eq]

@[simp] theorem afterFlush_live (requested : ℕ) (answer : SslResult) (v : Session) :
    (v.afterFlush requested answer).live = v.live := by
  unfold afterFlush
  split
  · rfl
  · split <;> rfl

@[simp] theorem afterFlush_fresh (requested : ℕ) (answer : SslResult) (v : Session) :
    (v.afterFlush requested answer).fresh = v.fresh := by
  unfold afterFlush
  split
  · rfl
  · split <;> rfl

@[simp] theorem afterFlush_ready (requested : ℕ) (answer : SslResult) (v : Session) :
    (v.afterFlush requested answer).ready = v.ready := by
  unfold afterFlush
  split
  · rfl
  · split <;> rfl

@[simp] theorem afterFlush_closing (requested : ℕ) (answer : SslResult) (v : Session) :
    (v.afterFlush requested answer).closing = v.closing := by
  unfold afterFlush
  split
  · rfl
  · split <;> rfl

@[simp] theorem afterFlush_retryLen (requested : ℕ) (answer : SslResult) (v : Session) :
    (v.afterFlush requested answer).retryLen = v.retryLen := by
  unfold afterFlush
  split
  · rfl
  · split <;> rfl

@[simp] theorem afterFlush_retryQueued (requested : ℕ) (answer : SslResult) (v : Session) :
    (v.afterFlush requested answer).retryQueued = v.retryQueued := by
  unfold afterFlush
  split
  · rfl
  · split <;> rfl

@[simp] theorem afterFlush_retryHash (requested : ℕ) (answer : SslResult) (v : Session) :
    (v.afterFlush requested answer).retryHash = v.retryHash := by
  unfold afterFlush
  split
  · rfl
  · split <;> rfl

inductive Step : Session → Session → Prop
  | native {v : Session} (e : Event) (h : e.native = true) : Step v (v.note [e])
  | setLimit {v : Session} (limit : ℕ) (h : limit < 2 ^ 64) :
      Step v (v.withQueue (v.queue.setLimit limit).2)
  | enqueue {v : Session} (data : List UInt8) (hopen : v.closing = false) (hd : data ≠ [])
      (hroom : (v.queue.append data).1 = true) :
      Step v ((v.withQueue (v.queue.append data).2).note [.accepted v.live data])
  | enqueueNothing {v : Session} (hopen : v.closing = false) :
      Step v (v.note [.accepted v.live []])
  | create {v : Session} (hlive : v.live = none) :
      Step v ({ v.reset with live := some v.fresh, fresh := v.fresh + 1 }.note [.sslNew v.fresh])
  | free {v : Session} (id : ℕ) (hlive : v.live = some id) :
      Step v ({ v.reset with live := none }.note [.sslFree id])
  | reset {v : Session} (hlive : v.live = none) : Step v v.reset
  | alert {v : Session} (id outstanding : ℕ) (hlive : v.live = some id) :
      Step v (v.note [.sslShutdown id .close outstanding none])
  | discard {v : Session} (tag : Option ℕ) (hretry : v.retryLen = 0)
      (htag : v.live = none ∨ tag = v.live) :
      Step v ((v.withQueue v.queue.clear).note [.discarded tag])
  | handshake {v : Session} (id : ℕ) (strict verified : Bool) (answer : SslResult)
      (hlive : v.live = some id) (hready : v.ready = false) (hv : strict = true → verified = true) :
      Step v ({ v with ready := true }.note
        [.handshake id true strict verified (some answer), .notify (some id) .connect])
  | handshakeOpen {v : Session} (id : ℕ) (done strict verified : Bool) (answer : SslResult)
      (hlive : v.live = some id)
      (hready : v.ready = false) (hv : done = true → strict = true ∧ verified = false) :
      Step v (v.note [.handshake id done strict verified (some answer)])
  | read {v : Session} (id : ℕ) (answer : SslResult) (hlive : v.live = some id)
      (hready : v.ready = true) :
      Step v ({ v with closing := v.closing || answer.closes }.note
        [.sslRead id answer v.directRetry])
  | directWrite {v : Session} (id : ℕ) (data : List UInt8) (answer : SslResult)
      (hlive : v.live = some id) (hready : v.ready = true) (hopen : v.closing = false)
      (hd : data ≠ []) (hfirst : v.retryLen = 0 → v.queue.bytes = 0)
      (hretry : v.retryLen ≠ 0 → v.retryQueued = false ∧ data.length = v.retryLen ∧
        bytesHash data = v.retryHash) (hfit : answer.ret ≤ data.length) :
      Step v ((v.settle data false answer).note
        [.sslWrite id .direct data answer (v.retryLen ≠ 0) v.queue.bytes])
  | queuedWrite {v : Session} (id left : ℕ) (answer : SslResult) (hlive : v.live = some id)
      (hready : v.ready = true) (hbytes : v.queue.bytes ≠ 0) (hpos : 0 < left)
      (hleft : left ≤ sendBudget)
      (hretry : v.retryLen ≠ 0 → v.retryQueued = true ∧ left = sendBudget ∧
        v.retryLen ≤ (v.queue.request left).length)
      (hfit : answer.ret ≤ (v.offered left).length) :
      Step v (((v.settle (v.offered left) true answer).note
        [.sslWrite id .queued (v.offered left) answer (v.retryLen ≠ 0) 0]).afterFlush
          (v.queue.requested left) answer)
  | queuedRejected {v : Session} (hlive : v.live ≠ none) (hready : v.ready = true)
      (hbytes : v.queue.bytes ≠ 0) (hqueued : v.retryQueued = true) (hretry : v.retryLen ≠ 0)
      (hbad : (v.queue.request sendBudget).length < v.retryLen ∨
        bytesHash ((v.queue.request sendBudget).take v.retryLen) ≠ v.retryHash) :
      Step v ((v.withQueue v.queue.clear).note
        [.retryRejected .queued, .discarded v.live])
  | beginShutdown {v : Session} (hlive : v.live ≠ none) (hready : v.ready = true)
      (hretry : v.directRetry = false) : Step v { v with closing := true }
  | shutdown {v : Session} (id : ℕ) (answer : SslResult) (hlive : v.live = some id) (hready : v.ready = true)
      (hclosing : v.closing = true) (hempty : v.queue.bytes = 0) :
      Step v (v.note [.sslShutdown id .pollStep v.retryLen (some answer)])
  | notify {v : Session} (id : ℕ) (n : Notice) (hlive : v.live = some id) (hready : v.ready = true)
      (hn : (∃ bytes, n = .data bytes) ∨ n = .drain) : Step v (v.note [.notify (some id) n])

def Steps : Session → Session → Prop := Relation.ReflTransGen Step

theorem Steps.refl (v : Session) : Steps v v := Relation.ReflTransGen.refl

theorem Steps.of_eq {v v' : Session} (h : v' = v) : Steps v v' := h ▸ Steps.refl v

theorem Steps.one {v v' : Session} (h : Step v v') : Steps v v' := Relation.ReflTransGen.single h

theorem Steps.trans {v v' v'' : Session} (h : Steps v v') (h' : Steps v' v'') : Steps v v'' :=
  Relation.ReflTransGen.trans h h'

theorem Steps.natives {es : List Event} (h : ∀ e ∈ es, e.native = true) (v : Session) :
    Steps v (v.note es) := by
  induction es generalizing v with
  | nil => exact .of_eq (by simp [note])
  | cons e es ih =>
    have hfirst : Steps v (v.note [e]) := .one (.native e (h e List.mem_cons_self))
    have hrest := ih (fun e' he' => h e' (List.mem_cons_of_mem _ he')) (v.note [e])
    rw [note_note] at hrest
    exact hfirst.trans hrest

/-- What every state reached by steps satisfies, and every function of the
object relies on. -/
structure Sound (v : Session) : Prop where
  queue : v.queue.Valid
  retry : v.retryLen ≠ 0 → v.live ≠ none ∧ v.ready = true

theorem afterFlush_valid {requested : ℕ} {answer : SslResult} {v : Session} (left : ℕ)
    (hq : v.queue.Valid) (hb : v.queue.bytes ≠ 0) (hr : requested = v.queue.requested left) :
    (v.afterFlush requested answer).queue.Valid := by
  unfold afterFlush
  split
  · rename_i h
    exact (hq.advance hb (hr ▸ (by omega : answer.ret.toNat ≤ requested))).1
  · split
    · exact hq
    · exact hq.clear

theorem Sound.step {v v' : Session} (hs : v.Sound) (h : Step v v') : v'.Sound := by
  cases h with
  | native | enqueueNothing | alert | handshakeOpen | shutdown | notify => exact ⟨hs.queue, hs.retry⟩
  | setLimit limit h => exact ⟨hs.queue.setLimit h, hs.retry⟩
  | enqueue data _ hd => exact ⟨(hs.queue.append hd).1, hs.retry⟩
  | create | free | reset => exact ⟨hs.queue, fun hr => absurd rfl hr⟩
  | discard tag hretry => exact ⟨hs.queue.clear, fun hr => absurd hretry hr⟩
  | handshake => exact ⟨hs.queue, fun hr => ⟨(hs.retry hr).1, rfl⟩⟩
  | read => exact ⟨hs.queue, hs.retry⟩
  | directWrite id data answer hlive hready =>
    exact ⟨by simpa using hs.queue, fun _ => by simp [hlive, hready]⟩
  | queuedWrite id left answer hlive hready hbytes =>
    exact ⟨afterFlush_valid left (by simpa using hs.queue) (by simpa using hbytes)
      (by simp), fun _ => by simp [hlive, hready]⟩
  | queuedRejected hlive hready => exact ⟨hs.queue.clear, fun _ => ⟨hlive, hready⟩⟩
  | beginShutdown => exact ⟨hs.queue, hs.retry⟩

theorem Steps.keeps {I : Session → Prop} (step : ∀ v v', I v → v.Sound → Step v v' → I v')
    {v v' : Session} (h : Steps v v') (hs : v.Sound) (hi : I v) : I v' ∧ v'.Sound := by
  induction h with
  | refl => exact ⟨hi, hs⟩
  | tail _ hstep ih => exact ⟨step _ _ ih.1 ih.2 hstep, ih.2.step hstep⟩

theorem Steps.sound {v v' : Session} (h : Steps v v') (hs : v.Sound) : v'.Sound :=
  (Steps.keeps (I := fun _ => True) (fun _ _ _ _ _ => trivial) h hs trivial).2

/-- The three ends of a flush. -/
theorem afterFlush_cases (requested : ℕ) (answer : SslResult) (v : Session) :
    (0 < answer.ret ∧ answer.ret ≤ requested ∧
      v.afterFlush requested answer = v.withQueue (v.queue.advance answer.ret.toNat)) ∨
    (answer.wants = true ∧ v.afterFlush requested answer = v) ∨
    (answer.wants = false ∧ (0 < answer.ret → (requested : Int) < answer.ret) ∧
      v.afterFlush requested answer = (v.withQueue v.queue.clear).note [.discarded v.live]) := by
  unfold afterFlush
  by_cases hret : 0 < answer.ret ∧ answer.ret ≤ requested
  · exact Or.inl ⟨hret.1, hret.2, if_pos hret⟩
  · rw [if_neg hret]
    cases hw : answer.wants with
    | true => exact Or.inr (Or.inl ⟨rfl, if_pos rfl⟩)
    | false =>
      exact Or.inr (Or.inr ⟨rfl, fun hpos => by omega, if_neg Bool.false_ne_true⟩)

/-- The state of an object before its first session. -/
structure Initial (v : Session) : Prop where
  native : ∀ e ∈ v.log, e.native = true
  queue : v.queue = {}
  live : v.live = none
  fresh : v.fresh = 0
  ready : v.ready = false
  closing : v.closing = false
  retryLen : v.retryLen = 0

theorem Initial.sound {v : Session} (h : Initial v) : v.Sound :=
  ⟨h.queue ▸ Outgoing.Valid.empty, fun hr => absurd h.retryLen hr⟩

def Reachable (v : Session) : Prop := ∃ v₀, Initial v₀ ∧ Steps v₀ v

theorem Reachable.steps {v v' : Session} (h : Reachable v) (hs : Steps v v') : Reachable v' :=
  let ⟨v₀, hv, h⟩ := h
  ⟨v₀, hv, h.trans hs⟩

theorem Reachable.sound {v : Session} (h : Reachable v) : v.Sound :=
  let ⟨_, hv, h⟩ := h
  h.sound hv.sound

/-- An invariant of the states before the first session that every step keeps
holds in every reachable state. -/
theorem Reachable.induct {I : Session → Prop} (init : ∀ v, Initial v → I v)
    (step : ∀ v v', I v → v.Sound → Step v v' → I v') {v : Session} (h : Reachable v) : I v :=
  let ⟨v₀, hv, h⟩ := h
  (h.keeps step hv.sound (init v₀ hv)).1

/-- What a step adds to the history: events of the live session, or the
opening of the next one. -/
inductive Grows (v v' : Session) : Prop
  | same (es : List Event) (log : v'.log = v.log ++ es) (fresh : v'.fresh = v.fresh)
      (live : ∀ id, v'.live = some id → v.live = some id)
      (events : ∀ e ∈ es, ∀ id, e.session = some id → v.live = some id)
  | opened (log : v'.log = v.log ++ [.sslNew v.fresh]) (fresh : v'.fresh = v.fresh + 1)
      (live : v'.live = some v.fresh)

theorem Step.grows {v v' : Session} (h : Step v v') : Grows v v' := by
  cases h with
  | native e he => exact .same [e] rfl rfl (fun _ h => h) (by simp [Event.session_native he])
  | setLimit | beginShutdown => exact .same [] (by simp) rfl (fun _ h => h) (by simp)
  | enqueue data => exact .same _ rfl rfl (fun _ h => h) (by simp [Event.session])
  | enqueueNothing => exact .same _ rfl rfl (fun _ h => h) (by simp [Event.session])
  | create => exact .opened rfl rfl rfl
  | free id hlive => exact .same _ rfl rfl (by simp) (by simp [Event.session, hlive])
  | reset => exact .same [] (by simp [Session.reset, forget]) rfl (fun _ h => h) (by simp)
  | alert id n hlive => exact .same _ rfl rfl (fun _ h => h) (by simp [Event.session, hlive])
  | discard tag => exact .same _ rfl rfl (fun _ h => h) (by simp [Event.session])
  | handshake id strict verified answer hlive =>
    exact .same _ rfl rfl (fun _ h => h) (by simp [Event.session, hlive])
  | handshakeOpen id done strict verified answer hlive =>
    exact .same _ rfl rfl (fun _ h => h) (by simp [Event.session, hlive])
  | read id answer hlive => exact .same _ rfl rfl (fun _ h => h) (by simp [Event.session, hlive])
  | directWrite id data answer hlive =>
    exact .same [.sslWrite id .direct data answer (v.retryLen ≠ 0) v.queue.bytes] (by simp)
      (by simp) (by simp) (by simp [Event.session, hlive])
  | queuedWrite id left answer hlive =>
    rcases afterFlush_cases (v.queue.requested left) answer
        ((v.settle (v.offered left) true answer).note
          [.sslWrite id .queued (v.offered left) answer (v.retryLen ≠ 0) 0]) with
      ⟨-, -, he⟩ | ⟨-, he⟩ | ⟨-, -, he⟩
    · exact .same [.sslWrite id .queued (v.offered left) answer (v.retryLen ≠ 0) 0]
        (by rw [he]; simp) (by simp) (by simp) (by simp [Event.session, hlive])
    · exact .same [.sslWrite id .queued (v.offered left) answer (v.retryLen ≠ 0) 0]
        (by rw [he]; simp) (by simp) (by simp) (by simp [Event.session, hlive])
    · exact .same [.sslWrite id .queued (v.offered left) answer (v.retryLen ≠ 0) 0,
        .discarded v.live] (by rw [he]; simp) (by simp) (by simp) (by simp [Event.session, hlive])
  | queuedRejected => exact .same _ rfl rfl (fun _ h => h) (by simp [Event.session])
  | shutdown id answer hlive => exact .same _ rfl rfl (fun _ h => h) (by simp [Event.session, hlive])
  | notify id n hlive hready hn =>
    refine .same _ rfl rfl (fun _ h => h) ?_
    rcases hn with ⟨bytes, rfl⟩ | rfl <;> simp [Event.session, hlive]

/-- Steps only add to the history. -/
theorem Steps.extends {v v' : Session} (h : Steps v v') : ∃ es, v'.log = v.log ++ es := by
  induction h with
  | refl => exact ⟨[], by simp⟩
  | tail _ hstep ih =>
    obtain ⟨es, hlog⟩ := ih
    cases hstep.grows with
    | same es' hlog' => exact ⟨es ++ es', by rw [hlog', hlog, List.append_assoc]⟩
    | opened hlog' => exact ⟨es ++ [_], by rw [hlog', hlog, List.append_assoc]⟩

/-- No event belongs to a session still to come. -/
structure Numbered (v : Session) : Prop where
  live : ∀ id, v.live = some id → id < v.fresh
  events : ∀ e ∈ v.log, ∀ id, e.session = some id → id < v.fresh

theorem Numbered.step {v v' : Session} (hn : Numbered v) (h : Step v v') : Numbered v' := by
  cases h.grows with
  | same es hlog hfresh hlive hes =>
    refine ⟨fun id hid => hfresh ▸ hn.live id (hlive id hid), fun e he id hid => ?_⟩
    rw [hfresh]
    rw [hlog, List.mem_append] at he
    exact he.elim (fun he => hn.events e he id hid) fun he => hn.live id (hes e he id hid)
  | opened hlog hfresh hlive =>
    refine ⟨fun id hid => ?_, fun e he id hid => ?_⟩
    · rw [hlive, Option.some.injEq] at hid
      omega
    · rw [hlog, List.mem_append, List.mem_singleton] at he
      rcases he with he | rfl
      · have := hn.events e he id hid
        omega
      · simp only [Event.session, Option.some.injEq] at hid
        omega

theorem Reachable.numbered {v : Session} (h : Reachable v) : Numbered v := by
  refine h.induct (fun v hv => ⟨?_, ?_⟩) fun v v' hn _ hstep => hn.step hstep
  · simp [hv.live]
  · exact fun e he id hid => by simp [Event.session_native (hv.native e he)] at hid

end Session

end Aeon
