import Aeon.Library.Fifo
import Aeon.Socket

/-!
# The outgoing queue of an event socket

`Outgoing` is the state behind the queue lock.  `flushLoop` is the send loop of
`flush_queued`, written over an arbitrary transport, so that the plain and the
TLS transports are two instances of it.
-/

namespace Aeon

open Errno

/-- `std::size_t` arithmetic, through `Int` so that a stuck term stays small. -/
def sizeAdd (a b : ℕ) : ℕ := (((a : Int) + b) % 18446744073709551616).toNat
def sizeSub (a b : ℕ) : ℕ := (((a : Int) - b) % 18446744073709551616).toNat

theorem sizeAdd_eq {a b : ℕ} (h : a + b < 2 ^ 64) : sizeAdd a b = a + b := by
  rw [sizeAdd, Int.emod_eq_of_lt (by omega) (by omega)]
  omega

theorem sizeSub_eq {a b : ℕ} (h : b ≤ a) (hlt : a - b < 2 ^ 64) : sizeSub a b = a - b := by
  rw [sizeSub, Int.emod_eq_of_lt (by omega) (by omega)]
  omega

def intMax : ℕ := 2147483647
def coalesceLimit : ℕ := 16 * 1024

structure Outgoing where
  chunks : List (List UInt8) := []
  frontOffset : ℕ := 0
  bytes : ℕ := 0
  limit : ℕ := 1024 * 1024
  deriving DecidableEq, Repr

namespace Outgoing

/-- The bytes still to be sent: the chunks without the sent part of the first. -/
def pending (q : Outgoing) : List UInt8 := Fifo.content q.chunks q.frontOffset

structure Valid (q : Outgoing) : Prop where
  tight : Fifo.Tight q.chunks q.frontOffset
  bytes_eq : q.bytes = q.pending.length
  bytes_le : q.bytes ≤ q.limit
  limit_lt : q.limit < 2 ^ 64

def clear (q : Outgoing) : Outgoing := { q with chunks := [], frontOffset := 0, bytes := 0 }

def setLimit (limit : ℕ) (q : Outgoing) : Bool × Outgoing :=
  if limit < q.bytes then (false, q) else (true, { q with limit := limit })

/-- Tiny messages share the last chunk; a message that does not fit starts one. -/
def coalesce (chunks : List (List UInt8)) (data : List UInt8) : List (List UInt8) :=
  match chunks.getLast? with
  | none => chunks ++ [data]
  | some back =>
    if back.length < coalesceLimit ∧ data.length ≤ sizeSub coalesceLimit back.length then
      chunks.dropLast ++ [back ++ data]
    else chunks ++ [data]

def append (data : List UInt8) (q : Outgoing) : Bool × Outgoing :=
  if data.length > sizeSub q.limit q.bytes then (false, q)
  else (true, { q with chunks := coalesce q.chunks data, bytes := sizeAdd q.bytes data.length })

/-- `count` bytes of the first chunk have gone out. -/
def advance (count : ℕ) (q : Outgoing) : Outgoing :=
  match q.chunks with
  | [] => q
  | front :: rest =>
    if q.frontOffset + count = front.length then
      { q with chunks := rest, frontOffset := 0, bytes := sizeSub q.bytes count }
    else { q with frontOffset := q.frontOffset + count, bytes := sizeSub q.bytes count }

/-- The length of the next send, at most `left` bytes of the first chunk. -/
def requested (left : ℕ) (q : Outgoing) : ℕ :=
  min (min (sizeSub (q.chunks.headD []).length q.frontOffset) left) intMax

def request (left : ℕ) (q : Outgoing) : List UInt8 :=
  ((q.chunks.headD []).drop q.frontOffset).take (q.requested left)

end Outgoing

structure FlushResult where
  bytes : ℕ := 0
  error : Int := 0
  drained : Bool := false
  deriving DecidableEq, Repr

/-- The transport hooks that a flush uses: `poll_send_queued`, whether errors
are terminal, and the error code the hook left on the object. -/
structure Transport (σ : Type) where
  send : List UInt8 → σ → IoResult × σ
  errorTerminal : Bool
  getError : σ → Int

variable {σ : Type}

def Transport.reported (t : Transport σ) (s : σ) (errno : ℕ) : Int :=
  if t.errorTerminal ∧ t.getError s < 0 ∧ t.getError s ≠ socketError then t.getError s
  else translateNativeError (if errno ≠ 0 then errno else invalidDescriptorError)

inductive FlushStep
  | again (r : FlushResult) (q : Outgoing) (interrupts : ℕ)
  | stop (r : FlushResult) (q : Outgoing)

/-- What one answer of the transport does to the flush in progress. -/
def flushOnce (t : Transport σ) (requested : ℕ) (sent : IoResult) (s : σ) (r : FlushResult)
    (q : Outgoing) (interrupts : ℕ) : FlushStep :=
  if sent.ret < 0 then
    if sent.errno = EINTR ∧ interrupts + 1 ≤ 4 then .again r q (interrupts + 1)
    else if sent.errno = EINTR ∨ wouldBlockError sent.errno then .stop r q
    else .stop { r with error := t.reported s sent.errno } q.clear
  else if sent.ret = 0 then .stop r q
  else if sent.ret > requested then .stop { r with error := errSystem } q.clear
  else .again { r with bytes := r.bytes + sent.ret.toNat } (q.advance sent.ret.toNat) 0

/-- A flush that goes on has sent something or counted one more interruption. -/
theorem flushOnce_again {t : Transport σ} {requested i i' : ℕ} {sent : IoResult} {s : σ}
    {r r' : FlushResult} {q q' : Outgoing}
    (h : flushOnce t requested sent s r q i = .again r' q' i') :
    (r' = r ∧ q' = q ∧ i' = i + 1 ∧ i' ≤ 4 ∧ sent.ret < 0) ∨
    (0 < sent.ret ∧ sent.ret ≤ requested ∧ i' = 0 ∧ q' = q.advance sent.ret.toNat ∧
      r' = { r with bytes := r.bytes + sent.ret.toNat }) := by
  unfold flushOnce at h
  split at h
  · split at h
    · rename_i hneg hi
      obtain ⟨rfl, rfl, rfl⟩ := FlushStep.again.inj h
      exact Or.inl ⟨rfl, rfl, rfl, hi.2, hneg⟩
    · split at h <;> cases h
  · split at h
    · cases h
    · split at h
      · cases h
      · obtain ⟨rfl, rfl, rfl⟩ := FlushStep.again.inj h
        exact Or.inr ⟨by omega, by omega, rfl, rfl, rfl⟩

/-- What a flush gives back, with every call it made of the transport. -/
structure Flushed (σ : Type) where
  result : FlushResult
  queue : Outgoing
  state : σ
  calls : List (List UInt8 × IoResult) := []

def flushLoop (t : Transport σ) (budget : ℕ) (r : FlushResult) (q : Outgoing) (interrupts : ℕ)
    (s : σ) : Flushed σ :=
  if _hb : q.bytes ≠ 0 ∧ r.bytes < budget then
    let data := q.request (budget - r.bytes)
    let sent := t.send data s
    match _hs : flushOnce t (q.requested (budget - r.bytes)) sent.1 sent.2 r q interrupts with
    | .stop r' q' => ⟨r', q', sent.2, [(data, sent.1)]⟩
    | .again r' q' i' =>
      let f := flushLoop t budget r' q' i' sent.2
      { f with calls := (data, sent.1) :: f.calls }
  else ⟨r, q, s, []⟩
termination_by (budget - r.bytes) * 5 + (4 - interrupts)
decreasing_by
  rcases flushOnce_again _hs with ⟨rfl, -, rfl, hi, -⟩ | ⟨hpos, -, rfl, -, rfl⟩
  · omega
  · dsimp only
    omega

/-- `flush_queued` under the queue lock. -/
def drain (t : Transport σ) (budget : ℕ) (q : Outgoing) (s : σ) : Flushed σ :=
  let f := flushLoop t budget {} q 0 s
  { f with result.drained := q.bytes ≠ 0 ∧ f.queue.bytes = 0 ∧ f.result.error = 0 }

/-- What the transport took of one offer: as many bytes as it said, unless it
said more than it was offered. -/
def taken (call : List UInt8 × IoResult) : List UInt8 :=
  if (call.1.length : Int) < call.2.ret then [] else call.1.take call.2.ret.toNat

/-- The bytes the transport took over all calls of a flush. -/
def handed (calls : List (List UInt8 × IoResult)) : List UInt8 := calls.flatMap taken

structure EventSocket extends Socket where
  outgoing : Outgoing := {}
  deriving DecidableEq, Repr

namespace EventSocket

/-- The constructors of event sockets make the descriptor nonblocking, or give it up. -/
def construct (h : Host) (base : Socket) : EventSocket :=
  if !base.isValidSocket then { toSocket := base }
  else
    let mode := base.setBlocking h false
    { toSocket := if mode.1 then mode.2 else (mode.2.close h).2 }

def queuedBytes (s : EventSocket) : ℕ := s.outgoing.bytes

/-- The answer of an operation on the queue, with the queue it leaves. -/
def withOutgoing (r : Bool × Outgoing) (s : EventSocket) : Bool × EventSocket :=
  (r.1, { s with outgoing := r.2 })

@[simp] theorem withOutgoing_fst (r : Bool × Outgoing) (s : EventSocket) :
    (s.withOutgoing r).1 = r.1 := rfl

@[simp] theorem withOutgoing_outgoing (r : Bool × Outgoing) (s : EventSocket) :
    (s.withOutgoing r).2.outgoing = r.2 := rfl

@[simp] theorem withOutgoing_toSocket (r : Bool × Outgoing) (s : EventSocket) :
    (s.withOutgoing r).2.toSocket = s.toSocket := rfl

def setMaxQueuedBytes (limit : ℕ) (s : EventSocket) : Bool × EventSocket :=
  s.withOutgoing (s.outgoing.setLimit limit)

/-- `data` is `none` for a null pointer with a nonzero size; `accepts` is the
answer of the `poll_accepts_queued_write` hook. -/
def queueWrite (accepts : Bool) (data : Option (List UInt8)) (s : EventSocket) :
    Bool × EventSocket :=
  if !s.isValidSocket || !s.connected || s.blocking || data.isNone || !accepts then (false, s)
  else
    let data := data.getD []
    if data.length = 0 then (true, s) else s.withOutgoing (s.outgoing.append data)

@[simp] theorem queueWrite_toSocket (accepts : Bool) (data : Option (List UInt8))
    (s : EventSocket) : (s.queueWrite accepts data).2.toSocket = s.toSocket := by
  unfold queueWrite
  split
  · rfl
  · dsimp only
    split <;> rfl

def flushQueued (t : Transport σ) (budget : ℕ) (s : EventSocket) (net : σ) : Flushed σ :=
  if !s.isValidSocket || s.blocking || budget == 0 then ⟨{}, s.outgoing, net, []⟩
  else drain t budget s.outgoing net

/-- `event_socket::close` up to its notification, which is due when it returns true. -/
def close (h : Host) (s : EventSocket) : Bool × EventSocket :=
  let s := { s with outgoing := s.outgoing.clear }
  let r := s.toSocket.close h
  (r.1, { s with toSocket := r.2 })

end EventSocket

end Aeon
