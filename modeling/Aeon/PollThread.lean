import Aeon.EventSocket
import Aeon.SetRegistry

/-!
# `poll` as one thread among others

`event_socket_set::poll` step by step, while other threads edit the set.  The
atomic steps are the loads of `get_if_active()`, the calls of members through the
pointers that these gave, and what `poll` does under a lock or asks natively.  The
sockets answer anything, and their handlers may edit the set as other threads do.
-/

namespace Aeon

open Threads

/-- A token of one of the two registries. -/
structure SetToken where
  udp : Bool
  number : ℕ
  deriving DecidableEq

/-- `event_socket_set::state`, with the number of answers that `poll` has got. -/
structure SetState (S : Type) where
  registries : SetRegistries S S := {}
  polling : Bool := false
  tick : ℕ := 0

structure PollShared (S : Type) where
  state : SetState S := {}
  /-- A member has been called through a null pointer. -/
  nullCall : Bool := false

/-- The steps of a thread from where it stands.  A `load` is `get_if_active()`, and a
`member` call goes through a pointer. -/
inductive PollCode (S α : Type)
  | done (a : α)
  | waiting
  | atomic (f : SetState S → SetState S) (k : SetState S → PollCode S α)
  | load (t : SetToken) (k : Option S → PollCode S α)
  | member (s : Option S) (k : ℕ → PollCode S α)

/-- What the members of the sockets and the native calls answer, in order, and what
the handlers do with the set. -/
structure PollAnswers (S : Type) where
  isValidSocket : ℕ → Bool
  sockfd : ℕ → ℕ
  pollWantsWrite : ℕ → Bool
  pollHasBufferedInput : ℕ → Bool
  pollTimeoutMs : ℕ → Int
  isListener : ℕ → Bool
  pollStep : ℕ → Int
  getError : ℕ → Int
  pollReadReady : ℕ → Bool
  pollReceive : ℕ → IoResult
  pollErrorTerminal : ℕ → Bool
  pollQueueReady : ℕ → Bool
  flushQueued : ℕ → FlushResult
  close : ℕ → Bool
  poll : ℕ → List (ℕ × Bool) → Int → Int × List Flags
  getsockopt : ℕ → IoResult
  recvfrom : ℕ → IoResult
  handler : ℕ → List (SetOp S S)

def SetState.getIfActive {S : Type} (t : SetToken) (w : SetState S) : Option S :=
  (if t.udp then w.registries.udpSockets else w.registries.sockets).getIfActive t.number

/-- `struct pending` of `poll`. -/
structure PendingWatch where
  token : SetToken
  fd : ℕ
  writable : Bool := false
  deriving DecidableEq

namespace PollCode

variable {S α β : Type}

def bind : PollCode S α → (α → PollCode S β) → PollCode S β
  | done a, f => f a
  | waiting, _ => waiting
  | atomic g k, f => atomic g fun w => (k w).bind f
  | load t k, f => load t fun s => (k s).bind f
  | member s k, f => member s fun n => (k n).bind f

instance : Monad (PollCode S) where
  pure := done
  bind := bind

/-- One atomic step.  Nothing is defined after a call through a null pointer. -/
def step : PollCode S α → PollShared S → PollCode S α × PollShared S
  | done a, w => (done a, w)
  | waiting, w => (waiting, w)
  | atomic f k, w => (k w.state, { w with state := f w.state })
  | load t k, w => (k (w.state.getIfActive t), w)
  | member none k, w => (member none k, { w with nullCall := true })
  | member (some _) k, w =>
    (k w.state.tick, { w with state.tick := w.state.tick + 1 })

def getIfActive (t : SetToken) : PollCode S (Option S) := load t done

def ask (s : Option S) (f : ℕ → α) : PollCode S α := member s fun n => done (f n)

/-- A call of a member that returns nothing of interest. -/
def touch (s : Option S) : PollCode S Unit := ask s fun _ => ()

/-- A native call. -/
def native (f : ℕ → α) : PollCode S α :=
  atomic (fun w => { w with tick := w.tick + 1 }) fun w => done (f w.tick)

def whenever (c : Bool) (m : PollCode S Unit) : PollCode S Unit := if c then m else done ()

/-- A function that takes a lock. -/
def locked (f : SetState S → α × SetState S) : PollCode S α :=
  atomic (fun w => (f w).2) fun w => done (f w).1

variable [DecidableEq S]

/-- The next step of a call of the set. -/
def editStep (k : SetCall S S) : PollCode S (SetCall S S) :=
  locked fun w => ((SetRegistries.step k w.registries).1,
    { w with registries := (SetRegistries.step k w.registries).2 })

/-- A call of the set takes at most two locks. -/
def edit (o : SetOp S S) : PollCode S SetAnswer := do
  let k ← editStep (.calling o)
  match k with
  | .done a => return a
  | k =>
    let k ← editStep k
    match k with
    | .done a => return a
    | _ => waiting

def edits : List (SetOp S S) → PollCode S Unit
  | [] => return ()
  | o :: os => do
    let _ ← edit o
    edits os

end PollCode

namespace PollThread

open PollCode

variable {S : Type} [DecidableEq S] (h : PollAnswers S)

/-- A handler call. -/
def callback : PollCode S Unit := do
  let os ← native h.handler
  edits os

/-- `s && s->is_valid_socket() && s->sockfd == watch.fd`. -/
def isCurrent (p : PendingWatch) (s : Option S) : PollCode S Bool :=
  if s.isNone then return false
  else do
    let valid ← ask s h.isValidSocket
    if !valid then return false
    else
      let fd ← ask s h.sockfd
      return fd = p.fd

/-- `watch.tcp->get_if_active()` before the handler of the set is called. -/
def setCallback (p : PendingWatch) : PollCode S Unit := do
  let active ← getIfActive p.token
  whenever active.isSome (callback h)

/-- The handler of the object, through `s`, and then that of the set. -/
def bothCallbacks (p : PendingWatch) (s : Option S) : PollCode S Unit := do
  touch s
  callback h
  setCallback h p

/-- `watch.tcp->get_if_active() && s->is_valid_socket() && s->sockfd == watch.fd`. -/
def stillCurrent (p : PendingWatch) (s : Option S) : PollCode S Bool := do
  let active ← getIfActive p.token
  if active.isNone then return false else isCurrent h p s

def closeSocket (s : Option S) : PollCode S Unit := do
  let closed ← ask s h.close
  whenever closed (callback h)

def reportClose (p : PendingWatch) (s : Option S) : PollCode S Unit := do
  closeSocket h s
  setCallback h p

/-- `set_error`, `n` and both error handlers. -/
def reportError (p : PendingWatch) (s : Option S) : PollCode S Unit := do
  touch s
  bothCallbacks h p s

/-- `socket_pending_error`, which only asks the descriptor. -/
def descriptorError (flags : Flags) : PollCode S Int :=
  if flags.pollnval then return errNoSocket
  else native fun n => socketPendingError (h.getsockopt n)

def dispatchListener (p : PendingWatch) (s : Option S) (flags : Flags) : PollCode S ℕ :=
  if flags.pollin then do
    callback h
    return 1
  else if flags.pollerr || flags.pollnval || flags.pollhup then do
    let _ ← descriptorError h flags
    reportError h p s
    return 1
  else return 0

def failStep (p : PendingWatch) (s : Option S) : PollCode S Unit := do
  let _ ← ask s h.getError
  bothCallbacks h p s
  let active ← getIfActive p.token
  if active.isNone then return ()
  else
    let valid ← ask s h.isValidSocket
    whenever valid (closeSocket h s)

def closeTerminal (p : PendingWatch) (s : Option S) : PollCode S Unit := do
  let here ← stillCurrent h p s
  if !here then return ()
  else
    let terminal ← ask s h.pollErrorTerminal
    whenever terminal (closeSocket h s)

def dispatchRead (p : PendingWatch) (s : Option S) (flags : Flags) : PollCode S ℕ := do
  let ready ← ask s h.pollReadReady
  if ready then
    let received ← ask s h.pollReceive
    if received.ret > 0 then
      touch s
      bothCallbacks h p s
      return 1
    else if received.ret = 0 then
      reportClose h p s
      return 1
    else if wouldBlockError received.errno then return 0
    else
      let _ ← ask s h.pollErrorTerminal
      let _ ← ask s h.getError
      reportError h p s
      closeTerminal h p s
      return 1
  else if flags.pollerr || flags.pollnval then
    let _ ← descriptorError h flags
    reportError h p s
    return 1
  else return 0

def dispatchQueue (p : PendingWatch) (s : Option S) : PollCode S ℕ := do
  let here ← stillCurrent h p s
  if !here then return 0
  else
    let ready ← ask s h.pollQueueReady
    if !ready then return 0
    else
      let flushed ← ask s h.flushQueued
      if flushed.error ≠ 0 then
        reportError h p s
        closeTerminal h p s
        return 1
      else if flushed.drained then
        bothCallbacks h p s
        return 1
      else return if flushed.bytes ≠ 0 then 1 else 0

def dispatchStream (p : PendingWatch) (s : Option S) (flags : Flags) : PollCode S ℕ := do
  let progress ← ask s h.pollStep
  -- The connect handler of the object is called by `poll_step` itself.
  whenever (progress = 2) (callback h)
  if progress < 0 then
    failStep h p s
    return 1
  else if progress = 0 then return 1
  else if progress = 3 then
    reportClose h p s
    return 1
  else if progress = 2 then
    let here ← stillCurrent h p s
    whenever here (callback h)
    return 1
  else
    let read ← dispatchRead h p s flags
    let flushed ← dispatchQueue h p s
    return read + flushed

def dispatchTcp (p : PendingWatch) (flags : Flags) : PollCode S ℕ := do
  let s ← getIfActive p.token
  let here ← isCurrent h p s
  if !here then return 0
  else
    let listening ← ask s h.isListener
    if listening then dispatchListener h p s flags else dispatchStream h p s flags

def dispatchUdp (p : PendingWatch) (flags : Flags) : PollCode S ℕ := do
  let s ← getIfActive p.token
  let here ← isCurrent h p s
  if !here then return 0
  else if flags.pollin then
    let received ← native h.recvfrom
    if received.ret ≥ 0 then
      touch s
      bothCallbacks h p s
      return 1
    else if wouldBlockError received.errno then return 0
    else
      reportError h p s
      return 1
  else if flags.pollerr || flags.pollnval then
    let _ ← descriptorError h flags
    reportError h p s
    return 1
  else return 0

/-- `watch.tcp && watch.tcp->get_if_active() && watch.tcp->get_if_active()->poll_timeout_ms() == 0`:
the member is called through a second load. -/
def deadlineDue (p : PendingWatch) : PollCode S Bool :=
  if p.token.udp then return false
  else do
    let active ← getIfActive p.token
    if active.isNone then return false
    else
      let s ← getIfActive p.token
      let due ← ask s h.pollTimeoutMs
      return due = 0

def isDue (p : PendingWatch) (flags : Flags) : PollCode S Bool :=
  if flags.any then return true else deadlineDue h p

def dispatch (p : PendingWatch) (flags : Flags) : PollCode S ℕ := do
  let due ← isDue h p flags
  if !due then return 0
  else if p.token.udp then dispatchUdp h p flags
  else dispatchTcp h p flags

def dispatchAll : List (PendingWatch × Flags) → PollCode S ℕ
  | [] => return 0
  | (p, flags) :: rest => do
    let handled ← dispatch h p flags
    let others ← dispatchAll rest
    return handled + others

/-- The native wait asks for writing only for event sockets. -/
def wantsWrite (t : SetToken) (s : Option S) : PollCode S Bool :=
  if t.udp then return false else ask s h.pollWantsWrite

/-- The watches of the tokens of one snapshot. -/
def watchAll : List SetToken → PollCode S (List PendingWatch)
  | [] => return []
  | t :: ts => do
    let s ← getIfActive t
    if s.isNone then watchAll ts
    else
      let valid ← ask s h.isValidSocket
      if !valid then watchAll ts
      else
        let fd ← ask s h.sockfd
        let writable ← wantsWrite h t s
        let ps ← watchAll ts
        return ⟨t, fd, writable⟩ :: ps

/-- Ask an event socket something, if it is still the one that is watched. -/
def askCurrent {α : Type} (default : α) (f : ℕ → α) (p : PendingWatch) : PollCode S α :=
  if p.token.udp then return default
  else do
    let s ← getIfActive p.token
    let here ← isCurrent h p s
    if here then ask s f else return default

def askAny (f : ℕ → Bool) : List PendingWatch → PollCode S Bool
  | [] => return false
  | p :: ps => do
    let yes ← askCurrent h false f p
    let others ← askAny f ps
    return yes || others

def effectiveTimeout : List PendingWatch → Int → PollCode S Int
  | [], timeoutMs => return timeoutMs
  | p :: ps, timeoutMs => do
    let due ← askCurrent h (-1) h.pollTimeoutMs p
    effectiveTimeout ps (if due ≥ 0 ∧ (timeoutMs = -1 ∨ due < timeoutMs) then due else timeoutMs)

/-- `poll_readable`: the native wait, for which an interruption is no answer. -/
def pollReadable (ps : List PendingWatch) (timeoutMs : Int) : PollCode S (Int × List Flags) :=
  if ps.isEmpty then return (0, [])
  else native fun n => h.poll n (ps.map fun p => (p.fd, p.writable)) timeoutMs

def waitReady (ps : List PendingWatch) (buffered : Bool) (timeoutMs : Int) :
    ℕ → PollCode S (Int × List Flags × Bool)
  | 0 => waiting
  | fuel + 1 => do
    let effective ← effectiveTimeout h ps timeoutMs
    let ready ← pollReadable h ps (if buffered then 0 else effective)
    if ready.1 < 0 then return (ready.1, [], false)
    else
      let expired ← askAny h (fun n => h.pollTimeoutMs n = 0) ps
      if ready.1 ≠ 0 || buffered || expired || timeoutMs ≠ -1 || effective = -1 then
        return (ready.1, if ready.1 > 0 then ready.2 else [], expired)
      else waitReady ps buffered timeoutMs fuel

def markBuffered : List (PendingWatch × Flags) → PollCode S (List (PendingWatch × Flags))
  | [] => return []
  | (p, flags) :: rest => do
    let more ← askCurrent h false h.pollHasBufferedInput p
    let others ← markBuffered rest
    return (p, if more then { flags with pollin := true } else flags) :: others

/-- Every watched socket with what the native wait reported of it. -/
def readiness (ps : List PendingWatch) (buffered : Bool) (reported : List Flags) :
    PollCode S (List (PendingWatch × Flags)) :=
  let watched := ps.zipIdx.map fun p => (p.1, reported.getD p.2 {})
  if buffered then markBuffered h watched else return watched

/-- The tokens of one registry, copied under its lock. -/
def snapshot (udp : Bool) : PollCode S (List SetToken) :=
  locked fun w =>
    ((if udp then w.registries.udpSockets else w.registries.sockets).entries.map (⟨udp, ·⟩), w)

def pollOwned (fuel : ℕ) (timeoutMs : Int) : PollCode S Int := do
  let tcp ← snapshot false
  let udp ← snapshot true
  let streams ← watchAll h tcp
  let datagrams ← watchAll h udp
  let ps := streams ++ datagrams
  let buffered ← askAny h h.pollHasBufferedInput ps
  let ready ← waitReady h ps buffered timeoutMs fuel
  if ready.1 < 0 then return ready.1
  else
    let watched ← readiness h ps buffered ready.2.1
    if ready.1 = 0 && !buffered && !ready.2.2 then return 0
    else
      let handled ← dispatchAll h watched
      return handled

def poll (fuel : ℕ) (timeoutMs : Int) : PollCode S Int :=
  if timeoutMs < -1 then return -1
  else do
    let owns ← locked fun w => (!w.polling, { w with polling := true })
    if !owns then return -1
    else
      let handled ← pollOwned h fuel timeoutMs
      let _ ← locked fun w => ((), { w with polling := false })
      return handled

end PollThread

/-- The calls of the set. -/
inductive PollOp (S : Type)
  | poll (fuel : ℕ) (timeoutMs : Int)
  | edit (o : SetOp S S)

inductive PollReply
  | handled (n : Int)
  | edited (a : SetAnswer)
  deriving DecidableEq

namespace PollThread

variable {S : Type} [DecidableEq S]

/-- Threads that poll the set and edit it. -/
def object (h : PollAnswers S) : Object (PollShared S) (PollCode S PollReply) (PollOp S) PollReply where
  start
    | .poll fuel timeoutMs => do
      let n ← poll h fuel timeoutMs
      return .handled n
    | .edit o => do
      let a ← PollCode.edit o
      return .edited a
  step := PollCode.step
  result
    | .done r => some r
    | _ => none

end PollThread

end Aeon
