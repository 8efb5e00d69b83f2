import Aeon.EventObject
import Aeon.Library.Reentrant

/-!
# The event loop

`event_socket_set` and the objects registered with it.  A registration is a
token that points to an object and says whether it is active; the tokens of the
set are two lists, and `poll` works on a copy of both.  The history says what
`poll` did, by token.
-/

namespace Aeon

open Program

/-- `basic_socket_registration`. -/
structure Registration where
  socket : ℕ
  active : Bool := true
  deriving DecidableEq, Repr

inductive CallbackLevel
  | socket | set
  deriving DecidableEq, Repr

/-- A call of a handler of the object, or of the set about the object. -/
structure EventNote where
  level : CallbackLevel
  socket : ℕ
  notice : Notice
  deriving DecidableEq

/-- What `poll` does to an object, other than to ask it something. -/
inductive PollAction
  | step | receive | count | setError | fail | flush | close
  deriving DecidableEq, Repr

/-- The history of the set.  `looked` and `did` are uses of the object of a token,
an action with the connection that was watched and the one it is applied to;
`dangling` is a use of an object that is gone.  `received` is a `recvfrom` of `poll`
for a token.  `event` is an event that `poll` dispatches to both handlers.  `replaced` is a connection that a handler has put
in place of one that `poll` goes on to use. -/
inductive PollEvent
  | registered (token socket : ℕ)
  | deactivated (token : ℕ)
  | began (tokens : List ℕ)
  | looked (token : ℕ)
  | did (token : ℕ) (action : PollAction) (watched current : ℕ)
  | dangling (token : ℕ)
  | received (token : ℕ)
  | event (token : ℕ) (notice : Notice)
  | entered (token : ℕ) (level : CallbackLevel) (notice : Notice)
  | left (token : ℕ) (level : CallbackLevel) (notice : Notice)
  | replaced (token : ℕ)
  | finished
  deriving DecidableEq

/-- An object that has been destroyed has left an empty place.  `calls` are the handler
calls that have been made, whoever made them. -/
structure EventWorld where
  objects : List (Option EventObject) := []
  registrations : List Registration := []
  sockets : List ℕ := []
  udpSockets : List ℕ := []
  polling : Bool := false
  tick : ℕ := 0
  log : List PollEvent := []
  calls : List EventNote := []
  deriving DecidableEq

/-- The answers to the native calls of the objects, and to those of `poll`
itself: `poll` is given descriptors, whether they are watched for writing, and a
time to wait, and `recvfrom` the room for a datagram.  `now` is what `steady_clock`
shows `poll_readable`. -/
structure LoopHost where
  objects : ℕ → NetHost
  poll : ℕ → List (ℕ × Bool) → Int → IoResult × List Flags
  now : ℕ → ℕ
  getsockopt : ℕ → IoResult
  recvfrom : ℕ → ℕ → IoResult × List UInt8 × Sockaddr

/-- A host whose objects all get the same answers, and whose `poll` reports
every watched descriptor as `flags` at once. -/
def LoopHost.same (e : NetHost) (flags : Flags) : LoopHost where
  objects _ := e
  poll _ watched _ := (⟨watched.length, 0⟩, watched.map fun _ => flags)
  now _ := 0
  getsockopt _ := ⟨0, 0⟩
  recvfrom _ _ := (⟨0, 0⟩, [], .other)

/-- `pending`, with the object that the token points to and the connection that
its descriptor belonged to. -/
structure Watch where
  token : ℕ
  socket : ℕ
  udp : Bool
  fd : ℕ
  writable : Bool
  connection : ℕ
  deriving DecidableEq

namespace EventWorld

variable {α : Type}

def find (id : ℕ) (w : EventWorld) : Option EventObject := w.objects.getD id none

def store (id : ℕ) (o : EventObject) (w : EventWorld) : EventWorld :=
  { w with objects := w.objects.set id (some o) }

def active (token : ℕ) (w : EventWorld) : Bool :=
  w.registrations[token]?.elim false (·.active)

def note (e : PollEvent) : Code EventWorld Unit :=
  Code.modify fun w => { w with log := w.log ++ [e] }

/-- Run a function of an object, which has to be there. -/
def call (id : ℕ) (f : EventObject → α × EventObject) : Code EventWorld α := fun w =>
  match w.find id with
  | none => (.error .undefined, w)
  | some o => (.ok (f o).1, w.store id (f o).2)

/-- A use of the object that a token points to. -/
def use (token id : ℕ) (e : ℕ → PollEvent) (f : EventObject → α × EventObject) :
    Code EventWorld α := fun w =>
  match w.find id with
  | none => (.error .undefined, { w with log := w.log ++ [.dangling token] })
  | some o =>
    (.ok (f o).1, { w.store id (f o).2 with log := w.log ++ [e o.connection] })

def look (token id : ℕ) (f : EventObject → α × EventObject) : Code EventWorld α :=
  use token id (fun _ => .looked token) f

def act (p : Watch) (a : PollAction) (f : EventObject → α × EventObject) : Code EventWorld α :=
  use p.token p.socket (fun current => .did p.token a p.connection current) f

/-- `get_if_active()` gives the object. -/
def getIfActive (token : ℕ) : Code EventWorld Bool := Code.read (active token)

/-- The object is open on a newer connection than the watched one, which the
checks of `poll` do not tell: they compare the descriptor, or not even that. -/
def replaces (w : EventWorld) (p : Watch) (anyFd : Bool) : Bool :=
  w.active p.token && (w.find p.socket).elim false fun o =>
    o.base.isValidSocket && o.connection ≠ p.connection && (anyFd || o.base.sockfd = some p.fd)

end EventWorld

namespace EventLoop

open EventWorld

variable (h : LoopHost) (cb : EventNote → Code EventWorld Unit)

/-- The watches of the sockets that `poll` comes to later. -/
abbrev Pending := List (Watch × Bool)

/-- What `poll` goes on to use after a handler call: the later sockets, if their
descriptors are the same. -/
def later (ps : List Watch) : Pending := ps.map (·, false)

/-- A handler call, after which the connections that `poll` goes on to use are compared. -/
def callback (pending : Pending) (p : Watch) (level : CallbackLevel) (n : Notice) :
    Code EventWorld Unit := do
  note (.entered p.token level n)
  cb ⟨level, p.socket, n⟩
  Code.modify fun w => { w with
    log := w.log ++ (pending.filter fun q => w.replaces q.1 q.2).map fun q => .replaced q.1.token }
  note (.left p.token level n)

/-- `if (watch.tcp->get_if_active())` before the handler of the set is called. -/
def setCallback (pending : Pending) (p : Watch) (n : Notice) : Code EventWorld Unit := do
  let active ← getIfActive p.token
  Code.whenever active (callback cb pending p .set n)

/-- The handler of the object and then that of the set. -/
def bothCallbacks (pending : Pending) (p : Watch) (n : Notice) : Code EventWorld Unit := do
  callback cb pending p .socket n
  setCallback cb pending p n

/-- `watch.tcp->get_if_active() && s->is_valid_socket() && s->sockfd == watch.fd`, and more. -/
def currentAnd {α : Type} (p : Watch) (none : α) (f : EventObject → α × EventObject) :
    Code EventWorld α := do
  let active ← getIfActive p.token
  if !active then return none
  else
    let same ← look p.token p.socket fun o => (o.base.sockfd == some p.fd, o)
    if !same then return none else look p.token p.socket f

def current (p : Watch) : Code EventWorld Bool := currentAnd p false fun o => (true, o)

/-- `close` with its handler call. -/
def closeSocket (pending : Pending) (p : Watch) : Code EventWorld Unit := do
  let closed ← act p .close (EventObject.close (h.objects p.socket))
  Code.whenever closed (callback cb pending p .socket .close)

def reportClose (pending : Pending) (p : Watch) : Code EventWorld Unit := do
  note (.event p.token .close)
  closeSocket h cb pending p
  setCallback cb pending p .close

def reportError (pending : Pending) (p : Watch) (code : Int) : Code EventWorld Unit := do
  note (.event p.token (.error code))
  act p .fail fun o => ((), o.fail code)
  bothCallbacks cb pending p (.error code)

/-- The same for an error that the object has not set itself. -/
def setAndReportError (pending : Pending) (p : Watch) (code : Int) : Code EventWorld Unit := do
  act p .setError fun o => ((), o.setError code)
  reportError cb pending p code

/-- The error of a descriptor that is reported as failed. -/
def descriptorError (flags : Flags) : Code EventWorld Int :=
  if flags.pollnval then return errNoSocket
  else Code.update fun w =>
    (socketPendingError (h.getsockopt w.tick), { w with tick := w.tick + 1 })

def dispatchListener (ps : List Watch) (p : Watch) (flags : Flags) : Code EventWorld ℕ := do
  if flags.pollin then
    callback cb (later ps) p .set .listen
    return 1
  else if flags.pollerr || flags.pollnval || flags.pollhup then
    let code ← descriptorError h flags
    setAndReportError cb (later ps) p code
    return 1
  else return 0

/-- A terminal error of `poll_step`.  The close after it does not compare descriptors. -/
def failStep (ps : List Watch) (p : Watch) : Code EventWorld Unit := do
  let code ← look p.token p.socket fun o => (o.base.errorCode, o)
  reportError cb ((p, true) :: later ps) p code
  let active ← getIfActive p.token
  if active then
    let valid ← look p.token p.socket fun o => (o.base.isValidSocket, o)
    Code.whenever valid (closeSocket h cb (later ps) p)

/-- The close after a terminal error of a read or of a flush. -/
def closeTerminal (pending : Pending) (p : Watch) : Code EventWorld Unit := do
  let terminal ← currentAnd p false fun o => (o.pollErrorTerminal, o)
  Code.whenever terminal (closeSocket h cb pending p)

def dispatchRead (pending : Pending) (p : Watch) (flags : Flags) : Code EventWorld ℕ := do
  let ready ← look p.token p.socket fun o => (o.pollReadReady flags, o)
  if ready then
    let received ← act p .receive (EventObject.pollReceive (h.objects p.socket))
    if received.1.ret > 0 then
      note (.event p.token (.data received.2))
      act p .count fun o => ((), o.withBase { o.base with n := received.1.ret })
      bothCallbacks cb pending p (.data received.2)
      return 1
    else if received.1.ret = 0 then
      reportClose h cb pending p
      return 1
    else if wouldBlockError received.1.errno then return 0
    else
      let code ← look p.token p.socket fun o => (o.reported received.1.errno, o)
      setAndReportError cb pending p code
      closeTerminal h cb pending p
      return 1
  else if flags.pollerr || flags.pollnval then
    let code ← descriptorError h flags
    setAndReportError cb pending p code
    return 1
  else return 0

def dispatchQueue (ps : List Watch) (p : Watch) (flags : Flags) : Code EventWorld ℕ := do
  let ready ← currentAnd p false fun o => (o.pollQueueReady flags, o)
  if !ready then return 0
  else
    let flushed ← act p .flush (EventObject.flushQueued (h.objects p.socket))
    if flushed.error ≠ 0 then
      setAndReportError cb ((p, false) :: later ps) p flushed.error
      closeTerminal h cb (later ps) p
      return 1
    else if flushed.drained then
      note (.event p.token .drain)
      bothCallbacks cb (later ps) p .drain
      return 1
    else return if flushed.bytes ≠ 0 then 1 else 0

/-- `poll_step`, with the call of the connect handler in it. -/
def pollStep (ps : List Watch) (p : Watch) (flags : Flags) : Code EventWorld Int := do
  let progress ← act p .step (EventObject.pollStep (h.objects p.socket) flags)
  Code.whenever (progress = 2) (callback cb (later ps) p .socket .connect)
  return progress

def dispatchStream (ps : List Watch) (p : Watch) (flags : Flags) : Code EventWorld ℕ := do
  let progress ← pollStep h cb ps p flags
  if progress < 0 then
    failStep h cb ps p
    return 1
  else if progress = 0 then return 1
  else if progress = 3 then
    reportClose h cb (later ps) p
    return 1
  else if progress = 2 then
    let here ← current p
    Code.whenever here (callback cb (later ps) p .set .connect)
    return 1
  else
    let read ← dispatchRead h cb ((p, false) :: later ps) p flags
    let flushed ← dispatchQueue h cb ps p flags
    return read + flushed

def dispatchTcp (ps : List Watch) (p : Watch) (flags : Flags) : Code EventWorld ℕ := do
  let here ← current p
  if !here then return 0
  else
    let listening ← look p.token p.socket fun o => (o.isListener, o)
    if listening then dispatchListener h cb ps p flags else dispatchStream h cb ps p flags

/-- `recvfrom` on the watched descriptor, into the buffer of `poll`. -/
def recvfrom (p : Watch) : Code EventWorld (IoResult × List UInt8 × Sockaddr) := do
  note (.received p.token)
  Code.update fun w => (h.recvfrom w.tick Socket.maxBufferSize, { w with tick := w.tick + 1 })

/-- What `poll` and `register_sender` write before the datagram handlers are called. -/
def datagramFrom (n : Int) (sender : Sockaddr) : EventObject → Unit × EventObject
  | .udp server s =>
    let s := { s with n := n, remoteAddr := sender }
    ((), .udp server (if server then (s.getPeer sender).2 else s))
  | o => ((), o)

def dispatchUdp (ps : List Watch) (p : Watch) (flags : Flags) : Code EventWorld ℕ := do
  let here ← current p
  if !here then return 0
  else if flags.pollin then
    let received ← recvfrom h p
    if received.1.ret ≥ 0 then
      note (.event p.token (.datagram received.2.1 received.2.2))
      act p .count (datagramFrom received.1.ret received.2.2)
      bothCallbacks cb (later ps) p (.datagram received.2.1 received.2.2)
      return 1
    else if wouldBlockError received.1.errno then return 0
    else
      setAndReportError cb (later ps) p (translateNativeError received.1.errno)
      return 1
  else if flags.pollerr || flags.pollnval then
    let code ← descriptorError h flags
    setAndReportError cb (later ps) p code
    return 1
  else return 0

/-- `watch.tcp->get_if_active()->poll_timeout_ms() == 0`: a deadline needs no
readiness, and the descriptor is compared later. -/
def deadlineDue (p : Watch) : Code EventWorld Bool := do
  let active ← getIfActive p.token
  if p.udp || !active then return false
  else
    let due ← look p.token p.socket (EventObject.pollTimeoutMs (h.objects p.socket))
    return due = 0

def isDue (p : Watch) (flags : Flags) : Code EventWorld Bool :=
  if flags.any then return true else deadlineDue h p

def dispatch (ps : List Watch) (p : Watch) (flags : Flags) : Code EventWorld ℕ := do
  let due ← isDue h p flags
  if !due then return 0
  else if p.udp then dispatchUdp h cb ps p flags
  else dispatchTcp h cb ps p flags

def dispatchAll : List (Watch × Flags) → Code EventWorld ℕ
  | [] => return 0
  | p :: rest => do
    let handled ← dispatch h cb (rest.map (·.1)) p.1 p.2
    let others ← dispatchAll rest
    return handled + others

/-- The watches of the active tokens of one registry whose objects are open. -/
def watchAll (udp : Bool) : List ℕ → Code EventWorld (List Watch)
  | [] => return []
  | t :: ts => do
    let active ← getIfActive t
    if !active then watchAll udp ts
    else
      let id ← Code.read fun w => w.registrations[t]?.elim 0 (·.socket)
      let seen ← look t id fun o => ((o.base.sockfd, o.pollWantsWrite, o.connection), o)
      match seen.1 with
      | none => watchAll udp ts
      | some fd => do
        let ps ← watchAll udp ts
        return ⟨t, id, udp, fd, !udp && seen.2.1, seen.2.2⟩ :: ps

/-- Ask an event socket something, if it is still the one that is watched. -/
def ask {α : Type} (none : α) (f : NetHost → EventObject → α × EventObject) (p : Watch) :
    Code EventWorld α :=
  if p.udp then return none else currentAnd p none (f (h.objects p.socket))

/-- Ask all of them. -/
def askAny (f : NetHost → EventObject → Bool × EventObject) : List Watch → Code EventWorld Bool
  | [] => return false
  | p :: ps => do
    let yes ← ask h false f p
    let others ← askAny f ps
    return yes || others

/-- The time to wait: the shortest of `timeoutMs` and the deadlines. -/
def effectiveTimeout : List Watch → Int → Code EventWorld Int
  | [], timeoutMs => return timeoutMs
  | p :: ps, timeoutMs => do
    let due ← ask h (-1) EventObject.pollTimeoutMs p
    effectiveTimeout ps (if due ≥ 0 ∧ (timeoutMs = -1 ∨ due < timeoutMs) then due else timeoutMs)

/-- What `poll_readable` does: it reads the clock, or makes a native call. -/
inductive WaitEvent
  | clock (now : ℕ)
  | polled (timeoutMs : Int)
  deriving DecidableEq, Repr

/-- The calls of one `poll_readable`, and the last answer.  There is none while
the calls are still interrupted. -/
structure NativeWait where
  calls : List WaitEvent
  answer : Option (IoResult × List Flags)
  tick : ℕ

/-- `result < 0 && errno == EINTR`. -/
def interrupted (answer : IoResult × List Flags) : Bool :=
  answer.1.ret < 0 && answer.1.errno == Errno.EINTR

/-- `do ... while (result < 0 && errno == EINTR)` of an infinite wait. -/
def waitForever (watched : List (ℕ × Bool)) : ℕ → ℕ → NativeWait
  | 0, tick => ⟨[], none, tick⟩
  | fuel + 1, tick =>
    let answer := h.poll tick watched (-1)
    if interrupted answer then
      let wait := waitForever watched fuel (tick + 1)
      { wait with calls := .polled (-1) :: wait.calls }
    else ⟨[.polled (-1)], some answer, tick + 1⟩

/-- `do ... while (true)` of a wait that ends at a deadline. -/
def waitUntil (watched : List (ℕ × Bool)) (deadline : ℕ) : ℕ → ℕ → ℕ → NativeWait
  | 0, tick, _ => ⟨[], none, tick⟩
  | fuel + 1, tick, remaining =>
    let answer := h.poll tick watched remaining
    if !interrupted answer then ⟨[.polled remaining], some answer, tick + 1⟩
    else
      let now := h.now (tick + 1)
      if now ≥ deadline then ⟨[.polled remaining, .clock now], some (⟨0, 0⟩, []), tick + 2⟩
      else
        let wait := waitUntil watched deadline fuel (tick + 2) ((deadline - now) / nsPerMs)
        { wait with calls := .polled remaining :: .clock now :: wait.calls }

def nativeWait (watched : List (ℕ × Bool)) (timeoutMs : Int) (fuel tick : ℕ) : NativeWait :=
  if timeoutMs = -1 then waitForever h watched fuel tick
  else
    let now := h.now tick
    let wait := waitUntil h watched (now + timeoutMs.toNat * nsPerMs) fuel (tick + 1) timeoutMs.toNat
    { wait with calls := .clock now :: wait.calls }

/-- `poll_readable`, with nothing reported unless the native call reports something. -/
def pollReadable (ps : List Watch) (timeoutMs : Int) (fuel : ℕ) :
    Code EventWorld (Int × List Flags) := fun w =>
  if timeoutMs < -1 then (.ok (-1, []), w)
  else if ps.isEmpty then (.ok (0, []), w)
  else
    let wait := nativeWait h (ps.map fun p => (p.fd, p.writable)) timeoutMs fuel w.tick
    match wait.answer with
    | none => (.error .waiting, { w with tick := wait.tick })
    | some answer =>
      (.ok (answer.1.ret, if answer.1.ret > 0 then answer.2 else []), { w with tick := wait.tick })

/-- The wait of `poll_readable` uses up native answers and changes nothing else. -/
theorem pollReadable_ticks (ps : List Watch) (timeoutMs : Int) (fuel : ℕ) (w : EventWorld) :
    ∃ tick, (pollReadable h ps timeoutMs fuel w).2 = { w with tick := tick } := by
  unfold pollReadable
  split
  · exact ⟨w.tick, rfl⟩
  · split
    · exact ⟨w.tick, rfl⟩
    · dsimp only
      split <;> exact ⟨_, rfl⟩

def timeoutExpired (e : NetHost) (o : EventObject) : Bool × EventObject :=
  ((o.pollTimeoutMs e).1 == 0, (o.pollTimeoutMs e).2)

/-- The native wait, again as long as an infinite `poll` was only cut short by a
deadline that has not passed.  The result says also whether one has. -/
def waitReady (ps : List Watch) (buffered : Bool) (timeoutMs : Int) :
    ℕ → Code EventWorld (Int × List Flags × Bool)
  | 0 => Code.halt .waiting
  | fuel + 1 => do
    let effective ← effectiveTimeout h ps timeoutMs
    let ready ← pollReadable h ps (if buffered then 0 else effective) (fuel + 1)
    if ready.1 < 0 then return (ready.1, [], false)
    else
      let expired ← askAny h timeoutExpired ps
      if ready.1 ≠ 0 || buffered || expired || timeoutMs ≠ -1 || effective = -1 then
        return (ready.1, ready.2, expired)
      else waitReady ps buffered timeoutMs fuel

/-- The objects with input that OpenSSL has already decrypted are readable. -/
def markBuffered : List (Watch × Flags) → Code EventWorld (List (Watch × Flags))
  | [] => return []
  | (p, flags) :: rest => do
    let more ← ask h false EventObject.pollHasBufferedInput p
    let others ← markBuffered rest
    return (p, if more then { flags with pollin := true } else flags) :: others

/-- Every watched socket with what the native call reported of it. -/
def readiness (ps : List Watch) (buffered : Bool) (reported : List Flags) :
    Code EventWorld (List (Watch × Flags)) :=
  let watched := ps.zipIdx.map fun p => (p.1, reported.getD p.2 {})
  if buffered then markBuffered h watched else return watched

/-- `poll` while it owns the lock. -/
def pollOwned (fuel : ℕ) (timeoutMs : Int) : Code EventWorld Int := do
  let tokens ← Code.read fun w => (w.sockets, w.udpSockets)
  note (.began (tokens.1 ++ tokens.2))
  let streams ← watchAll false tokens.1
  let datagrams ← watchAll true tokens.2
  let ps := streams ++ datagrams
  let buffered ← askAny h EventObject.pollHasBufferedInput ps
  let ready ← waitReady h ps buffered timeoutMs fuel
  if ready.1 < 0 then return ready.1
  else
    let watched ← readiness h ps buffered ready.2.1
    if ready.1 = 0 && !buffered && !ready.2.2 then return 0
    else
      let handled ← dispatchAll h cb watched
      return handled

/-- `poll`, which gives up when another call holds the lock. -/
def poll (fuel : ℕ) (timeoutMs : Int) : Code EventWorld Int := do
  if timeoutMs < -1 then return -1
  else
    let owns ← Code.update fun w => (!w.polling, { w with polling := true })
    if !owns then return -1
    else (pollOwned h cb fuel timeoutMs).atExit fun w =>
      { w with polling := false, log := w.log ++ [.finished] }

end EventLoop

end Aeon
