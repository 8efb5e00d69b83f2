import Aeon.EventLoop
import Aeon.Reconnect

/-!
# A client and its notifications

`client_event_socket` with every handler call in its history, and the turn of the poll
loop that serves it.  The virtual `close` notifies, whoever calls it: the application,
the poll loop, or a connect that makes room for a new descriptor.
-/

namespace Aeon

open Program

/-- A call of a handler of the client, or of a set about it. -/
structure ClientNote where
  level : CallbackLevel
  notice : Notice
  deriving DecidableEq

/-- `active` are the registrations of the client, numbered as they are made. -/
structure PolledClient extends EventSocket where
  active : List ℕ := []
  registered : ℕ := 0
  deriving DecidableEq

/-- What an application can do with a client, and a turn of the poll loop for a
registration, the descriptor it was watched with, and what is reported of that. -/
inductive ClientOp
  | connectStored
  | connectHost (hostname : Option String) (port : Int)
  | connectAddress (family : Family)
  | close
  | set (f : PlainSetter)
  | queueWrite (data : Option (List UInt8))
  | add
  | remove (token : ℕ)
  | dispatch (token fd : ℕ) (flags : Flags)

namespace PolledClient

def socketPart : Program.Part PolledClient Socket where
  get s := s.toSocket
  set t s := { s with toSocket := t }
  get_set _ _ := rfl
  set_get _ := rfl

def eventPart : Program.Part PolledClient EventSocket where
  get s := s.toEventSocket
  set t s := { s with toEventSocket := t }
  get_set _ _ := rfl
  set_get _ := rfl

variable (h : Host)

def construct (tick : ℕ) : PolledClient where
  toEventSocket := .construct h (.construct h tick)

section Operations

variable (cb : ClientNote → Code PolledClient Unit)

/-- `fire_on_...` of the client. -/
def fire (n : Notice) : Code PolledClient Unit := do
  Code.modify fun s => { s with toSocket := s.toSocket.record (.notify none n) }
  cb ⟨.socket, n⟩

def close : Code PolledClient Bool := do
  let closed ← eventPart.run (EventSocket.close h)
  Code.whenever closed (fire cb .close)
  return closed

def this : This PolledClient := ⟨socketPart.run, close h cb⟩

/-- A descriptor that cannot be made nonblocking is closed without a notification. -/
def finishConnect : Code PolledClient Bool := do
  let set ← socketPart.run (Socket.setBlocking h false)
  if !set then
    let _ ← socketPart.run (Socket.close h)
    return false
  else
    fire cb .connect
    return true

def connectStored : Code PolledClient Bool := do
  let ok ← tcpConnectStored h (this h cb)
  if !ok then return false else finishConnect h cb

def connectHost (hostname : Option String) (port : Int) : Code PolledClient Bool := do
  let ok ← tcpConnectHost h (this h cb) hostname port
  if !ok then return false else finishConnect h cb

def connectAddress (family : Family) : Code PolledClient Bool := do
  let ok ← tcpConnectAddress h (this h cb) family
  if !ok then return false else finishConnect h cb

/-- The handler of the set, if the registration is still active. -/
def setFire (token : ℕ) (n : Notice) : Code PolledClient Unit := do
  let active ← Code.read fun s => s.active.contains token
  Code.whenever active (cb ⟨.set, n⟩)

def current (token fd : ℕ) : Code PolledClient Bool :=
  Code.read fun s => s.active.contains token && s.sockfd == some fd

def reportError (token : ℕ) (code : Int) : Code PolledClient Unit := do
  Code.modify fun s => { s with errorCode := code, n := -1 }
  fire cb (.error code)
  setFire cb token (.error code)

/-- The error of a descriptor that is reported as failed. -/
def descriptorError (flags : Flags) : Code PolledClient Int :=
  if flags.pollnval then return errNoSocket
  else socketPart.run fun s => (socketPendingError (h.getsockopt s.tick), s.ticked)

def dispatchRead (token : ℕ) (flags : Flags) : Code PolledClient Unit := do
  if flags.pollin || flags.pollhup then
    let received ← socketPart.run (Socket.nativeRecv h Socket.maxBufferSize)
    if received.1.ret > 0 then
      Code.modify fun s => { s with n := received.1.ret }
      fire cb (.data received.2)
      setFire cb token (.data received.2)
    else if received.1.ret = 0 then
      let _ ← close h cb
      setFire cb token .close
    else if !wouldBlockError received.1.errno then
      reportError cb token (translateNativeError received.1.errno)
  else if flags.pollerr || flags.pollnval then
    let code ← descriptorError h flags
    reportError cb token code

/-- `flush_queued` over the hooks of the plain class. -/
def flushQueued (s : EventSocket) : FlushResult × EventSocket :=
  let f := s.flushQueued (EventSocket.transport h) sendBudget s.toSocket
  (f.result, { toSocket := f.state, outgoing := f.queue })

def dispatchQueue (token fd : ℕ) (flags : Flags) : Code PolledClient Unit := do
  let here ← current token fd
  if here && flags.pollout then
    let flushed ← eventPart.run (flushQueued h)
    if flushed.error ≠ 0 then reportError cb token flushed.error
    else if flushed.drained then
      fire cb .drain
      setFire cb token .drain

def dispatch (token fd : ℕ) (flags : Flags) : Code PolledClient Unit := do
  let here ← current token fd
  if here && flags.any then
    dispatchRead h cb token flags
    dispatchQueue h cb token fd flags

def exec : ClientOp → Code PolledClient Unit
  | .connectStored => do let _ ← connectStored h cb
  | .connectHost hostname port => do let _ ← connectHost h cb hostname port
  | .connectAddress family => do let _ ← connectAddress h cb family
  | .close => do let _ ← close h cb
  | .set f => do let _ ← socketPart.run (f.run h)
  | .queueWrite data => do let _ ← eventPart.run (EventSocket.queueWrite true data)
  | .add => Code.modify fun s =>
    { s with active := s.active ++ [s.registered], registered := s.registered + 1 }
  | .remove token => Code.modify fun s => { s with active := s.active.erase token }
  | .dispatch token fd flags => dispatch h cb token fd flags

end Operations

def system : Reentrant.System PolledClient ClientNote ClientOp := ⟨exec h⟩

/-- The states that an application can bring a client to with the operations in `ok`,
with handlers that do the same and may throw. -/
def Reaches (ok : ClientOp → Prop) (s : PolledClient) : Prop :=
  ∃ tick, Reentrant.Run (system h) (fun _ => ok) (fun _ => ok) (fun _ _ => True)
    (construct h tick) s

end PolledClient

end Aeon
