import Aeon.ClientServer
import Aeon.HttpRequest

/-!
# The chat server

Lines that the clients of the chat server send go to all of them, with the name of the
sender in front.  `log` records who has been given a number and what has been broadcast;
the server does not read it.
-/

namespace Aeon.Chat

open Http (ascii)

structure Limits where
  maxClients : ℕ := 128
  maxLineBytes : ℕ := 1024
  maxQueuedBytes : UInt64 := 128 * 1024
  deriving DecidableEq, Repr

/-- The peer of the chat server, without its socket. -/
structure Peer where
  pendingLine : List UInt8 := []
  id : UInt64 := 0
  deriving DecidableEq, Repr

abbrev Record := PeerRecord Peer

/-- One call of `broadcast`: the socket and the id of the sender, and the line. -/
structure Message where
  sender : ℕ
  id : UInt64
  line : List UInt8
  deriving DecidableEq, Repr

inductive Entry
  | joined (id : ℕ)
  | said (m : Message)
  deriving DecidableEq, Repr

structure Server extends ClientServer Peer where
  nextId : UInt64 := 1
  log : List Entry := []

def greeting (id : UInt64) : List UInt8 := ascii "* connected as guest-" ++ (Decimal.text id.toNat ++ [10])

def Message.frame (m : Message) : List UInt8 :=
  ascii "guest-" ++ (Decimal.text m.id.toNat ++ (ascii ": " ++ (m.line ++ [10])))

/-- A frame is queued, or the client is retired. -/
def send (frame : List UInt8) (p : Record) : Record :=
  let w := p.conn.queueWrite frame
  { p with conn := w.2, retire := p.retire || !w.1 }

/-- One carriage return at the end of a line belongs to the line feed. -/
def strip (line : List UInt8) : List UInt8 := if line.getLast? = some 13 then line.dropLast else line

/-- What `poll` comes across. -/
inductive Event
  | listen (arrivals : List Incoming)
  | data (id : ℕ) (bytes : List UInt8)
  | eof (id : ℕ)
  | error (id : ℕ)
  | writable (id : ℕ)

inductive Op
  | start (address listens : Bool)
  | poll (events : List Event)
  | stop

namespace Server

variable (limits : Limits) (h : ℕ → Host)

/-- Something that is done to the clients only. -/
def lift (f : ClientServer Peer → ClientServer Peer) (s : Server) : Server :=
  { s with toClientServer := f s.toClientServer }

def message (sender : ℕ) (line : List UInt8) (s : Server) : Message :=
  { sender, id := (s.record sender).data.id, line }

def broadcast (sender : ℕ) (line : List UInt8) (s : Server) : Server :=
  let m := s.message sender line
  { s.lift (·.eachLive (send m.frame)) with log := s.log ++ [.said m] }

def setPending (id : ℕ) (line : List UInt8) (s : Server) : Server :=
  s.lift (·.turn id fun p => { p with data := { p.data with pendingLine := line } })

/-- One step of the loop of `receive`. -/
def receiveByte (sender : ℕ) (s : Server) (c : UInt8) : Server :=
  let pending := (s.record sender).data.pendingLine
  if (s.record sender).retire then s
  else if c = 0 then s.lift (·.retire sender)
  else if c = 10 then
    let s := if strip pending = [] then s else s.broadcast sender (strip pending)
    s.setPending sender []
  else if limits.maxLineBytes ≤ pending.length then s.lift (·.retire sender)
  else s.setPending sender (pending ++ [c])

def receive (sender : ℕ) (bytes : List UInt8) (s : Server) : Server :=
  if sender ∈ s.peers then bytes.foldl (receiveByte limits sender) s else s

/-- One arrival of `accept_ready`. -/
def arrive (peer : Incoming) (s : Server) : Server :=
  let id := s.made
  let r := s.toClientServer.enroll h limits.maxClients limits.maxQueuedBytes peer { id := s.nextId }
  match r.1 with
  | none => { s with toClientServer := r.2 }
  | some added =>
    let t := { s with toClientServer := r.2, nextId := s.nextId + 1, log := s.log ++ [.joined id] }
    if added then t.lift (·.turn id (send (greeting s.nextId))) else t

def acceptReady (arrivals : List Incoming) (s : Server) : Server :=
  (arrivals.take 32).foldl (fun s peer => s.arrive limits h peer) s

/-- The event set calls handlers only for what is registered with it. -/
def event (s : Server) : Event → Server
  | .listen arrivals => acceptReady limits h arrivals s
  | .data id bytes =>
    if id ∈ s.registered then (s.lift (·.receive id bytes)).receive limits id bytes else s
  | .eof id => if id ∈ s.registered then s.lift (·.hangUp h id) else s
  | .error id => if id ∈ s.registered then s.lift (·.retire id) else s
  | .writable id => if id ∈ s.registered then s.lift (·.flush h id fun p => p) else s

def start (address listens : Bool) (s : Server) : Server :=
  if s.running || s.polling || !address || limits.maxClients = 0 || limits.maxLineBytes = 0 ||
    limits.maxQueuedBytes = 0 || !listens then s
  else s.lift fun s => { s.closeOwnedPeers h with running := true }

def setPolling (b : Bool) (s : Server) : Server := s.lift fun s => { s with polling := b }

/-- `poll`; the clients are reaped also if it throws. -/
def poll (events : List Event) (s : Server) : Server :=
  if !s.running || s.polling then s
  else ((events.foldl (event limits h) (s.setPolling true)).setPolling false).lift (·.reap h)

def exec (s : Server) : Op → Server
  | .start address listens => start limits h address listens s
  | .poll events => poll limits h events s
  | .stop => s.lift (·.stop h)

def run (ops : List Op) : Server :=
  ops.foldl (exec limits h) { toClientServer := ClientServer.idle {} }

end Server

end Aeon.Chat
