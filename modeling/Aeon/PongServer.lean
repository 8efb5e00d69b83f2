import Aeon.Address
import Aeon.HttpRequest
import Aeon.Library.Scanning
import Mathlib.Logic.Function.Basic

/-!
# The Pong server

The server owns the game and its clock, and the two players only send input.  `sent` is
what the server has tried to send and `published` the states of its snapshots; the server
reads neither.  The scores are integers without a bound: those of the source are an `int`,
which is wide enough for 2 ^ 31 snapshots.
-/

namespace Aeon.Pong

open Http (ascii)
open Scanning (intText)

def width : ℤ := 24

def height : ℤ := 12

def paddleHeight : ℤ := 3

def tickMs : ℤ := 100

def idleTimeoutMs : ℤ := 5000

structure State where
  leftY : ℤ := 4
  rightY : ℤ := 4
  ballX : ℤ := width / 2
  ballY : ℤ := height / 2
  leftScore : ℤ := 0
  rightScore : ℤ := 0
  occupied : ℤ := 0
  sequence : UInt64 := 0
  deriving DecidableEq, Repr

structure Player where
  active : Bool := false
  endpoint : Sockaddr := .other
  direction : ℤ := 0
  inactivityMs : ℤ := 0
  deriving DecidableEq, Repr

/-- The places of `players_`. -/
inductive Seat
  | left
  | right
  deriving DecidableEq, Repr

def seats : List Seat := [.left, .right]

structure Server where
  players : Seat → Player := fun _ => {}
  state : State := {}
  dx : ℤ := 1
  dy : ℤ := 1
  accumulatorMs : ℤ := 0
  running : Bool := false
  polling : Bool := false
  sent : List (Sockaddr × List UInt8) := []
  published : List State := []

def sameEndpoint : Sockaddr → Sockaddr → Bool
  | .inet port l, .inet port' r => port = port' && l = r
  | .inet6 port _ l scope, .inet6 port' _ r scope' => port = port' && (scope = scope' && l = r)
  | _, _ => false

/-- `std::clamp`. -/
def clamp (v low high : ℤ) : ℤ := if v < low then low else if high < v then high else v

/-- The vertical direction of the ball, which turns at the walls. -/
def bounce (y dy : ℤ) : ℤ := if y + dy < 0 ∨ height ≤ y + dy then -dy else dy

def covers (paddleY y : ℤ) : Bool := paddleY ≤ y && y < paddleY + paddleHeight

/-- The horizontal direction of the ball, which turns at a paddle that covers its row. -/
def deflect (nextX dx : ℤ) (left right : Bool) : ℤ :=
  if nextX = 2 ∧ dx < 0 ∧ left then 1
  else if nextX = width - 3 ∧ 0 < dx ∧ right then -1
  else dx

/-- What a snapshot says of the game. -/
def State.frame (s : State) : List UInt8 :=
  ascii "S " ++ (Decimal.text s.sequence.toNat ++ (32 :: intText s.leftY ++ (32 :: intText s.rightY ++
    (32 :: intText s.ballX ++ (32 :: intText s.ballY ++ (32 :: intText s.leftScore ++
    (32 :: intText s.rightScore ++ 32 :: intText s.occupied)))))))

/-- The commands of a player that stays. -/
def isCommand (cmd : List UInt8) : Bool :=
  cmd = ascii "H" || cmd = ascii "U" || cmd = ascii "D" || cmd = ascii "N"

/-- What such a command does to its player. -/
def Player.command (cmd : List UInt8) (p : Player) : Player :=
  { p with
    inactivityMs := 0
    direction := if cmd = ascii "U" then -1 else if cmd = ascii "D" then 1
      else if cmd = ascii "N" then 0 else p.direction }

inductive Op
  | start (port : ℤ) (listens : Bool)
  | poll (datagrams : List (List UInt8 × Sockaddr))
  | advance (elapsedMs : ℤ)
  | stop

namespace Server

def setPlayer (i : Seat) (p : Player) (s : Server) : Server :=
  { s with players := Function.update s.players i p }

def playerCount (s : Server) : ℕ := seats.countP fun i => (s.players i).active

def current (s : Server) : State :=
  { s.state with
    occupied := ((if (s.players .left).active then 1 else 0) |||
      (if (s.players .right).active then 2 else 0) : ℕ) }

def seat (sender : Sockaddr) (s : Server) : Option Seat :=
  seats.find? fun i => (s.players i).active && sameEndpoint (s.players i).endpoint sender

def reply (target : Sockaddr) (payload : List UInt8) (s : Server) : Server :=
  { s with sent := s.sent ++ [(target, payload)] }

def snapshot (s : Server) : Server :=
  let sequence := s.state.sequence + 1
  let published := { s.current with sequence }
  let s := { s with state := { s.state with sequence }, published := s.published ++ [published] }
  seats.foldl (fun s i =>
    if (s.players i).active then s.reply (s.players i).endpoint published.frame else s) s

def resetBall (direction : ℤ) (s : Server) : Server :=
  { s with
    state := { s.state with ballX := width / 2, ballY := height / 2 }
    dx := direction
    dy := 1 }

/-- The end of `J` for who has a seat. -/
def greet (who : Seat) (sender : Sockaddr) (s : Server) : Server :=
  ((s.setPlayer who { s.players who with inactivityMs := 0 }).reply sender
    (if who = .left then ascii "W 1" else ascii "W 2")).snapshot

def join (sender : Sockaddr) (s : Server) : Server :=
  match s.seat sender with
  | some who => s.greet who sender
  | none => match seats.find? fun i => !(s.players i).active with
    | some who => (s.setPlayer who { active := true, endpoint := sender }).greet who sender
    | none => s.reply sender (ascii "FULL")

def datagram (bytes : List UInt8) (sender : Sockaddr) (s : Server) : Server :=
  if !s.running || bytes.isEmpty || 32 < bytes.length then s
  else if bytes = ascii "J" then s.join sender
  else match s.seat sender with
    | none => s
    | some who =>
      if bytes = ascii "Q" then ((s.setPlayer who {}).resetBall 1).snapshot
      else if isCommand bytes then s.setPlayer who ((s.players who).command bytes)
      else s

/-- The first loop of `step`, at one player. -/
def age (s : Server) (i : Seat) : Server :=
  let p := { s.players i with inactivityMs := (s.players i).inactivityMs + tickMs }
  if !(s.players i).active then s
  else if idleTimeoutMs ≤ p.inactivityMs then (s.setPlayer i {}).resetBall 1
  else s.setPlayer i p

/-- The paddles and the ball move. -/
def move (s : Server) : Server :=
  let leftY := clamp (s.state.leftY + (s.players .left).direction) 0 (height - paddleHeight)
  let rightY := clamp (s.state.rightY + (s.players .right).direction) 0 (height - paddleHeight)
  let dy := bounce s.state.ballY s.dy
  let nextY := s.state.ballY + dy
  let dx := deflect (s.state.ballX + s.dx) s.dx (covers leftY nextY) (covers rightY nextY)
  { s with state := { s.state with leftY, rightY, ballX := s.state.ballX + dx, ballY := nextY }, dx, dy }

/-- A ball that has left the board counts. -/
def goal (s : Server) : Server :=
  if s.state.ballX ≤ 0 then
    { s with state := { s.state with rightScore := s.state.rightScore + 1 } }.resetBall 1
  else if width - 1 ≤ s.state.ballX then
    { s with state := { s.state with leftScore := s.state.leftScore + 1 } }.resetBall (-1)
  else s

def step (s : Server) : Server :=
  let s := seats.foldl age s
  (if s.playerCount = 2 then s.move.goal else s).snapshot

def start (port : ℤ) (listens : Bool) (s : Server) : Server :=
  if s.running || s.polling || port < 0 || 65535 < port || !listens then s
  else { s with running := true }

def poll (datagrams : List (List UInt8 × Sockaddr)) (s : Server) : Server :=
  if !s.running || s.polling then s
  else { datagrams.foldl (fun s d => s.datagram d.1 d.2) { s with polling := true } with polling := false }

/-- The loop of `advance`, for at most `fuel` turns. -/
def catchUp : ℕ → Server → Server
  | 0, s => s
  | fuel + 1, s =>
    if tickMs ≤ s.accumulatorMs then
      catchUp fuel { s with accumulatorMs := s.accumulatorMs - tickMs }.step
    else s

def advance (elapsedMs : ℤ) (s : Server) : Server :=
  if !s.running || s.polling || elapsedMs ≤ 0 then s
  else
    let s := { s with accumulatorMs := s.accumulatorMs + min elapsedMs (tickMs * 4) }
    catchUp s.accumulatorMs.toNat s

def stop (s : Server) : Server :=
  if s.polling then s
  else { s with players := fun _ => {}, running := false, accumulatorMs := 0 }

def exec (s : Server) : Op → Server
  | .start port listens => s.start port listens
  | .poll datagrams => s.poll datagrams
  | .advance elapsedMs => s.advance elapsedMs
  | .stop => s.stop

def run (ops : List Op) : Server := ops.foldl exec {}

end Server

end Aeon.Pong
