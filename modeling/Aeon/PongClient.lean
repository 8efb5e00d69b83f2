import Aeon.PongClock
import Aeon.Resolver

/-!
# The Pong client

The client draws the snapshots that it gets from its server, none that is older than what
it has drawn.  `drawn` is what it has drawn and `since` how much of that before it last
lost the connection; the client reads neither.
-/

namespace Aeon.Pong

open Http (ascii)

structure View where
  sequence : UInt64 := 0
  ly : ℤ := 4
  ry : ℤ := 4
  x : ℤ := 12
  y : ℤ := 6
  score1 : ℤ := 0
  score2 : ℤ := 0
  occupied : ℤ := 0
  deriving DecidableEq, Repr

/-- What `operator>>` takes into an `int` and into a 64-bit number. -/
def intBound : ℕ := 2 ^ 31

def sequenceBound : ℕ := 2 ^ 64

/-- The numbers of a snapshot, with what follows them. -/
def parseFields (packet : List UInt8) : Option (UInt8 × View × List UInt8) :=
  (Scanning.character packet).bind fun tag =>
  (Scanning.unsigned sequenceBound tag.2).bind fun sequence =>
  (Scanning.signed intBound sequence.2).bind fun ly =>
  (Scanning.signed intBound ly.2).bind fun ry =>
  (Scanning.signed intBound ry.2).bind fun x =>
  (Scanning.signed intBound x.2).bind fun y =>
  (Scanning.signed intBound y.2).bind fun score1 =>
  (Scanning.signed intBound score1.2).bind fun score2 =>
  (Scanning.signed intBound score2.2).bind fun occupied =>
  some (tag.1, ⟨UInt64.ofNat sequence.1, ly.1, ry.1, x.1, y.1, score1.1, score2.1, occupied.1⟩, occupied.2)

/-- The new state of the view, if the packet is taken. -/
def parseState (packet : List UInt8) (out : View) : Option View :=
  if 128 < packet.length || packet.take 2 ≠ ascii "S " then none
  else match parseFields packet with
    | none => none
    | some (tag, s, trailing) =>
      if tag ≠ 83 ∨ Scanning.skip trailing ≠ [] ∨ s.ly < 0 ∨ s.ry < 0 ∨ 9 < s.ly ∨ 9 < s.ry ∨ s.x < 0 ∨
        24 ≤ s.x ∨ s.y < 0 ∨ 12 ≤ s.y ∨ s.score1 < 0 ∨ s.score2 < 0 ∨ s.occupied < 0 ∨ 3 < s.occupied then none
      else if s.sequence ≤ out.sequence then none
      else some s

/-- Times are in nanoseconds. -/
structure Client where
  screen : View := {}
  player : ℕ := 0
  full : Bool := false
  dirty : Bool := false
  lastSnapshot : ℤ := 0
  lastJoin : ℤ := -1000000000
  lastHeartbeat : ℤ := -1000000000
  running : Bool := true
  direction : ℤ := 0
  drawn : List View := []
  since : ℕ := 0
  deriving DecidableEq, Repr

/-- A packet that is received, and when. -/
structure Packet where
  now : ℤ
  bytes : List UInt8
  sender : Sockaddr

namespace Client

variable (inetNtop : Family → List UInt8 → String) (server : Sockaddr)

/-- The endpoint looks like that of the server. -/
def trusts (sender : Sockaddr) : Bool :=
  sender.getPort = server.getPort && sender.getString inetNtop = server.getString inetNtop

def receive (c : Client) (p : Packet) : Client :=
  if !trusts inetNtop server p.sender || p.bytes.isEmpty then c
  else if p.bytes = ascii "W 1" then { c with player := 1 }
  else if p.bytes = ascii "W 2" then { c with player := 2 }
  else if p.bytes = ascii "FULL" then { c with full := true }
  else match parseState p.bytes c.screen with
    | none => c
    | some screen => { c with screen, dirty := true, lastSnapshot := p.now }

/-- The connection is lost if no snapshot has come for three seconds. -/
def rejoin (now : ℤ) (c : Client) : Client :=
  if c.player ≠ 0 ∧ 3000000000 < now - c.lastSnapshot then
    { c with
      player := 0
      direction := 0
      screen := {}
      lastJoin := now - 1000000000
      lastSnapshot := now
      since := c.drawn.length }
  else c

/-- `J` and `H`. -/
def timers (now : ℤ) (c : Client) : List (List UInt8) × Client :=
  if c.player = 0 ∧ 500000000 ≤ now - c.lastJoin then ([ascii "J"], { c with lastJoin := now })
  else if c.player ≠ 0 ∧ 750000000 ≤ now - c.lastHeartbeat then
    ([ascii "H"], { c with lastHeartbeat := now })
  else ([], c)

/-- The loop over the keys that have been pressed, of which it takes `left`. -/
def keys : ℕ → List ℤ → Client → List (List UInt8) × Client
  | 0, _, c => ([], c)
  | _ + 1, [], c => ([], c)
  | left + 1, k :: ks, c =>
    if k < 0 then ([], c)
    else if k = 113 ∨ k = 81 then ([], { c with running := false })
    else
      let next : ℤ := if k = 119 ∨ k = 87 then -1 else if k = 115 ∨ k = 83 then 1
        else if k = 120 ∨ k = 88 then 0 else c.direction
      if next ≠ c.direction ∧ c.player ≠ 0 then
        let r := keys left ks { c with direction := next }
        ((if next = -1 then ascii "U" else if next = 1 then ascii "D" else ascii "N") :: r.1, r.2)
      else keys left ks c

def draw (c : Client) : Client :=
  if c.player ≠ 0 ∧ c.dirty then { c with dirty := false, drawn := c.drawn ++ [c.screen] } else c

/-- One turn of the main loop, with what it sends. -/
def turn (now : ℤ) (pressed : List ℤ) (packets : List Packet) (c : Client) : List (List UInt8) × Client :=
  if !c.running || c.full then ([], c)
  else
    let r := timers now (c.rejoin now)
    let k := keys 8 pressed r.2
    (r.1 ++ k.1,
      if !k.2.running then k.2 else (packets.foldl (receive inetNtop server) k.2).draw)

end Client

end Aeon.Pong
