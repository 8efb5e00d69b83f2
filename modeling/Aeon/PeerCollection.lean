import Aeon.Socket
import Aeon.Library.Reentrant

/-!
# Server-owned peers

The part of a listener that owns its accepted peers.  A peer is known by the
address of its object; `live` lists the peers whose descriptor is open.  Closing
a live peer runs its close handler, which may work on the same collection.
-/

namespace Aeon

open Program

abbrev Peer := ℕ

structure Peers where
  owned : List Peer := []
  distinct : owned.Nodup := by first | exact List.nodup_nil | decide
  members : List Peer := []
  closingPeers : Bool := false
  live : List Peer := []
  tick : ℕ := 0
  deriving DecidableEq

namespace Peers

/-- `socket::close` on the object of a peer: its handler is due when this returns true. -/
def closePeer (h : Host) (peer : Peer) (s : Peers) : Bool × Peers :=
  if peer ∈ s.live then
    (h.close s.tick = 0, { s with live := s.live.filter (· ≠ peer), tick := s.tick + 1 })
  else (false, s)

/-- `add_peer` with a new object. -/
def addPeer (peer : Peer) (s : Peers) : Bool × Peers :=
  if h : peer ∉ s.owned then
    (true, { s with
      owned := s.owned ++ [peer]
      distinct := by simpa [List.nodup_append] using ⟨s.distinct, fun q hq he => h (he ▸ hq)⟩
      members := s.members ++ [peer]
      live := s.live ++ [peer] })
  else (false, s)

/-- Take a peer out of both lists, if the collection owns it. -/
def detach (peer : Peer) (s : Peers) : Bool × Peers :=
  if peer ∈ s.owned then
    (true, { s with
      owned := s.owned.erase peer
      distinct := s.distinct.erase peer
      members := s.members.erase peer })
  else (false, s)

end Peers

section Operations

variable {σ : Type} (h : Host) (peers : Part σ Peers) (onClose : Peer → Code σ Unit)

/-- `peer->close()`. -/
def closePeer (peer : Peer) : Code σ Bool := do
  let closed ← peers.run (Peers.closePeer h peer)
  Code.whenever closed (onClose peer)
  return closed

def removeOwnedPeer : Option Peer → Code σ Bool
  | none => return false
  | some peer => do
    let found ← peers.run (Peers.detach peer)
    if found then
      let _ ← closePeer h peers onClose peer
      return true
    else return false

/-- The traversal with its numeric index.  The vector may shrink under it, so
the slot is compared with the peer just closed; `fuel` bounds the iterations. -/
def closeLoop : ℕ → ℕ → Bool → Code σ Bool
  | 0, _, _ => Code.halt .waiting
  | fuel + 1, index, changed => do
    match ← Code.read fun s => (peers.get s).owned[index]? with
    | none => return changed
    | some peer => do
      let closed ← closePeer h peers onClose peer
      let slot ← Code.read fun s => (peers.get s).owned[index]?
      closeLoop fuel (if slot = some peer then index + 1 else index) (closed || changed)

def closeOwnedPeers (fuel : ℕ) : Code σ Bool := do
  if ← Code.read fun s => (peers.get s).closingPeers then return false
  else do
    peers.run fun s => ((), { s with closingPeers := true })
    (closeLoop h peers onClose fuel 0 false).atExit fun s =>
      peers.set { peers.get s with closingPeers := false } s

variable {h peers onClose}

/-- Closing a peer changes the collection, then runs the handler if it closed. -/
theorem closePeer_snd (peer : Peer) (s : σ) :
    (closePeer h peers onClose peer s).2 =
      if ((peers.get s).closePeer h peer).1 then
        (onClose peer (peers.set ((peers.get s).closePeer h peer).2 s)).2
      else peers.set ((peers.get s).closePeer h peer).2 s := by
  simp only [closePeer, Code.bind_run, Part.run_run]
  cases ((peers.get s).closePeer h peer).1 with
  | false => rfl
  | true =>
    simp only [if_true, Code.whenever_true]
    rcases onClose peer _ with ⟨_ | _, t⟩ <;> rfl

theorem removeOwnedPeer_snd (peer : Peer) (s : σ) :
    (removeOwnedPeer h peers onClose (some peer) s).2 =
      if peer ∈ (peers.get s).owned then
        (closePeer h peers onClose peer (peers.set ((peers.get s).detach peer).2 s)).2
      else s := by
  simp only [removeOwnedPeer, Code.bind_run, Part.run_run]
  by_cases hp : peer ∈ (peers.get s).owned
  · have hd : ((peers.get s).detach peer).1 = true := by rw [Peers.detach, if_pos hp]
    simp only [hd, if_true, if_pos hp, Code.bind_run]
    rcases closePeer h peers onClose peer _ with ⟨_ | _, t⟩ <;> rfl
  · have hd : (peers.get s).detach peer = (false, peers.get s) := if_neg hp
    simp only [hd, if_neg hp, peers.set_get]
    rfl

theorem closeLoop_succ (fuel index : ℕ) (changed : Bool) (s : σ) :
    closeLoop h peers onClose (fuel + 1) index changed s =
      match (peers.get s).owned[index]? with
      | none => (.ok changed, s)
      | some peer =>
        match closePeer h peers onClose peer s with
        | (.error e, t) => (.error e, t)
        | (.ok closed, t) => closeLoop h peers onClose fuel
            (if (peers.get t).owned[index]? = some peer then index + 1 else index)
            (closed || changed) t := by
  rw [closeLoop, Code.bind_run, Code.read_run]
  dsimp only
  cases (peers.get s).owned[index]? with
  | none => rfl
  | some peer =>
    dsimp only
    rw [Code.bind_run]
    rcases closePeer h peers onClose peer s with ⟨_ | closed, t⟩ <;> rfl

theorem closeOwnedPeers_closing {s : σ} (fuel : ℕ) (hc : (peers.get s).closingPeers = true) :
    closeOwnedPeers h peers onClose fuel s = (.ok false, s) := by
  simp only [closeOwnedPeers, Code.bind_run, Code.read_run, hc, if_true]
  rfl

theorem closeOwnedPeers_outer {s : σ} (fuel : ℕ) (hc : (peers.get s).closingPeers = false) :
    closeOwnedPeers h peers onClose fuel s =
      (closeLoop h peers onClose fuel 0 false).atExit
        (fun t => peers.set { peers.get t with closingPeers := false } t)
        (peers.set { peers.get s with closingPeers := true } s) := by
  simp only [closeOwnedPeers, Code.bind_run, Code.read_run, hc, Bool.false_eq_true, if_false,
    Part.run_run]

end Operations

end Aeon
