import Aeon.PeerCollection
import Aeon.UdpPeers

/-!
# The peer collection while it works

A server with its peer collection, as close handlers see it.  `retiring` holds
the peers that `remove_owned_peer` has detached and not yet destroyed, and
`closings` counts the calls of `close_owned_peers` under way; both are stacks of
calls, not fields.  A descriptor number stands for one opening of a descriptor.
-/

namespace Aeon

open Program Reentrant

/-- What user code can see of a server at one moment. -/
structure Sight where
  peers : Peers
  retiring : List Peer
  closings : ℕ

/-- `fired` lists the descriptors whose close handler has been called, and
`seen` every moment at which user code ran. -/
structure PeerServer where
  peers : Peers := {}
  retiring : List Peer := []
  closings : ℕ := 0
  descriptor : Peer → ℕ := fun _ => 0
  nextDescriptor : ℕ := 0
  fired : List ℕ := []
  seen : List Sight := []

/-- What an application does with a server, its peers and their handlers.
`add` brings an accepted peer and says whether the two lists can grow. -/
inductive PeerServerOp
  | add (peer : Peer) (grows : Bool)
  | remove (peer : Option Peer)
  | closeOwned (fuel : ℕ)
  | close (peer : Peer)
  | reopen (peer : Peer)

namespace PeerServer

def peersPart : Part PeerServer Peers where
  get s := s.peers
  set p s := { s with peers := p }
  get_set _ _ := rfl
  set_get _ := rfl

def sight (s : PeerServer) : Sight := ⟨s.peers, s.retiring, s.closings⟩

def observed (s : PeerServer) : PeerServer := { s with seen := s.seen ++ [s.sight] }

/-- The object of `peer` gets a descriptor that it did not have before. -/
def opening (peer : Peer) (s : PeerServer) : PeerServer :=
  { s with
    descriptor := Function.update s.descriptor peer s.nextDescriptor
    nextDescriptor := s.nextDescriptor + 1 }

/-- A detached object goes with its descriptor, and calls no handler. -/
def destroyed (peer : Peer) (s : PeerServer) : PeerServer :=
  { s with
    retiring := s.retiring.tail
    peers := { s.peers with live := s.peers.live.filter (· ≠ peer) } }

section Operations

variable (h : Host) (cb : Peer → Code PeerServer Unit)

/-- The close notification of a peer. -/
def fireOnClose (peer : Peer) : Code PeerServer Unit := do
  Code.modify fun s => ({ s with fired := s.fired ++ [s.descriptor peer] } : PeerServer).observed
  cb peer

/-- `add_peer` with a new object.  Where a list cannot grow, the entry that the
other one got is taken back. -/
def add (peer : Peer) (grows : Bool) : Code PeerServer Unit := do
  if !grows then Code.halt .thrown
  else
    let added ← peersPart.run (Peers.addPeer peer)
    Code.whenever added (Code.modify (opening peer))

def remove (peer : Option Peer) : Code PeerServer Unit := do
  let call : Code PeerServer Unit := do
    let _ ← removeOwnedPeer h peersPart (fireOnClose cb) peer
  match ← Code.read fun s => peer.filter (· ∈ s.peers.owned) with
  | none => call
  | some p => do
    Code.modify fun s => { s with retiring := p :: s.retiring }
    call.atExit (destroyed p)

def closeOwned (fuel : ℕ) : Code PeerServer Unit := do
  Code.modify fun s => { s with closings := s.closings + 1 }
  let call : Code PeerServer Unit := do
    let _ ← closeOwnedPeers h peersPart (fireOnClose cb) fuel
  call.atExit fun s => { s with closings := s.closings - 1 }

/-- An owned or retiring object whose descriptor is closed makes a new one. -/
def reopen (peer : Peer) : Code PeerServer Unit :=
  Code.modify fun s => opening peer { s with peers := { s.peers with live := peer :: s.peers.live } }

def perform : PeerServerOp → Code PeerServer Unit
  | .add peer grows => add peer grows
  | .remove peer => remove h cb peer
  | .closeOwned fuel => closeOwned h cb fuel
  | .close peer => do let _ ← closePeer h peersPart (fireOnClose cb) peer
  | .reopen peer => reopen peer

end Operations

/-- User code runs again after every operation, however that ends. -/
def system (h : Host) : System PeerServer Peer PeerServerOp where
  exec cb o := (perform h cb o).atExit observed

/-- A new object is at an address of its own, and only objects that are there
are reopened. -/
def Allowed (s : PeerServer) : PeerServerOp → Prop
  | .add peer _ => peer ∉ s.peers.owned ∧ peer ∉ s.retiring
  | .reopen peer => (peer ∈ s.peers.owned ∨ peer ∈ s.retiring) ∧ peer ∉ s.peers.live
  | _ => True

/-- The servers that an application can bring about, with close handlers that do
anything to the same server and may throw. -/
def Reaches (h : Host) (s : PeerServer) : Prop :=
  Run (system h) Allowed Allowed (fun _ _ => True) {} s

end PeerServer

/-- A sight of a collection whose two lists agree and whose flag and stacks do. -/
structure Sight.InStep (h : Host) (o : Sight) : Prop where
  members : o.peers.members = o.peers.owned
  distinct : o.peers.owned.Nodup
  closing : o.peers.closingPeers = true ↔ 0 < o.closings
  close_again : 0 < o.closings → ∀ onClose fuel,
    closeOwnedPeers h (.whole Peers) onClose fuel o.peers = (.ok false, o.peers)
  remove_again : ∀ p ∈ o.retiring, ∀ onClose,
    removeOwnedPeer h (.whole Peers) onClose (some p) o.peers = (.ok false, o.peers)

namespace PeerServer

variable {h : Host} {s t : PeerServer} {p : Peer}

structure Inv (h : Host) (s : PeerServer) : Prop where
  members : s.peers.members = s.peers.owned
  closing : s.peers.closingPeers = true ↔ 0 < s.closings
  apart : ∀ p ∈ s.retiring, p ∉ s.peers.owned
  live : ∀ p ∈ s.peers.live, p ∈ s.peers.owned ∨ p ∈ s.retiring
  fresh : ∀ p ∈ s.peers.live, s.descriptor p < s.nextDescriptor ∧ s.descriptor p ∉ s.fired
  injective : ∀ p ∈ s.peers.live, ∀ q ∈ s.peers.live, s.descriptor p = s.descriptor q → p = q
  below : ∀ d ∈ s.fired, d < s.nextDescriptor
  once : s.fired.Nodup
  seen : ∀ o ∈ s.seen, o.InStep h

theorem Inv.sight (hs : s.Inv h) : s.sight.InStep h where
  members := hs.members
  distinct := s.peers.distinct
  closing := hs.closing
  close_again hc _ fuel := closeOwnedPeers_closing fuel (hs.closing.mpr hc)
  remove_again p hp onClose := by
    have hd : s.peers.detach p = (false, s.peers) := if_neg (hs.apart p hp)
    simp only [removeOwnedPeer, Code.bind_run, Part.run_run, PeerServer.sight, Part.whole_get, hd]
    rfl

theorem Inv.observed (hs : s.Inv h) : s.observed.Inv h where
  members := hs.members
  closing := hs.closing
  apart := hs.apart
  live := hs.live
  fresh := hs.fresh
  injective := hs.injective
  below := hs.below
  once := hs.once
  seen o ho := by
    rcases List.mem_append.mp ho with ho | ho
    · exact hs.seen o ho
    · rw [List.mem_singleton.mp ho]
      exact hs.sight

/-- Descriptors may be closed at any time. -/
theorem Inv.shut (hs : s.Inv h) {live : List Peer} (hlive : ∀ p ∈ live, p ∈ s.peers.live)
    (tick : ℕ) : ({ s with peers := { s.peers with live := live, tick := tick } } :
      PeerServer).Inv h where
  members := hs.members
  closing := hs.closing
  apart := hs.apart
  live p hp := hs.live p (hlive p hp)
  fresh p hp := hs.fresh p (hlive p hp)
  injective p hp q hq := hs.injective p (hlive p hp) q (hlive q hq)
  below := hs.below
  once := hs.once
  seen := hs.seen

theorem Inv.closePeer (hs : s.Inv h) (p : Peer) :
    ({ s with peers := (s.peers.closePeer h p).2 } : PeerServer).Inv h := by
  unfold Peers.closePeer
  split
  · exact hs.shut (fun q hq => List.mem_of_mem_filter hq) _
  · exact hs

/-- The handler of a peer is due only while its descriptor is fresh. -/
theorem Inv.fire (hs : s.Inv h) (hp : (s.peers.closePeer h p).1 = true) :
    ({ s with
      peers := (s.peers.closePeer h p).2
      fired := s.fired ++ [s.descriptor p] } : PeerServer).Inv h := by
  have hlive : p ∈ s.peers.live := by
    by_contra hn
    rw [Peers.closePeer, if_neg hn] at hp
    cases hp
  have hfresh := hs.fresh p hlive
  have hclosed : (s.peers.closePeer h p).2 =
      { s.peers with live := s.peers.live.filter (· ≠ p), tick := s.peers.tick + 1 } := by
    rw [Peers.closePeer, if_pos hlive]
  have hshut := hs.closePeer p
  refine ⟨hshut.members, hshut.closing, hshut.apart, hshut.live, fun q hq => ?_, hshut.injective,
    fun d hd => ?_, ?_, hs.seen⟩
  · refine ⟨(hshut.fresh q hq).1, fun hd => ?_⟩
    rcases List.mem_append.mp hd with hd | hd
    · exact (hshut.fresh q hq).2 hd
    · rw [hclosed] at hq
      obtain ⟨hq, hne⟩ := List.mem_filter.mp hq
      exact of_decide_eq_true hne (hs.injective q hq p hlive (List.mem_singleton.mp hd))
  · rcases List.mem_append.mp hd with hd | hd
    · exact hs.below d hd
    · rw [List.mem_singleton.mp hd]
      exact hfresh.1
  · refine List.nodup_append.mpr ⟨hs.once, List.nodup_singleton _, ?_⟩
    intro d hd d' hd' heq
    rw [List.mem_singleton.mp hd'] at heq
    exact hfresh.2 (heq ▸ hd)

/-- A descriptor that was never seen may be given to an object without one. -/
theorem Inv.opening (hs : s.Inv h) {P : Peers} (hmembers : P.members = P.owned)
    (hclosing : P.closingPeers = s.peers.closingPeers) (hapart : ∀ q ∈ s.retiring, q ∉ P.owned)
    (hheld : ∀ q ∈ P.live, q ∈ P.owned ∨ q ∈ s.retiring)
    (hlive : ∀ q ∈ P.live, q = p ∨ q ∈ s.peers.live) (hclosed : p ∉ s.peers.live) :
    (opening p { s with peers := P }).Inv h := by
  have hother {q : Peer} (hq : q ∈ s.peers.live) :
      Function.update s.descriptor p s.nextDescriptor q = s.descriptor q :=
    Function.update_of_ne (fun he : q = p => hclosed (he ▸ hq)) _ _
  have hlt {q : Peer} (hq : q ∈ s.peers.live) : s.descriptor q < s.nextDescriptor :=
    (hs.fresh q hq).1
  refine ⟨hmembers, ?_, hapart, hheld, fun q hq => ?_, fun q hq r hr he => ?_, fun d hd => ?_,
    hs.once, hs.seen⟩
  · rw [PeerServer.opening, hclosing]
    exact hs.closing
  · dsimp only [PeerServer.opening]
    rcases hlive q hq with rfl | hq
    · rw [Function.update_self]
      exact ⟨Nat.lt_succ_self _, fun hd => Nat.lt_irrefl _ (hs.below _ hd)⟩
    · rw [hother hq]
      exact ⟨Nat.lt_succ_of_lt (hlt hq), (hs.fresh q hq).2⟩
  · dsimp only [PeerServer.opening] at he
    rcases hlive q hq with rfl | hq' <;> rcases hlive r hr with rfl | hr'
    · rfl
    · rw [Function.update_self, hother hr'] at he
      exact absurd (hlt hr') (he ▸ Nat.lt_irrefl _)
    · rw [Function.update_self, hother hq'] at he
      exact absurd (hlt hq') (he ▸ Nat.lt_irrefl _)
    · rw [hother hq', hother hr'] at he
      exact hs.injective q hq' r hr' he
  · exact Nat.lt_succ_of_lt (hs.below d hd)

theorem Inv.detached (hs : s.Inv h) (hp : p ∈ s.peers.owned) :
    ({ s with retiring := p :: s.retiring, peers := (s.peers.detach p).2 } : PeerServer).Inv h := by
  have hd : s.peers.detach p = (true, { s.peers with
      owned := s.peers.owned.erase p, distinct := s.peers.distinct.erase p,
      members := s.peers.members.erase p }) := if_pos hp
  rw [hd]
  refine ⟨by rw [hs.members], hs.closing, fun q hq => ?_, fun q hq => ?_, hs.fresh, hs.injective,
    hs.below, hs.once, hs.seen⟩
  · rcases List.mem_cons.mp hq with rfl | hq
    · exact fun hmem => (s.peers.distinct.mem_erase_iff.mp hmem).1 rfl
    · exact fun hmem => hs.apart q hq (List.mem_of_mem_erase hmem)
  · by_cases he : q = p
    · exact .inr (he ▸ List.mem_cons_self)
    · rcases hs.live q hq with hmem | hmem
      · exact .inl ((List.mem_erase_of_ne he).mpr hmem)
      · exact .inr (List.mem_cons_of_mem _ hmem)

theorem Inv.destroyed (hs : s.Inv h) {l : List Peer} (hl : s.retiring = p :: l) :
    (s.destroyed p).Inv h := by
  have hsub : ∀ q ∈ s.peers.live.filter (· ≠ p), q ∈ s.peers.live :=
    fun q hq => List.mem_of_mem_filter hq
  have hshut := hs.shut hsub s.peers.tick
  have htail : (s.destroyed p).retiring = l := congrArg List.tail hl
  refine ⟨hs.members, hs.closing, fun q hq => ?_, fun q hq => ?_, hshut.fresh, hshut.injective,
    hs.below, hs.once, hs.seen⟩
  · rw [htail] at hq
    exact hs.apart q (hl ▸ List.mem_cons_of_mem _ hq)
  · obtain ⟨hq, hne⟩ := List.mem_filter.mp hq
    rw [htail]
    rcases hs.live q hq with hmem | hmem
    · exact .inl hmem
    · rw [hl] at hmem
      exact .inr ((List.mem_cons.mp hmem).resolve_left (of_decide_eq_true hne))

/-- The invariant, with both stacks of calls as they are between two operations
of one handler. -/
structure At (h : Host) (k : ℕ) (l : List Peer) (s : PeerServer) : Prop where
  inv : s.Inv h
  closings : s.closings = k
  retiring : s.retiring = l

/-- The outermost traversal takes its flag back when it ends. -/
theorem At.unwound {k : ℕ} {l : List Peer} (hs : At h (k + 1) l s) (hk : k = 0) :
    At h k l { s with
      closings := s.closings - 1, peers := { s.peers with closingPeers := false } } := by
  have hclosings := hs.closings
  have hcount : s.closings - 1 = k := by omega
  refine ⟨{ hs.inv with closing := ?_ }, hcount, hs.retiring⟩
  rw [hcount, hk]
  exact ⟨fun hf => Bool.noConfusion hf, fun hlt => absurd hlt (Nat.lt_irrefl 0)⟩

section Keeping

variable {cb : Peer → Code PeerServer Unit} {k : ℕ} {l : List Peer}

theorem closePeer_keeps (hcb : ∀ p, Keeps (At h k l) (cb p)) (p : Peer) :
    Keeps (At h k l) (closePeer h peersPart (fireOnClose cb) p) := by
  intro s hs
  rw [closePeer_snd]
  cases hc : ((peersPart.get s).closePeer h p).1 with
  | false => exact ⟨hs.inv.closePeer p, hs.closings, hs.retiring⟩
  | true => exact hcb p _ ⟨(hs.inv.fire hc).observed, hs.closings, hs.retiring⟩

theorem closeLoop_keeps (hcb : ∀ p, Keeps (At h k l) (cb p)) (fuel index : ℕ) (changed : Bool) :
    Keeps (At h k l) (closeLoop h peersPart (fireOnClose cb) fuel index changed) := by
  induction fuel generalizing index changed with
  | zero => exact .halt _
  | succ fuel ih =>
    intro s hs
    rw [closeLoop_succ]
    cases (peersPart.get s).owned[index]? with
    | none => exact hs
    | some p =>
      dsimp only
      have ht := closePeer_keeps hcb p s hs
      revert ht
      rcases closePeer h peersPart (fireOnClose cb) p s with ⟨_ | closed, t⟩
      · exact id
      · exact ih _ _ t

theorem add_keeps {grows : Bool} (hp : Allowed s (.add p grows)) (hs : At h k l s) :
    At h k l (add p grows s).2 := by
  cases grows with
  | false => exact hs
  | true =>
    have hadd : s.peers.addPeer p = (true, (s.peers.addPeer p).2) := by
      rw [Peers.addPeer, dif_pos hp.1]
    have hlive : p ∉ s.peers.live := fun hl => (hs.inv.live p hl).elim hp.1 hp.2
    have hopen : (opening p { s with peers := (s.peers.addPeer p).2 }).Inv h := by
      rw [Peers.addPeer, dif_pos hp.1]
      refine hs.inv.opening ?_ rfl (fun q hq hmem => ?_) (fun q hq => ?_) (fun q hq => ?_) hlive
      · exact congrArg (· ++ [p]) hs.inv.members
      · rcases List.mem_append.mp hmem with hmem | hmem
        · exact hs.inv.apart q hq hmem
        · exact hp.2 (List.mem_singleton.mp hmem ▸ hq)
      · rcases List.mem_append.mp hq with hq | hq
        · exact (hs.inv.live q hq).imp_left (List.mem_append_left _)
        · exact .inl (List.mem_append_right _ hq)
      · rcases List.mem_append.mp hq with hq | hq
        · exact .inr hq
        · exact .inl (List.mem_singleton.mp hq)
    have hrun : (add p true s).2 = opening p { s with peers := (s.peers.addPeer p).2 } := by
      show (Code.whenever (s.peers.addPeer p).1 _ _).2 = _
      rw [hadd]
      rfl
    rw [hrun]
    exact ⟨hopen, hs.closings, hs.retiring⟩

theorem remove_keeps (hcb : ∀ k l p, Keeps (At h k l) (cb p)) (peer : Option Peer) :
    Keeps (At h k l) (remove h cb peer) := by
  intro s hs
  rcases hfound : peer.filter (· ∈ s.peers.owned) with _ | p
  · have hidle : (remove h cb peer s).2 =
        (removeOwnedPeer h peersPart (fireOnClose cb) peer s).2 := by
      simp only [remove, Code.bind_run, Code.read_run, hfound]
      rcases removeOwnedPeer h peersPart (fireOnClose cb) peer s with ⟨_ | _, t⟩ <;> rfl
    rw [hidle]
    cases peer with
    | none => exact hs
    | some p =>
      have hp : p ∉ s.peers.owned := by simpa using hfound
      rw [(removeOwnedPeer_snd p s).trans (if_neg hp)]
      exact hs
  · obtain ⟨rfl, hp⟩ : peer = some p ∧ p ∈ s.peers.owned := by
      simpa [Option.filter_eq_some_iff] using hfound
    have hcall : (remove h cb (some p) s).2 =
        destroyed p (closePeer h peersPart (fireOnClose cb) p
          { s with retiring := p :: s.retiring, peers := (s.peers.detach p).2 }).2 := by
      have hsnd : (removeOwnedPeer h peersPart (fireOnClose cb) (some p)
          { s with retiring := p :: s.retiring }).2 =
          (closePeer h peersPart (fireOnClose cb) p
            { s with retiring := p :: s.retiring, peers := (s.peers.detach p).2 }).2 :=
        (removeOwnedPeer_snd p _).trans (if_pos hp)
      simp only [remove, Code.bind_run, Code.read_run, hfound, Code.modify_run, Code.atExit]
      refine congrArg (destroyed p) (Eq.trans ?_ hsnd)
      rcases removeOwnedPeer h peersPart (fireOnClose cb) (some p) _ with ⟨_ | _, t⟩ <;> rfl
    have hdone := closePeer_keeps (hcb k (p :: l)) p _
      ⟨hs.inv.detached hp, hs.closings, congrArg (p :: ·) hs.retiring⟩
    rw [hcall]
    exact ⟨hdone.inv.destroyed hdone.retiring, hdone.closings, congrArg List.tail hdone.retiring⟩

theorem closeOwned_keeps (hcb : ∀ k l p, Keeps (At h k l) (cb p)) (fuel : ℕ) :
    Keeps (At h k l) (closeOwned h cb fuel) := by
  intro s hs
  have hcall : (closeOwned h cb fuel s).2 =
      (fun t : PeerServer => { t with closings := t.closings - 1 })
        (closeOwnedPeers h peersPart (fireOnClose cb) fuel
          { s with closings := s.closings + 1 }).2 := by
    simp only [closeOwned, Code.bind_run, Code.modify_run, Code.atExit]
    rcases closeOwnedPeers h peersPart (fireOnClose cb) fuel _ with ⟨_ | _, t⟩ <;> rfl
  rw [hcall]
  cases hc : s.peers.closingPeers with
  | true =>
    rw [closeOwnedPeers_closing fuel hc]
    exact ⟨hs.inv, hs.closings, hs.retiring⟩
  | false =>
    have hzero : s.closings = 0 := by
      by_contra hpos
      rw [hs.inv.closing.mpr (Nat.pos_of_ne_zero hpos)] at hc
      cases hc
    rw [closeOwnedPeers_outer fuel hc, Code.atExit]
    have hinner := closeLoop_keeps (hcb (s.closings + 1) l) fuel 0 false
      { s with closings := s.closings + 1, peers := { s.peers with closingPeers := true } }
      ⟨{ hs.inv with closing := ⟨fun _ => Nat.succ_pos _, fun _ => rfl⟩ }, rfl, hs.retiring⟩
    rw [← hs.closings]
    exact hinner.unwound hzero

theorem exec_keeps (hcb : ∀ k l p, Keeps (At h k l) (cb p)) {o : PeerServerOp}
    (ho : Allowed s o) (hs : At h k l s) : At h k l ((system h).exec cb o s).2 := by
  have hperform : At h k l (perform h cb o s).2 := by
    cases o with
    | add peer grows => exact add_keeps ho hs
    | remove peer => exact remove_keeps hcb peer s hs
    | closeOwned fuel => exact closeOwned_keeps hcb fuel s hs
    | close peer => exact Keeps.bind (closePeer_keeps (hcb k l) peer) (fun _ => .pure ()) s hs
    | reopen peer =>
      refine ⟨hs.inv.opening hs.inv.members rfl hs.inv.apart (fun q hq => ?_)
        (fun q hq => List.mem_cons.mp hq) ho.2, hs.closings, hs.retiring⟩
      rcases List.mem_cons.mp hq with rfl | hq
      · exact ho.1
      · exact hs.inv.live q hq
  exact ⟨hperform.inv.observed, hperform.closings, hperform.retiring⟩

end Keeping

/-- Handlers leave the invariant and the stacks of the calls around them. -/
theorem handler_keeps {cb : Peer → Code PeerServer Unit}
    (hcb : Realizable (system h) Allowed (fun _ _ => True) cb) (k : ℕ) (l : List Peer) (p : Peer) :
    Keeps (At h k l) (cb p) := by
  have hwithin := fun t => (hcb.steps p t).within
    (R := fun a b => ∀ k l, At h k l a → At h k l b) (fun _ _ _ ha => ha)
    (fun a b c hab hbc k l ha => hbc k l (hab k l ha))
    (fun o cb _ hR t ht k l hs => exec_keeps (fun k l p t ht => hR p t k l ht) ht hs)
  exact fun t ht => hwithin t k l ht

theorem Reaches.inv (hs : Reaches h s) : s.Inv h :=
  Run.keeps (fun o cb hcb t ho ht =>
    (exec_keeps (fun k l p => handler_keeps hcb k l p) ho ⟨ht, rfl, rfl⟩).inv) hs
    ⟨rfl, by decide, by simp, by simp, by simp, by simp, by simp, List.nodup_nil, by simp⟩

end PeerServer

/-- At every moment that user code can see, the two lists of a collection agree,
its flag says whether a traversal is under way, and neither a second traversal
nor a second retirement of a peer does anything.  No descriptor has its close
handler called twice.  Logical peers have no handlers, so the traversal of a UDP
server is never seen. -/
theorem peer_collection_in_step :
    (∀ (h : Host) (s : PeerServer), PeerServer.Reaches h s →
      s.fired.Nodup ∧ ∀ o ∈ s.seen ++ [s.sight], o.InStep h) ∧
    ∀ (h : UdpHost) (c : UdpServerClass) (s : UdpServer), UdpServer.Reaches h c s →
      s.members = s.owned.map (·.address) ∧ (s.owned.map (·.address)).Nodup ∧
        s.closingPeers = false := by
  refine ⟨fun h s hs => ⟨hs.inv.once, fun o ho => ?_⟩, fun h c s hs => ?_⟩
  · rcases List.mem_append.mp ho with ho | ho
    · exact hs.inv.seen o ho
    · rw [List.mem_singleton.mp ho]
      exact hs.inv.sight
  · exact ⟨hs.sound.members, hs.sound.addresses, hs.closing⟩

/-- A server that has added two peers. -/
def pairServer : PeerServer :=
  ((PeerServer.system .steady).exec (fun _ => pure ()) (.add 1 true)
    ((PeerServer.system .steady).exec (fun _ => pure ()) (.add 0 true) {}).2).2

/-- It closes them, and the handler of each closes all of them and removes its own. -/
def nestedServer : PeerServer :=
  ((PeerServer.system .steady).exec
    (fun p => script (PeerServer.system .steady) [.closeOwned 8, .remove (some p)]) (.closeOwned 8) pairServer).2

theorem peer_collection_in_step_nested : nestedServer.fired = [0, 1] ∧ nestedServer.seen.length = 9 ∧
    nestedServer.fired.Nodup ∧ ∀ o ∈ nestedServer.seen ++ [nestedServer.sight], o.InStep .steady := by
  have hadd {s : PeerServer} (hs : PeerServer.Reaches .steady s) (p : Peer)
      (hnew : p ∉ s.peers.owned ∧ p ∉ s.retiring) : PeerServer.Reaches .steady
      ((PeerServer.system .steady).exec (fun _ => pure ()) (.add p true) s).2 :=
    Run.next (PeerServerOp.add p true) (fun _ => pure ()) hs hnew (.idle ..)
  have hpair : PeerServer.Reaches .steady pairServer :=
    hadd (hadd .start 0 (by decide +kernel)) 1 (by decide +kernel)
  have hnested : PeerServer.Reaches .steady nestedServer := by
    refine Run.next (PeerServerOp.closeOwned 8) _ hpair trivial ⟨fun p t => ?_, fun _ _ _ _ => trivial⟩
    refine Steps.script (.refl t) _ fun o ho _ => ?_
    rcases List.mem_pair.mp ho with rfl | rfl <;> exact trivial
  have hin := peer_collection_in_step.1 _ _ hnested
  exact ⟨by decide +kernel, by decide +kernel, hin.1, hin.2⟩

end Aeon
