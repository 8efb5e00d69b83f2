import Aeon.Listener

/-!
# Who owns an accepted descriptor

`accept` of both listener classes, with the exceptions that memory allocation
may throw.  The base-class constructor owns the descriptor from its end on, so
an exception in the rest of the constructor closes it, and the `catch` block of
`accept` then closes it again.
-/

namespace Aeon

/-- The classes whose objects `create_accepted_socket` makes. -/
inductive PeerClass
  | socket | eventSocket | sslSocket | sslEventSocket
  deriving DecidableEq, Repr

/-- Classes derived from `event_socket`, whose constructors allocate. -/
def PeerClass.handlesEvents : PeerClass → Bool
  | .eventSocket | .sslEventSocket => true
  | .socket | .sslSocket => false

/-- Where `accept` allocates: the object, the handler table and the queue of an
event peer, the record of its parent, and the two lists of the collection. -/
inductive Allocation
  | object | handlers | outgoing | parent | owned | members
  deriving DecidableEq, Repr

structure AcceptedPeer extends Socket where
  parentServer : Option ℕ := none
  deriving DecidableEq, Repr

/-- `~socket`. -/
def Socket.destroy (h : Host) (s : Socket) : Socket :=
  if s.isValidSocket then (s.close h).2 else s

/-- What a factory gives: a peer, or what is left of one when it gives none. -/
inductive Made
  | thrown (remains : Socket)
  | refused (remains : Socket)
  | made (peer : Socket)
  deriving DecidableEq, Repr

/-- What `accept` leaves: its result, the listener, and the peer, or what the
peer did until it was destroyed. -/
structure Accepted where
  outcome : Except Program.Halt (Option Peer)
  listener : Listener
  peer : AcceptedPeer

/-- The rest of `accept`, once the factory has given a peer. -/
def Listener.addAccepted (h : Host) (fails : Option Allocation) (self : ℕ) (blocking : Bool) (address : Peer)
    (peer : Socket) (l : Listener) : Accepted :=
  if fails = some .parent then ⟨.error .thrown, l, { toSocket := peer.destroy h }⟩
  else
    let mode := peer.setBlocking h blocking
    if !mode.1 then ⟨.ok none, l, { toSocket := mode.2.destroy h, parentServer := some self }⟩
    else if fails = some .owned ∨ fails = some .members then
      ⟨.error .thrown, l, { toSocket := mode.2.destroy h, parentServer := some self }⟩
    else
      let added := l.peers.addPeer address
      ⟨.ok (if added.1 then some address else none), { l with peers := added.2 },
        { toSocket := mode.2, parentServer := some self }⟩

namespace PeerClass

variable (c : PeerClass) (h : Host) (fails : Option Allocation)

/-- The constructor of the peer.  An exception in the derived part unwinds the
base object. -/
def construct (fd : ℕ) : Bool × Socket :=
  let base := Socket.adopt h 0 fd
  if !c.handlesEvents then (true, base)
  else if fails = some .handlers ∨ fails = some .outgoing then (false, base.destroy h)
  else (true, (EventSocket.construct h base).toSocket)

/-- `create_accepted_socket`.  A factory that `declines` has closed its peer,
as one does whose TLS session fails. -/
def createAcceptedSocket (declines : Bool) (fd : ℕ) : Made :=
  if fails = some .object then .thrown {}
  else
    let built := c.construct h fails fd
    if !built.1 then .thrown built.2
    else if declines then .refused (built.2.destroy h)
    else .made built.2

/-- `accept(blocking)` of the listener at address `self`; `peerHost` answers the
native calls on the peer, and the object of a new peer gets `address`. -/
def accept (peerHost : Host) (self : ℕ) (declines blocking : Bool) (address : Peer)
    (l : Listener) : Accepted :=
  let native := l.toSocket.tcpAccept h l.acceptTimeoutMs
  let l := { l with toSocket := native.2 }
  match native.1 with
  | none => ⟨.ok none, l, {}⟩
  | some fd =>
    match c.createAcceptedSocket peerHost fails declines fd with
    | .thrown remains =>
      ⟨.error .thrown, { l with toSocket := l.toSocket.record (.closed fd) },
        { toSocket := remains }⟩
    | .refused remains => ⟨.ok none, l, { toSocket := remains }⟩
    | .made peer => l.addAccepted peerHost fails self blocking address peer

/-- The exception leaves a constructor that owns the descriptor already. -/
def throwsOwning : Prop :=
  c.handlesEvents = true ∧ (fails = some .handlers ∨ fails = some .outgoing)

end PeerClass

/-- What the call added to the history of the listener. -/
def Accepted.added (l : Listener) (r : Accepted) : List Event := r.listener.log.drop l.log.length

/-- How often the call, or the peer that it made, closed the descriptor. -/
def Accepted.closes (l : Listener) (r : Accepted) (fd : ℕ) : ℕ :=
  (r.added l).count (.closed fd) + r.peer.log.count (.closed fd)

/-- The descriptor belongs to one peer, which was added, or it was closed once
and the collection is as it was. -/
def Accepted.Settles (self : ℕ) (address : Peer) (l : Listener) (r : Accepted) (fd : ℕ) : Prop :=
  (r.listener.peers.owned = l.peers.owned ++ [address] ∧
    r.listener.peers.members = l.peers.members ++ [address] ∧
    r.peer.sockfd = some fd ∧ r.peer.parentServer = some self ∧
    r.closes l fd = 0) ∨
  (r.listener.peers = l.peers ∧ r.closes l fd = 1)

/-- The socket owns the descriptor, or has closed it once. -/
def Owns (fd : ℕ) (s : Socket) : Prop := s.sockfd = some fd ∧ s.log.count (.closed fd) = 0

def Released (fd : ℕ) (s : Socket) : Prop := s.sockfd = none ∧ s.log.count (.closed fd) = 1

section Peers

variable {h : Host} {s : Socket} {fd : ℕ}

theorem adopt_owns (h : Host) (tick fd : ℕ) : Owns fd (Socket.adopt h tick fd) := by
  unfold Socket.adopt
  dsimp only
  split <;> exact ⟨rfl, rfl⟩

theorem Owns.close (hs : Owns fd s) : Released fd (s.close h).2 := by
  refine ⟨s.close_sockfd h, ?_⟩
  rw [Socket.close_log hs.1, List.count_append, hs.2]
  simp

theorem destroy_released (h : Host) (hs : Owns fd s ∨ Released fd s) : Released fd (s.destroy h) := by
  unfold Socket.destroy
  rcases hs with hs | hs
  · rw [if_pos (by simp [Socket.isValidSocket, hs.1])]
    exact hs.close
  · rwa [if_neg (by simp [Socket.isValidSocket, hs.1])]

theorem setBlocking_frame (flag : Bool) (s : Socket) :
    (s.setBlocking h flag).2.sockfd = s.sockfd ∧ (s.setBlocking h flag).2.log = s.log ∧
      ((s.setBlocking h flag).1 = true → s.isValidSocket = true) := by
  unfold Socket.setBlocking
  split
  · exact ⟨rfl, rfl, fun h => absurd h Bool.false_ne_true⟩
  · rename_i hvalid
    dsimp only
    split <;> exact ⟨rfl, rfl, fun _ => by simpa using hvalid⟩

theorem setBlocking_carries (flag : Bool) (hs : Owns fd s ∨ Released fd s) :
    (Owns fd (s.setBlocking h flag).2 ∨ Released fd (s.setBlocking h flag).2) ∧
      ((s.setBlocking h flag).1 = true → Owns fd (s.setBlocking h flag).2) := by
  obtain ⟨hfd, hlog, hvalid⟩ := setBlocking_frame (h := h) flag s
  have hcarried : Owns fd (s.setBlocking h flag).2 ∨ Released fd (s.setBlocking h flag).2 := by
    simpa only [Owns, Released, hfd, hlog] using hs
  refine ⟨hcarried, fun hset => hcarried.resolve_right fun hgone => ?_⟩
  have hv := hvalid hset
  simp [Socket.isValidSocket, ← hfd, hgone.1] at hv

theorem construct_carries (hs : Owns fd s) :
    Owns fd (EventSocket.construct h s).toSocket ∨ Released fd (EventSocket.construct h s).toSocket := by
  unfold EventSocket.construct
  split
  · exact .inl hs
  · obtain ⟨hcarried, -⟩ := setBlocking_carries (h := h) false (.inl hs : Owns fd s ∨ Released fd s)
    dsimp only
    split
    · exact hcarried
    · rcases hcarried with hheld | hgone
      · exact .inr hheld.close
      · exact .inr (by rwa [Socket.close_none hgone.1])

end Peers

namespace PeerClass

variable {c : PeerClass} {h : Host} {fails : Option Allocation} {fd : ℕ}

/-- What a factory does with the descriptor.  It gives up a peer that has closed
the descriptor already only if its constructor throws while it owns that. -/
inductive Makes (fd : ℕ) (owning : Prop) : Made → Prop
  | unwound {remains : Socket} (howning : owning) (h : Released fd remains) :
      Makes fd owning (.thrown remains)
  | thrown (howning : ¬owning) : Makes fd owning (.thrown {})
  | refused {remains : Socket} (howning : ¬owning) (h : Released fd remains) :
      Makes fd owning (.refused remains)
  | made {peer : Socket} (howning : ¬owning) (h : Owns fd peer ∨ Released fd peer) :
      Makes fd owning (.made peer)

theorem createAcceptedSocket_makes (c : PeerClass) (h : Host) (fails : Option Allocation)
    (declines : Bool) (fd : ℕ) :
    Makes fd (c.throwsOwning fails) (c.createAcceptedSocket h fails declines fd) := by
  unfold createAcceptedSocket
  have hbase := adopt_owns h 0 fd
  split
  · rename_i hobject
    exact .thrown fun ht => by simp [throwsOwning, hobject] at ht
  · by_cases howning : c.throwsOwning fails
    · have hbuilt : c.construct h fails fd = (false, (Socket.adopt h 0 fd).destroy h) := by
        simp only [construct, howning.1, Bool.not_true, Bool.false_eq_true, if_false, if_pos howning.2]
      rw [hbuilt]
      exact .unwound howning (destroy_released h (.inl hbase))
    · obtain ⟨peer, hbuilt, hpeer⟩ : ∃ peer, c.construct h fails fd = (true, peer) ∧
          (Owns fd peer ∨ Released fd peer) := by
        unfold construct
        cases hc : c.handlesEvents with
        | false => exact ⟨_, rfl, .inl hbase⟩
        | true =>
          rw [if_neg (by decide), if_neg fun hf => howning ⟨hc, hf⟩]
          exact ⟨_, rfl, construct_carries hbase⟩
      rw [hbuilt, if_neg (by simp)]
      split
      · exact .refused howning (destroy_released h hpeer)
      · exact .made howning hpeer

end PeerClass

/-- The native part of `accept`: it gives the descriptor that it accepted, or it
has closed that. -/
structure NativeAccept (s : Socket) (r : Option ℕ × Socket) : Prop where
  some : ∀ fd, r.1 = some fd → r.2.log = s.log ++ [.opened fd]
  none : r.1 = none → r.2.log = s.log ∨ ∃ fd, r.2.log = s.log ++ [.opened fd, .closed fd]

theorem tcpAccept_native (h : Host) (timeoutMs : Int) (s : Socket) :
    NativeAccept s (s.tcpAccept h timeoutMs) := by
  have hnone {t : Socket} (ht : t.log = s.log) : NativeAccept s (Option.none, t) :=
    ⟨fun _ hfd => (nomatch hfd), fun _ => .inl ht⟩
  have hwait : (if timeoutMs > 0 then s.ticked else s).log = s.log := by split <;> rfl
  unfold Socket.tcpAccept
  split
  · exact hnone rfl
  · dsimp only
    generalize (if timeoutMs > 0 then s.ticked else s) = t at hwait ⊢
    generalize (if timeoutMs > 0 then h.select s.tick else ⟨1, 0⟩) = ready
    split
    · exact hnone hwait
    · split
      · exact hnone hwait
      · split
        · split
          · exact hnone hwait
          · exact hnone hwait
        · rename_i fd _
          have hlog (es : List Event) : t.log ++ es = s.log ++ es := by rw [hwait]
          split
          · refine ⟨fun _ hfd => (nomatch hfd), fun _ => .inr ⟨fd, ?_⟩⟩
            show (t.log ++ [.opened fd]) ++ [.closed fd] = _
            rw [List.append_assoc]
            exact hlog _
          · refine ⟨fun fd' hfd => ?_, fun hfd => nomatch hfd⟩
            obtain rfl := Option.some.inj hfd
            exact hlog _

namespace PeerClass

theorem added_eq {l : Listener} {r : Accepted} {es : List Event}
    (hlog : r.listener.log = l.log ++ es) : r.added l = es := by
  rw [Accepted.added, hlog, List.drop_left]

/-- A peer that has closed the descriptor leaves a settled call without it. -/
theorem settles_released {l : Listener} {r : Accepted} {self fd : ℕ} {address : Peer}
    (hpeers : r.listener.peers = l.peers) (hlog : r.listener.log = l.log ++ [.opened fd])
    (hgone : Released fd r.peer.toSocket) : r.Settles self address l fd := by
  refine .inr ⟨hpeers, ?_⟩
  rw [Accepted.closes, added_eq hlog, hgone.2]
  rfl

theorem addAccepted_log (h : Host) (fails : Option Allocation) (self : ℕ) (blocking : Bool)
    (address : Peer) (peer : Socket) (l : Listener) :
    (l.addAccepted h fails self blocking address peer).listener.log = l.log := by
  unfold Listener.addAccepted
  split
  · rfl
  · dsimp only
    split
    · rfl
    · split <;> rfl

theorem addAccepted_settles {l t : Listener} {fd : ℕ} {address : Peer} {peer : Socket} (h : Host)
    (fails : Option Allocation) (self : ℕ) (blocking : Bool)
    (hpeers : t.peers = l.peers) (hlog : t.log = l.log ++ [.opened fd])
    (hnew : address ∉ l.peers.owned) (hpeer : Owns fd peer ∨ Released fd peer) :
    (t.addAccepted h fails self blocking address peer).Settles self address l fd := by
  unfold Listener.addAccepted
  split
  · exact settles_released hpeers hlog (destroy_released h hpeer)
  · obtain ⟨hcarried, hset⟩ := setBlocking_carries (h := h) blocking hpeer
    dsimp only
    split
    · exact settles_released hpeers hlog (destroy_released h hcarried)
    · rename_i hmode
      split
      · exact settles_released hpeers hlog (destroy_released h hcarried)
      · have hheld := hset (by simpa using hmode)
        have hadd : address ∉ t.peers.owned := by rwa [hpeers]
        refine .inl ⟨?_, ?_, hheld.1, rfl, ?_⟩
        · rw [← hpeers, Peers.addPeer, dif_pos hadd]
        · rw [← hpeers, Peers.addPeer, dif_pos hadd]
        · rw [Accepted.closes, added_eq hlog, hheld.2]
          rfl

/-- An accepted descriptor ends in one added peer, or closed once with the
collection unchanged, exactly when no exception leaves a constructor that owns it. -/
theorem accept_settles_iff (c : PeerClass) (h peerHost : Host) (fails : Option Allocation)
    (self : ℕ) (declines blocking : Bool) (address : Peer) (l : Listener)
    (hnew : address ∉ l.peers.owned) :
    (∀ fd, .opened fd ∈ (c.accept h fails peerHost self declines blocking address l).added l →
      (c.accept h fails peerHost self declines blocking address l).Settles self address l fd) ↔
      ¬((l.toSocket.tcpAccept h l.acceptTimeoutMs).1.isSome = true ∧ c.throwsOwning fails) := by
  have hnative := tcpAccept_native h l.acceptTimeoutMs l.toSocket
  unfold accept
  dsimp only
  generalize l.toSocket.tcpAccept h l.acceptTimeoutMs = native at hnative ⊢
  cases hfd : native.1 with
  | none =>
    refine iff_of_true (fun fd hmem => ?_) (by simp)
    rcases hnative.none hfd with hlog | ⟨fd', hlog⟩
    · rw [added_eq (hlog.trans (List.append_nil _).symm)] at hmem
      cases hmem
    · rw [added_eq hlog] at hmem
      obtain rfl : fd = fd' := by simpa using hmem
      refine .inr ⟨rfl, ?_⟩
      rw [Accepted.closes, added_eq hlog]
      simp
  | some fd =>
    have hlog := hnative.some fd hfd
    have hcaught : native.2.log ++ [.closed fd] = l.log ++ [.opened fd, .closed fd] := by
      rw [hlog, List.append_assoc]
      rfl
    have hmakes := c.createAcceptedSocket_makes peerHost fails declines fd
    simp only [Option.isSome_some, true_and]
    generalize c.createAcceptedSocket peerHost fails declines fd = made at hmakes ⊢
    cases hmakes with
    | unwound howning hgone =>
      refine iff_of_false (fun hall => ?_) (not_not.mpr howning)
      rcases hall fd (by rw [added_eq hcaught]; simp) with ⟨-, -, hheld, -⟩ | ⟨-, hcloses⟩
      · rw [hgone.1] at hheld
        cases hheld
      · rw [Accepted.closes, added_eq hcaught, hgone.2] at hcloses
        simp at hcloses
    | thrown howning =>
      refine iff_of_true (fun fd' hmem => ?_) howning
      rw [added_eq hcaught] at hmem
      obtain rfl : fd' = fd := by simpa using hmem
      refine .inr ⟨rfl, ?_⟩
      rw [Accepted.closes, added_eq hcaught]
      simp
    | refused howning hgone =>
      refine iff_of_true (fun fd' hmem => ?_) howning
      rw [added_eq hlog] at hmem
      obtain rfl : fd' = fd := by simpa using hmem
      exact settles_released rfl hlog hgone
    | @made peer howning hpeer =>
      refine iff_of_true (fun fd' hmem => ?_) howning
      rw [added_eq ((addAccepted_log ..).trans hlog)] at hmem
      obtain rfl : fd' = fd := by simpa using hmem
      exact addAccepted_settles peerHost fails self blocking rfl hlog hnew hpeer

/-- A listener of event peers. -/
def eventListener : Listener where
  sockfd := some 3
  connected := true

theorem accept_closes_twice : ¬ ∀ (c : PeerClass) (h peerHost : Host)
    (fails : Option Allocation) (self : ℕ) (declines blocking : Bool) (address : Peer)
    (l : Listener), address ∉ l.peers.owned → ∀ fd,
      .opened fd ∈ (c.accept h fails peerHost self declines blocking address l).added l →
      (c.accept h fails peerHost self declines blocking address l).Settles self address l fd := by
  intro hall
  have hsettles := hall .eventSocket .steady .steady (some .handlers) 1 false false 1 eventListener
    (by decide) 4 (by decide)
  rcases hsettles with ⟨hadded, -⟩ | ⟨-, hcloses⟩
  · exact absurd hadded (by decide)
  · exact absurd hcloses (by decide)

theorem accept_settles_iff_plain :
    (∀ fd, .opened fd ∈ (PeerClass.socket.accept .steady none .steady 1 false false 1
        eventListener).added eventListener →
      (PeerClass.socket.accept .steady none .steady 1 false false 1
        eventListener).Settles 1 1 eventListener fd) ↔
      ¬((eventListener.toSocket.tcpAccept .steady eventListener.acceptTimeoutMs).1.isSome = true ∧
        PeerClass.socket.throwsOwning none) :=
  accept_settles_iff .socket .steady .steady none 1 false false 1 eventListener (by decide)

end PeerClass

end Aeon
