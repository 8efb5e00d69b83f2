import Aeon.UdpSends

/-!
# Closed peers stay silent

Whether a peer is valid depends on its own flag and on the descriptor of its server,
which goes and comes back.  Once the flag is down it stays down, as nothing but the
creation of another object sets it.
-/

namespace Aeon

open Program Reentrant

namespace UdpServer

variable {h : UdpHost} {c : UdpServerClass} {s t : UdpServer} {a : ℕ}

/-- The peer object at `a` is never valid and never makes a native call. -/
structure Silent (a : ℕ) (t : UdpServer) : Prop where
  invalid : ∀ p ∈ t.owned, p.address = a → p.isValidSocket t.toUdpSocket = false
  sends : ∀ answer data size sent, (t.writePeer a answer data size).1 = some sent → sent.call = none

theorem Holds.silent (ht : Holds a (fun p => p.peerActive = false) t) : Silent a t := by
  have hinvalid : ∀ p ∈ t.owned, p.address = a → p.isValidSocket t.toUdpSocket = false := by
    intro p hp ha
    rw [UdpPeer.isValidSocket, ht.peers p hp ha, Bool.false_and]
  refine ⟨hinvalid, fun answer data size sent hsent => ?_⟩
  obtain ⟨p, hfound, rfl⟩ := Option.map_eq_some_iff.mp hsent
  have hp := List.mem_of_find?_eq_some hfound
  have ha : p.address = a := by simpa using List.find?_some hfound
  show (sendDatagram (p.isValidSocket t.toUdpSocket) _ _ _ _ _ _).call = none
  rw [hinvalid p hp ha]
  rfl

/-- The ways in which the peer at `a` is closed: by itself, with its server, or by a
rebind of its server. -/
inductive Closes (h : UdpHost) (c : UdpServerClass) (a : ℕ) (s : UdpServer) : UdpServer → Prop
  | peer : Closes h c a s (s.closePeer a).2
  | removed : Closes h c a s (s.removeOwnedPeer (some a)).2
  | server {cb : UdpNote → Code UdpServer Unit} {changed : Bool}
      (real : Realizable (system h c) (fun _ _ => True) (fun _ _ => True) cb)
      (returned : (close h c cb s).1 = .ok changed) : Closes h c a s (close h c cb s).2
  | rebound {cb : UdpNote → Code UdpServer Unit} {port : Int}
      (real : Realizable (system h c) (fun _ _ => True) (fun _ _ => True) cb)
      (returned : (listen h c cb port s).1 = .ok true) : Closes h c a s (listen h c cb port s).2

/-- Before the peers are closed, the object has been made and no other traversal is going on. -/
def Closable (a : ℕ) (s : UdpServer) : Prop := Holds a (fun _ => True) s ∧ s.closingPeers = false

theorem closable_stable (a : ℕ) : Stable (Closable a) :=
  (holds_stable ⟨fun _ _ => trivial, fun _ _ _ _ _ _ => trivial⟩ a).and closing_stable

theorem closeOwnedPeers_closes (hs : Closable a s) :
    Holds a (fun p => p.peerActive = false) s.closeOwnedPeers.2 := by
  rw [UdpServer.closeOwnedPeers, if_neg (by simp [hs.2])]
  refine ⟨hs.1.made, fun p hp _ => ?_⟩
  obtain ⟨q, -, rfl⟩ := List.mem_map.mp hp
  rfl

section Handlers

variable {cb : UdpNote → Code UdpServer Unit}
variable (real : Realizable (system h c) (fun _ _ => True) (fun _ _ => True) cb)

include real

theorem close_closes : Triple (Closable a) (close h c cb)
    (fun _ => Holds a fun p => p.peerActive = false) (fun _ _ => True) := by
  have hI := closable_stable a
  have hsocket := keeps_iff.mp (hI.keeps_socket (f := fun s =>
    ((s.toSocket.close h.toHost).1, { s with toSocket := (s.toSocket.close h.toHost).2 }))
    fun u => .of_eq (Socket.close_netFamily ..))
  have hfire := keeps_iff.mp (keeps_fire (c := c) (hI.handlers real) .closed)
  refine Triple.bind (hsocket.mono (fun _ hs => hs) (fun _ _ hs => hs) fun _ _ _ => trivial)
    fun changed => ?_
  refine Triple.bind (Q := fun _ => Closable a) ?_ fun _ => ?_
  · refine .whenever (fun _ => ?_) fun _ _ hs => hs
    exact hfire.mono (fun _ hs => hs) (fun _ _ hs => hs) fun _ _ _ => trivial
  · exact Triple.bind (Q := fun _ => Holds a fun p => p.peerActive = false)
      (fun _ hs => closeOwnedPeers_closes hs) fun _ => .ret fun _ hs => hs

theorem listen_closes (port : Int) : Triple (Closable a) (listen h c cb port)
    (fun ok t => ok = true → Holds a (fun p => p.peerActive = false) t) (fun _ _ => True) := by
  have hI := closable_stable a
  have hsocket := keeps_iff.mp (hI.keeps_socket (udpCall_family h (.listen port)))
  have hfire := keeps_iff.mp (keeps_fire (c := c)
    ((holds_stable lasting_closed a).handlers real) .listening)
  refine Triple.bind (hsocket.mono (fun _ hs => hs) (fun _ _ hs => hs) fun _ _ _ => trivial)
    fun ok => .ite (fun _ => ?_) fun _ => .ret fun _ _ => nofun
  refine Triple.bind (Q := fun _ => Holds a fun p => p.peerActive = false)
    (fun _ hs => closeOwnedPeers_closes hs) fun _ => ?_
  refine Triple.bind (hfire.mono (fun _ hs => hs) (fun _ _ hs => hs) fun _ _ _ => trivial)
    fun _ => .ret fun _ hs _ => hs

end Handlers

theorem Closes.holds (hs : Reaches h c s) {p : UdpPeer} (hp : p ∈ s.owned)
    (ht : Closes h c p.address s t) : Holds p.address (fun q => q.peerActive = false) t := by
  have hbefore : Closable p.address s :=
    ⟨⟨hs.sound.below p hp, fun _ _ _ => trivial⟩, hs.closing⟩
  cases ht with
  | peer =>
    refine ⟨hbefore.1.made, fun q hq ha => ?_⟩
    obtain ⟨q, -, rfl⟩ := List.mem_map.mp hq
    split
    · rfl
    · rename_i hne
      rw [if_neg hne] at ha
      exact absurd ha hne
  | removed =>
    obtain ⟨-, hfresh, howned⟩ := hs.sound.remove hp
    refine ⟨hfresh ▸ hbefore.1.made, fun q hq ha => ?_⟩
    obtain ⟨hmem, hne⟩ := (howned q).mp hq
    have hfound := hs.sound.peerAt hmem
    rw [ha, hs.sound.peerAt hp] at hfound
    exact absurd (Option.some.inj hfound).symm hne
  | @server cb changed real returned =>
    have hclosed := close_closes real s hbefore
    revert hclosed
    rcases hr : close h c cb s with ⟨_ | _, t⟩
    · rw [hr] at returned
      cases returned
    · exact id
  | @rebound cb port real returned =>
    have hclosed := listen_closes real port s hbefore
    revert hclosed
    rcases hr : listen h c cb port s with ⟨_ | ok, t⟩
    · rw [hr] at returned
      cases returned
    · rw [hr] at returned
      exact fun hclosed => hclosed (Except.ok.inj returned)

/-- A peer that has been closed, by itself or with its server, stays silent for ever, even
after the server is bound again.  And what is done to a peer leaves the socket of its server
as it is. -/
theorem closed_peers_silent (hs : Reaches h c s) :
    (∀ p ∈ s.owned, ∀ s', Closes h c p.address s s' → ∀ t, Continues h c s' t →
      Silent p.address t) ∧
    ∀ a answer data size, (s.closePeer a).2.toUdpSocket = s.toUdpSocket ∧
      (s.removeOwnedPeer (some a)).2.toUdpSocket = s.toUdpSocket ∧
      (s.writePeer a answer data size).2.toUdpSocket = s.toUdpSocket := by
  refine ⟨fun p hp s' hclosed t ht => ?_, fun a answer data size => ⟨rfl, ?_, rfl⟩⟩
  · exact ((holds_stable lasting_closed _).run ht (hclosed.holds hs hp)).silent
  · exact removeOwnedPeer_base (some a) s

end UdpServer

open UdpServer

/-- A server that has made a peer, the same after a close, and after another listen. -/
def withPeer : UdpServer := ((listening .steady).getPeer ipv4Peer).2
def closedServer : UdpServer := (close .steady .udpServerSocket (fun _ => pure ()) withPeer).2
def reboundServer : UdpServer :=
  (exec .steady .udpServerSocket (fun _ => pure ()) (.listen 6000) closedServer).2

theorem withPeer_reaches : Reaches .steady .udpServerSocket withPeer :=
  (listening_reaches .steady).next (.getPeer ipv4Peer)

theorem closed_peers_silent_rebound : reboundServer.isValidSocket = true ∧
    reboundServer.owned.map (·.address) = [0] ∧ Silent 0 reboundServer := by
  have hmem : { address := 0, remoteAddr := ipv4Peer } ∈ withPeer.owned := by decide +kernel
  have hclosed : Closes .steady .udpServerSocket 0 withPeer closedServer :=
    @Closes.server _ _ _ _ _ true (.idle _ _ _) (by decide +kernel)
  have hrun : Continues .steady .udpServerSocket closedServer reboundServer :=
    .next (UdpOp.listen 6000) _ .start trivial (.idle _ _ _)
  refine ⟨by decide +kernel, by decide +kernel, ?_⟩
  exact (closed_peers_silent withPeer_reaches).1 _ hmem _ hclosed _ hrun

end Aeon
