import Aeon.UdpPeers

/-!
# What peers send

A logical peer keeps the address that it was created with and sends on the
descriptor of its server, in the form that the descriptor takes.
-/

namespace Aeon

open Program Reentrant Sockaddr

namespace Sockaddr

variable {family : Family} {remote target : Sockaddr}

theorem sameMapped_toMapped (v4 : Vector UInt8 4) : sameMapped v4 (toMapped v4) 0 = true := by
  have hbytes : (toMapped v4).toList = mappedPrefix ++ v4.toList := Vector.toList_append
  simp [sameMapped, isMapped, hbytes, mappedPrefix]

/-- The destination that is formed is one of the native family for the same endpoint. -/
theorem native_aims (hfamily : family ≠ .other) (h : remote.native family = some target) :
    target.family = family ∧ target.sameUdpAddress remote = true := by
  unfold native at h
  split at h
  · rename_i hsame
    obtain rfl := Option.some.inj h
    exact ⟨hsame, same_refl (hsame ▸ hfamily)⟩
  · split at h
    · obtain rfl := Option.some.inj h
      exact ⟨rfl, same_symm (same_mapped _ _ (sameMapped_toMapped _))⟩
    · cases h

/-- An IPv6 descriptor can be given every endpoint. -/
theorem native_inet6 (hremote : remote.family ≠ .other) : ∃ target, remote.native .inet6 = some target := by
  cases remote with
  | other => exact absurd rfl hremote
  | inet port addr => exact ⟨_, rfl⟩
  | inet6 port flowinfo addr scope => exact ⟨_, rfl⟩

theorem same_supported {a b : Sockaddr} (hab : a.sameUdpAddress b = true) :
    a.family ≠ .other ∧ b.family ≠ .other := by
  rcases same_cases hab with ⟨_, _, rfl, rfl⟩ | ⟨_, _, _, _, _, rfl, rfl⟩ |
      ⟨_, _, _, _, _, -, ⟨rfl, rfl⟩ | ⟨rfl, rfl⟩⟩ <;> exact ⟨nofun, nofun⟩

theorem native_inet : remote.native .inet = if remote.family = .inet then some remote else none := by
  cases remote <;> rfl

end Sockaddr

/-- What a send does with the endpoint `remote` on a descriptor of the family: either
the native call has a destination of this family for this endpoint, or there is none
and an error is returned. -/
structure Aims (fd : Option ℕ) (family : Family) (remote : Sockaddr) (sent : Sent) : Prop where
  destination : ∀ call, sent.call = some call →
    fd = some call.fd ∧ call.target.family = family ∧ call.target.sameUdpAddress remote = true
  refused : sent.call = none → sent.ret = -1 ∧ sent.errorCode ≠ errNone

theorem sendDatagram_aims {fd : Option ℕ} {family : Family} {valid : Bool}
    (hvalid : valid = true → fd.isSome = true) (hfamily : family ≠ .other) (remote : Sockaddr)
    (answer : IoResult) (data : Option (List UInt8)) (size : Int) :
    Aims fd family remote (sendDatagram valid (fd.getD 0) family remote answer data size) := by
  unfold sendDatagram
  split
  · refine ⟨nofun, fun _ => ⟨rfl, ?_⟩⟩
    cases valid <;> decide
  · rename_i hargs
    have hopen : valid = true := by
      cases valid with
      | true => rfl
      | false => simp at hargs
    cases htarget : remote.native family with
    | none => exact ⟨nofun, fun _ => ⟨rfl, (by decide : errAddressNotAvailable ≠ errNone)⟩⟩
    | some target =>
      refine ⟨fun call hcall => ?_, nofun⟩
      obtain rfl := Option.some.inj hcall
      obtain ⟨fd, rfl⟩ := Option.isSome_iff_exists.mp (hvalid hopen)
      exact ⟨rfl, native_aims hfamily htarget⟩

namespace UdpSocket

/-- The states of a socket that is not a logical peer. -/
inductive Reaches (h : UdpHost) : UdpSocket → Prop
  | construct (tick : ℕ) : Reaches h (.construct h tick)
  | call {s : UdpSocket} (c : UdpCall) (prior : Reaches h s) : Reaches h (c.run h s).2
  | read {s : UdpSocket} (buffer : Bool) (size : Int) (prior : Reaches h s) :
      Reaches h (s.read h buffer size).2
  | write {s : UdpSocket} (answer : IoResult) (data : Option (List UInt8)) (size : Int)
      (prior : Reaches h s) : Reaches h (s.write answer data size).2
  | set {s : UdpSocket} (f : PlainSetter) (prior : Reaches h s) :
      Reaches h { s with toSocket := (f.run h.toHost s.toSocket).2 }
  | close {s : UdpSocket} (prior : Reaches h s) :
      Reaches h { s with toSocket := (s.toSocket.close h.toHost).2 }

theorem Reaches.supported {h : UdpHost} {s : UdpSocket} (hs : Reaches h s) : s.netFamily ≠ .other := by
  induction hs with
  | construct tick => exact construct_family h tick
  | call c _ ih => exact udpCall_family h c _ ih
  | read buffer size _ ih => exact udpRead_family h buffer size _ ih
  | write answer data size _ ih => exact ih
  | set f _ ih => exact (Socket.setter_netFamily h.toHost f _).symm ▸ ih
  | close _ ih => exact (Socket.close_netFamily h.toHost _).symm ▸ ih

theorem Reaches.aims {h : UdpHost} {s : UdpSocket} (hs : Reaches h s) (answer : IoResult)
    (data : Option (List UInt8)) (size : Int) :
    Aims s.sockfd s.netFamily s.remoteAddr (s.write answer data size).1 :=
  sendDatagram_aims id hs.supported _ _ _ _

end UdpSocket

namespace UdpServer

variable {h : UdpHost} {c : UdpServerClass} {s t : UdpServer} {a : ℕ}

/-- The runs that continue from a state. -/
abbrev Continues (h : UdpHost) (c : UdpServerClass) (s t : UdpServer) : Prop :=
  Run (system h c) (fun _ _ => True) (fun _ _ => True) (fun _ _ => True) s t

/-- The object at `a` has been made, and as long as it lives it has the property. -/
structure Holds (a : ℕ) (Q : UdpPeer → Prop) (s : UdpServer) : Prop where
  made : a < s.fresh
  peers : ∀ p ∈ s.owned, p.address = a → Q p

/-- A property of a peer that closing it and writing through it preserve. -/
structure Lasting (Q : UdpPeer → Prop) : Prop where
  close : ∀ p, Q p → Q p.close.2
  write : ∀ p parent answer data size, Q p → Q (p.write parent answer data size).2

theorem createPeer_holds {Q : UdpPeer → Prop} (hs : Holds a Q s) (remote : Sockaddr) :
    Holds a Q (s.createPeer remote).2 := by
  unfold createPeer
  split
  · exact hs
  · refine ⟨Nat.lt_succ_of_lt hs.made, fun p hp ha => ?_⟩
    rcases List.mem_append.mp hp with hp | hp
    · exact hs.peers p hp ha
    · rw [List.mem_singleton.mp hp] at ha
      exact absurd ha (Nat.ne_of_gt hs.made)

theorem removeOwnedPeer_holds {Q : UdpPeer → Prop} (hs : Holds a Q s) (peer : Option ℕ) :
    Holds a Q (s.removeOwnedPeer peer).2 := by
  unfold UdpServer.removeOwnedPeer
  split
  · exact hs
  · exact ⟨hs.made, fun p hp ha => hs.peers p (List.eraseP_sublist.subset hp) ha⟩

theorem Holds.mapped {Q : UdpPeer → Prop} (hs : Holds a Q s) {f : UdpPeer → UdpPeer}
    (hf : ∀ p, (f p).address = p.address ∧ (Q p → Q (f p))) (hfresh : t.fresh = s.fresh)
    (howned : t.owned = s.owned.map f) : Holds a Q t := by
  refine ⟨hfresh ▸ hs.made, fun p hp ha => ?_⟩
  rw [howned] at hp
  obtain ⟨q, hq, rfl⟩ := List.mem_map.mp hp
  exact (hf q).2 (hs.peers q hq ((hf q).1.symm.trans ha))

/-- What lasts holds of one and the same object for ever. -/
theorem holds_stable {Q : UdpPeer → Prop} (hQ : Lasting Q) (a : ℕ) : Stable (Holds a Q) where
  frame s t hs _ howned _ hfresh _ := ⟨hfresh ▸ hs.made, fun p hp => hs.peers p (howned ▸ hp)⟩
  getPeer s remote hs := by
    unfold UdpServer.getPeer
    split
    · exact hs
    · split
      · exact createPeer_holds hs remote
      · split
        · exact hs
        · exact createPeer_holds (removeOwnedPeer_holds hs _) remote
  removeOwnedPeer s peer hs := removeOwnedPeer_holds hs peer
  closeOwnedPeers s hs := by
    unfold UdpServer.closeOwnedPeers
    split
    · exact hs
    · exact hs.mapped (f := fun p => p.close.2) (fun p => ⟨rfl, hQ.close p⟩) rfl rfl
  closePeer s address hs := by
    refine hs.mapped (f := fun p => if p.address = address then p.close.2 else p) (fun p => ?_) rfl rfl
    split
    · exact ⟨rfl, hQ.close p⟩
    · exact ⟨rfl, id⟩
  writePeer s address answer data size hs := by
    refine hs.mapped (f := fun p => if p.address = address then
      (p.write s.toUdpSocket answer data size).2 else p) (fun p => ?_) rfl rfl
    split
    · exact ⟨rfl, hQ.write p _ answer data size⟩
    · exact ⟨rfl, id⟩

theorem lasting_remote (remote : Sockaddr) : Lasting fun p => p.remoteAddr = remote :=
  ⟨fun _ hp => hp, fun _ _ _ _ _ hp => hp⟩

theorem lasting_closed : Lasting fun p => p.peerActive = false :=
  ⟨fun _ _ => rfl, fun _ _ _ _ _ hp => hp⟩

theorem supported_stable : Stable fun s => s.netFamily ≠ .other where
  frame _ _ hs hfamily _ _ _ _ := hfamily hs
  getPeer s remote hs := by rwa [getPeer_base]
  removeOwnedPeer s peer hs := by rwa [removeOwnedPeer_base]
  closeOwnedPeers s hs := by
    unfold UdpServer.closeOwnedPeers
    split <;> exact hs
  closePeer _ _ hs := hs
  writePeer _ _ _ _ _ hs := hs

theorem Reaches.supported (hs : Reaches h c s) : s.netFamily ≠ .other :=
  supported_stable.reached (fun _ hu => hu) hs

/-- What a write through the peer at `a` may change: its error code and its count. -/
structure WritesOnly (a : ℕ) (s t : UdpServer) : Prop where
  server : t = { s with owned := t.owned }
  peers : ∃ f : UdpPeer → UdpPeer, t.owned = s.owned.map f ∧
    ∀ p, f p = if p.address = a then { p with errorCode := (f p).errorCode, n := (f p).n } else p

theorem writePeer_only (a : ℕ) (answer : IoResult) (data : Option (List UInt8)) (size : Int)
    (s : UdpServer) : WritesOnly a s (s.writePeer a answer data size).2 := by
  refine ⟨rfl, _, rfl, fun p => ?_⟩
  split <;> rfl

theorem Sound.writePeer_sent (hs : s.Sound) {p : UdpPeer} (hp : p ∈ s.owned) (answer : IoResult)
    (data : Option (List UInt8)) (size : Int) :
    (s.writePeer p.address answer data size).1 =
      some (p.write s.toUdpSocket answer data size).1 := by
  rw [UdpServer.writePeer, hs.peerAt hp]
  rfl

/-- A send by a socket that is no logical peer, or through any peer of any server, goes
to a destination of the native family for the remote endpoint or returns an error.  A
send through a peer leaves its server as it is, and what later comes from the
destination belongs to this peer, as long as it is there. -/
theorem sends_to_endpoint :
    (∀ (h : UdpHost) (s : UdpSocket), UdpSocket.Reaches h s → ∀ answer data size,
      Aims s.sockfd s.netFamily s.remoteAddr (s.write answer data size).1) ∧
    ∀ (h : UdpHost) (c : UdpServerClass) (s : UdpServer), Reaches h c s → ∀ p ∈ s.owned,
      ∀ answer data size, WritesOnly p.address s (s.writePeer p.address answer data size).2 ∧
      ∃ sent, (s.writePeer p.address answer data size).1 = some sent ∧
        Aims s.sockfd s.netFamily p.remoteAddr sent ∧
        ∀ call, sent.call = some call → ∀ t, Continues h c s t → t.isValidSocket = true →
          ∀ q ∈ t.owned, q.address = p.address → q.peerActive = true →
            t.getPeer call.target = (some p.address, t) := by
  refine ⟨fun h s hs => hs.aims, fun h c s hs p hp answer data size => ?_⟩
  have haims : Aims s.sockfd s.netFamily p.remoteAddr (p.write s.toUdpSocket answer data size).1 := by
    refine sendDatagram_aims (fun hvalid => ?_) hs.supported _ _ _ _
    exact (Bool.and_eq_true_iff.mp hvalid).2
  refine ⟨writePeer_only .., _, hs.sound.writePeer_sent hp .., haims, ?_⟩
  intro call hcall t ht hopen q hq haddress hactive
  -- The peer still has the address that it was created with.
  have hremote : q.remoteAddr = p.remoteAddr := by
    have hheld : Holds p.address (fun q => q.remoteAddr = p.remoteAddr) s := by
      refine ⟨hs.sound.below p hp, fun q hq hqp => ?_⟩
      have hfound := hs.sound.peerAt hq
      rw [hqp, hs.sound.peerAt hp] at hfound
      rw [Option.some.inj hfound]
    exact ((holds_stable (lasting_remote _) _).run ht hheld).peers q hq haddress
  have hsame := same_symm (haims.destination call hcall).2.2
  rw [← haddress]
  exact (sound_stable.run ht hs.sound).getPeer_of_mem hopen hq hactive (hremote ▸ hsame)

end UdpServer

def ipv4Peer : Sockaddr := .inet 9 (dotted 10 0 0 1)

/-- A server that listens on one port. -/
def listening (h : UdpHost) : UdpServer :=
  (UdpServer.exec h .udpServerSocket (fun _ => pure ()) (.listen 5000) (UdpServer.construct h .udpServerSocket 0)).2

theorem listening_reaches (h : UdpHost) : UdpServer.Reaches h .udpServerSocket (listening h) :=
  UdpServer.Reaches.next ⟨0, .start⟩ (.listen 5000)

end Aeon
