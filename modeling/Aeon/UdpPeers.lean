import Aeon.UdpReplacement
import Aeon.UdpServer
import Mathlib.Data.List.Pairwise

/-!
# One peer for each endpoint

`same_udp_address` is an equivalence on the addresses a peer can have, and a
server never owns two peers whose addresses are equivalent.
-/

namespace Aeon

open Program Reentrant

namespace Sockaddr

theorem mapped_eq {v4 : Vector UInt8 4} {v6 v6' : Vector UInt8 16} {scope scope' : UInt32}
    (h : sameMapped v4 v6 scope = true) (h' : sameMapped v4 v6' scope' = true) :
    scope = scope' ∧ v6 = v6' := by
  simp only [sameMapped, isMapped, Bool.and_eq_true, decide_eq_true_eq] at h h'
  refine ⟨h.1.1.trans h'.1.1.symm, Vector.toList_inj.mp ?_⟩
  calc v6.toList = v6.toList.take 12 ++ v6.toList.drop 12 := (List.take_append_drop ..).symm
    _ = v6'.toList.take 12 ++ v6'.toList.drop 12 := by rw [h.1.2, h'.1.2, h.2, h'.2]
    _ = v6'.toList := List.take_append_drop ..

theorem mapped_inj {v4 v4' : Vector UInt8 4} {v6 : Vector UInt8 16} {scope : UInt32}
    (h : sameMapped v4 v6 scope = true) (h' : sameMapped v4' v6 scope = true) : v4 = v4' := by
  simp only [sameMapped, Bool.and_eq_true, decide_eq_true_eq] at h h'
  exact Vector.toList_inj.mp (h.2.symm.trans h'.2)

theorem same_refl {a : Sockaddr} (h : a.family ≠ .other) : a.sameUdpAddress a = true := by
  cases a with
  | other => exact absurd rfl h
  | inet port addr => simp [sameUdpAddress]
  | inet6 port flowinfo addr scope => simp [sameUdpAddress]

theorem same_symm {a b : Sockaddr} (h : a.sameUdpAddress b = true) :
    b.sameUdpAddress a = true := by
  unfold sameUdpAddress at *
  split at h
  · cases h
  · rename_i hport
    rw [if_neg fun hp => hport fun he => hp he.symm]
    cases a with
    | other => exact absurd h (by simp)
    | inet port addr =>
      cases b with
      | other => exact absurd h (by simp)
      | inet port' addr' =>
        have heq : addr = addr' := by simpa using h
        simp [heq]
      | inet6 port' flowinfo addr' scope => exact h
    | inet6 port flowinfo addr scope =>
      cases b with
      | other => exact absurd h (by simp)
      | inet port' addr' => exact h
      | inet6 port' flowinfo' addr' scope' =>
        have heq : scope = scope' ∧ addr = addr' := by simpa using h
        simp [heq.1, heq.2]

theorem same_port {a b : Sockaddr} (h : a.sameUdpAddress b = true) : a.getPort = b.getPort := by
  by_contra hne
  unfold sameUdpAddress at h
  rw [if_pos hne] at h
  cases h

/-- Equivalent addresses, by the representations of both. -/
theorem same_cases {a b : Sockaddr} (h : a.sameUdpAddress b = true) :
    (∃ port addr, a = .inet port addr ∧ b = .inet port addr) ∨
    (∃ port flowinfo flowinfo' addr scope,
      a = .inet6 port flowinfo addr scope ∧ b = .inet6 port flowinfo' addr scope) ∨
    (∃ port flowinfo v4 v6 scope, sameMapped v4 v6 scope = true ∧
      (a = .inet port v4 ∧ b = .inet6 port flowinfo v6 scope ∨
        a = .inet6 port flowinfo v6 scope ∧ b = .inet port v4)) := by
  have hport := same_port h
  unfold sameUdpAddress at h
  rw [if_neg fun hp => hp hport] at h
  cases a with
  | other => exact absurd h (by simp)
  | inet port addr =>
    cases b with
    | other => exact absurd h (by simp)
    | inet port' addr' =>
      obtain rfl : port = port' := hport
      obtain rfl : addr = addr' := by simpa using h
      exact .inl ⟨port, addr, rfl, rfl⟩
    | inet6 port' flowinfo addr' scope =>
      obtain rfl : port = port' := hport
      exact .inr (.inr ⟨port, flowinfo, addr, addr', scope, h, .inl ⟨rfl, rfl⟩⟩)
  | inet6 port flowinfo addr scope =>
    cases b with
    | other => exact absurd h (by simp)
    | inet port' addr' =>
      obtain rfl : port = port' := hport
      exact .inr (.inr ⟨port, flowinfo, addr', addr, scope, h, .inr ⟨rfl, rfl⟩⟩)
    | inet6 port' flowinfo' addr' scope' =>
      obtain rfl : port = port' := hport
      obtain ⟨rfl, rfl⟩ : scope = scope' ∧ addr = addr' := by simpa using h
      exact .inr (.inl ⟨port, flowinfo, flowinfo', addr, scope, rfl, rfl⟩)

theorem same_inet (port : UInt16) (addr : Vector UInt8 4) :
    (inet port addr).sameUdpAddress (inet port addr) = true := by simp [sameUdpAddress]

theorem same_inet6 (port : UInt16) (flowinfo flowinfo' : UInt32) (addr : Vector UInt8 16)
    (scope : UInt32) : (inet6 port flowinfo addr scope).sameUdpAddress
      (inet6 port flowinfo' addr scope) = true := by simp [sameUdpAddress, getPort]

theorem same_mapped {v4 : Vector UInt8 4} {v6 : Vector UInt8 16} {scope : UInt32}
    (port : UInt16) (flowinfo : UInt32) (h : sameMapped v4 v6 scope = true) :
    (inet port v4).sameUdpAddress (inet6 port flowinfo v6 scope) = true := by
  simpa [sameUdpAddress, getPort] using h

theorem same_trans {a b c : Sockaddr} (hab : a.sameUdpAddress b = true)
    (hbc : b.sameUdpAddress c = true) : a.sameUdpAddress c = true := by
  rcases same_cases hab with ⟨port, addr, rfl, rfl⟩ | ⟨port, fl, fl', addr, scope, rfl, rfl⟩ |
      ⟨port, fl, v4, v6, scope, hm, ⟨rfl, rfl⟩ | ⟨rfl, rfl⟩⟩
  · exact hbc
  · rcases same_cases hbc with ⟨_, _, hb, -⟩ | ⟨_, _, fl'', _, _, hb, rfl⟩ |
        ⟨_, _, v4, _, _, hm, ⟨hb, -⟩ | ⟨hb, rfl⟩⟩
    · cases hb
    · cases hb
      exact same_inet6 ..
    · cases hb
    · cases hb
      exact same_symm (same_mapped _ _ hm)
  · rcases same_cases hbc with ⟨_, _, hb, -⟩ | ⟨_, _, fl', _, _, hb, rfl⟩ |
        ⟨_, _, v4', _, _, hm', ⟨hb, -⟩ | ⟨hb, rfl⟩⟩
    · cases hb
    · cases hb
      exact same_mapped _ _ hm
    · cases hb
    · cases hb
      rw [mapped_inj hm hm']
      exact same_inet ..
  · rcases same_cases hbc with ⟨_, _, hb, rfl⟩ | ⟨_, _, _, _, _, hb, -⟩ |
        ⟨_, fl', _, v6', scope', hm', ⟨hb, rfl⟩ | ⟨hb, -⟩⟩
    · cases hb
      exact same_symm (same_mapped _ _ hm)
    · cases hb
    · cases hb
      obtain ⟨rfl, rfl⟩ := mapped_eq hm hm'
      exact same_inet6 ..
    · cases hb

/-- Equivalent addresses read the same. -/
theorem same_remote (inetNtop : Family → List UInt8 → String) {a b : Sockaddr}
    (h : a.sameUdpAddress b = true) :
    a.getRemotePort = b.getRemotePort ∧ a.getRemoteIp inetNtop = b.getRemoteIp inetNtop := by
  refine ⟨by rw [getRemotePort, getRemotePort, same_port h], ?_⟩
  rcases same_cases h with ⟨port, addr, rfl, rfl⟩ | ⟨port, fl, fl', addr, scope, rfl, rfl⟩ |
      ⟨port, fl, v4, v6, scope, hm, hab⟩
  · rfl
  · rfl
  · have hboth : (inet port v4).getRemoteIp inetNtop =
        (inet6 port fl v6 scope).getRemoteIp inetNtop := by
      simp only [sameMapped, Bool.and_eq_true, decide_eq_true_eq] at hm
      rw [getRemoteIp, getRemoteIp, if_pos hm.1.2, hm.2]
    rcases hab with ⟨rfl, rfl⟩ | ⟨rfl, rfl⟩
    · exact hboth
    · exact hboth.symm

/-- The addresses that a socket can have. -/
abbrev Endpoint : Type := { a : Sockaddr // a.family ≠ .other }

theorem same_equivalence :
    Equivalence fun a b : Endpoint => a.1.sameUdpAddress b.1 = true :=
  ⟨fun a => same_refl a.2, same_symm, same_trans⟩

end Sockaddr

open Sockaddr

/-- The native family stays one that datagram sockets can have. -/
def KeepsFamily (u v : UdpSocket) : Prop := u.netFamily ≠ .other → v.netFamily ≠ .other

theorem KeepsFamily.of_eq {u v : UdpSocket} (h : v.netFamily = u.netFamily) : KeepsFamily u v :=
  fun hu => h ▸ hu

theorem UdpSocket.construct_family (h : UdpHost) (tick : ℕ) :
    (UdpSocket.construct h tick).netFamily ≠ .other := by
  have hsocket : (Socket.construct h.toHost tick).netFamily = .inet := by
    unfold Socket.construct
    split
    · rfl
    · dsimp only
      split <;> rfl
  unfold UdpSocket.construct
  dsimp only
  split <;> exact fun hother => Family.noConfusion (hsocket.symm.trans hother)

open UdpSocket in
theorem udpCall_family (h : UdpHost) (c : UdpCall) (s : UdpSocket) : KeepsFamily s (c.run h s).2 := by
  have hconnect {t : UdpSocket} {targets : List Sockaddr} (ht : ConnectedTo targets s t) :
      t.netFamily ≠ .other := by
    obtain ⟨target, -, hconnected⟩ := ht
    rw [hconnected.selected.chosen]
    exact hconnected.supported
  have hdecides {Q : UdpSocket → Prop} {r : Bool × UdpSocket} (hr : Decides s Q r)
      (hQ : ∀ t, Q t → t.netFamily ≠ .other) : KeepsFamily s r.2 := by
    cases hok : r.1 with
    | false => exact .of_eq (by rw [(hr.refused hok).same])
    | true => exact fun _ => hQ _ (hr.done hok)
  have hbound {port : Int} (t : UdpSocket) (ht : Bound [.inet6, .inet] port s t) :
      t.netFamily ≠ .other := by
    obtain ⟨family, hmem, hselected⟩ := ht.selected
    rw [hselected.chosen]
    rintro rfl
    simp at hmem
  cases c with
  | connectHost hostname port =>
    exact hdecides (s.udpConnectHost_spec hostname port) fun t ⟨_, _, ht⟩ => hconnect ht
  | connectAddress target =>
    exact hdecides (s.udpConnectAddress_spec target) fun t ht =>
      hconnect ⟨target, List.mem_singleton_self _, ht⟩
  | connectStored =>
    exact hdecides (s.udpConnectAddress_spec s.remoteAddr) fun t ht =>
      hconnect ⟨s.remoteAddr, List.mem_singleton_self _, ht⟩
  | listen port =>
    exact hdecides (s.udpListenWith_spec port (some (nativeBind h))) hbound
  | listenWith port bind => exact hdecides (s.udpListenWith_spec port bind) hbound

theorem udpRead_family (h : UdpHost) (buffer : Bool) (size : Int) (s : UdpSocket) :
    KeepsFamily s (s.read h buffer size).2 := by
  refine .of_eq ?_
  unfold UdpSocket.read
  dsimp only
  split_ifs <;> rfl

namespace Socket

@[simp] theorem close_netFamily (h : Host) (s : Socket) : (s.close h).2.netFamily = s.netFamily := by
  unfold close
  split
  · rfl
  · dsimp only
    split <;> rfl

@[simp] theorem setBlocking_netFamily (h : Host) (flag : Bool) (s : Socket) :
    (s.setBlocking h flag).2.netFamily = s.netFamily := by
  unfold setBlocking
  split
  · rfl
  · dsimp only
    split <;> rfl

theorem setter_netFamily (h : Host) (f : PlainSetter) (s : Socket) :
    (f.run h s).2.netFamily = s.netFamily := by
  cases f with
  | blocking flag => exact setBlocking_netFamily h flag s
  | readTimeout timeoutMs | writeTimeout timeoutMs | connectTimeout timeoutMs =>
    simp only [PlainSetter.run, setReadTimeout, setWriteTimeout, setConnectTimeout]
    split <;> rfl
  | option =>
    simp only [PlainSetter.run, setOption]
    split_ifs <;> rfl

end Socket

namespace UdpServer

structure Sound (s : UdpServer) : Prop where
  members : s.members = s.owned.map (·.address)
  addresses : (s.owned.map (·.address)).Nodup
  below : ∀ p ∈ s.owned, p.address < s.fresh
  supported : ∀ p ∈ s.owned, p.remoteAddr.family ≠ .other
  distinct : s.owned.Pairwise fun p q => p.remoteAddr.sameUdpAddress q.remoteAddr = false

variable {h : UdpHost} {c : UdpServerClass} {s t : UdpServer}

theorem Sound.frame (hs : s.Sound) (howned : t.owned = s.owned) (hmembers : t.members = s.members)
    (hfresh : t.fresh = s.fresh) : t.Sound :=
  ⟨by rw [hmembers, howned, hs.members], howned ▸ hs.addresses,
    by rw [howned, hfresh]; exact hs.below, howned ▸ hs.supported, howned ▸ hs.distinct⟩

/-- The peers may be changed as long as they keep their addresses. -/
theorem Sound.mapped (hs : s.Sound) {f : UdpPeer → UdpPeer}
    (hf : ∀ p, (f p).address = p.address ∧ (f p).remoteAddr = p.remoteAddr)
    (howned : t.owned = s.owned.map f) (hmembers : t.members = s.members)
    (hfresh : t.fresh = s.fresh) : t.Sound := by
  have haddresses : t.owned.map (·.address) = s.owned.map (·.address) := by
    rw [howned, List.map_map]
    exact List.map_congr_left fun p _ => (hf p).1
  refine ⟨by rw [hmembers, haddresses, hs.members], haddresses ▸ hs.addresses, ?_, ?_, ?_⟩
  · rw [howned, hfresh]
    intro q hq
    obtain ⟨p, hp, rfl⟩ := List.mem_map.mp hq
    rw [(hf p).1]
    exact hs.below p hp
  · rw [howned]
    intro q hq
    obtain ⟨p, hp, rfl⟩ := List.mem_map.mp hq
    rw [(hf p).2]
    exact hs.supported p hp
  · rw [howned, List.pairwise_map]
    exact hs.distinct.imp fun hpq => by rw [(hf _).2, (hf _).2]; exact hpq

theorem Sound.peerAt (hs : s.Sound) {p : UdpPeer} (hp : p ∈ s.owned) :
    s.peerAt p.address = some p := by
  have hmem (l : List UdpPeer) (hl : (l.map (·.address)).Nodup) (hp : p ∈ l) :
      l.find? (·.address = p.address) = some p := by
    induction l with
    | nil => cases hp
    | cons q l ih =>
      rw [List.map_cons, List.nodup_cons] at hl
      by_cases hq : q.address = p.address
      · rcases List.mem_cons.mp hp with rfl | hp
        · simp
        · exact absurd (hq ▸ List.mem_map_of_mem hp) hl.1
      · rw [List.find?_cons_of_neg (by simpa using hq)]
        refine ih hl.2 ((List.mem_cons.mp hp).resolve_left ?_)
        rintro rfl
        exact hq rfl
  exact hmem s.owned hs.addresses hp

/-- The scan of the member set finds what a scan of the peers would. -/
theorem Sound.findUdpPeer (hs : s.Sound) (remote : Sockaddr) :
    s.findUdpPeer remote = s.owned.find? fun p => p.remoteAddr.sameUdpAddress remote := by
  have hscan (l : List UdpPeer) (hl : ∀ p ∈ l, p ∈ s.owned) :
      (l.map (·.address)).findSome? (fun address =>
        (s.peerAt address).filter fun p => p.remoteAddr.sameUdpAddress remote) =
      l.find? fun p => p.remoteAddr.sameUdpAddress remote := by
    induction l with
    | nil => rfl
    | cons p l ih =>
      have hrest := ih fun q hq => hl q (List.mem_cons_of_mem _ hq)
      rw [List.map_cons, List.findSome?_cons, hs.peerAt (hl p List.mem_cons_self), List.find?_cons]
      cases hsame : p.remoteAddr.sameUdpAddress remote with
      | true => simp only [Option.filter, hsame, if_true]
      | false => simpa only [Option.filter, hsame, Bool.false_eq_true, if_false] using hrest
  rw [UdpServer.findUdpPeer, hs.members]
  exact hscan s.owned fun p hp => hp

/-- Two peers of a server are the same if their endpoints are. -/
theorem Sound.unique (hs : s.Sound) {p q : UdpPeer} (hp : p ∈ s.owned) (hq : q ∈ s.owned)
    (hsame : p.remoteAddr.sameUdpAddress q.remoteAddr = true) : p = q := by
  by_contra hne
  have hsymm : Std.Symm fun p q : UdpPeer => p.remoteAddr.sameUdpAddress q.remoteAddr = false :=
    ⟨fun p q hpq => Bool.eq_false_iff.mpr fun h => Bool.eq_false_iff.mp hpq (same_symm h)⟩
  exact Bool.eq_false_iff.mp (hs.distinct.forall hp hq hne) hsame

/-- After the removal of a peer the others remain. -/
theorem Sound.remove (hs : s.Sound) {p : UdpPeer} (hp : p ∈ s.owned) :
    (s.removeOwnedPeer (some p.address)).2.Sound ∧
      (s.removeOwnedPeer (some p.address)).2.fresh = s.fresh ∧
      ∀ q, q ∈ (s.removeOwnedPeer (some p.address)).2.owned ↔ q ∈ s.owned ∧ q ≠ p := by
  have hremove : s.removeOwnedPeer (some p.address) = (true, { s with
      owned := s.owned.eraseP (·.address = p.address)
      members := s.members.erase p.address }) := by
    rw [removeOwnedPeer, Option.bind_some, hs.peerAt hp]
  rw [hremove]
  have hsub := List.eraseP_sublist (p := fun q : UdpPeer => q.address = p.address) (l := s.owned)
  have haddresses : (s.owned.eraseP (·.address = p.address)).map (·.address) =
      (s.owned.map (·.address)).erase p.address := by
    rw [List.erase_eq_eraseP, List.eraseP_map]
    congr 2
    funext q
    show decide (q.address = p.address) = (p.address == q.address)
    rw [Bool.eq_iff_iff, decide_eq_true_iff, beq_iff_eq]
    exact eq_comm
  refine ⟨⟨?_, ?_, fun q hq => hs.below q (hsub.subset hq),
    fun q hq => hs.supported q (hsub.subset hq), hs.distinct.sublist hsub⟩, rfl, fun q => ?_⟩
  · rw [haddresses, ← hs.members]
  · exact hs.addresses.sublist (hsub.map _)
  · refine ⟨fun hq => ⟨hsub.subset hq, ?_⟩, fun hq => ?_⟩
    · rintro rfl
      have hmem : q.address ∈ (s.owned.map (·.address)).erase q.address := by
        rw [← haddresses]
        exact List.mem_map_of_mem hq
      exact (hs.addresses.mem_erase_iff.mp hmem).1 rfl
    · rw [List.mem_eraseP_of_neg]
      · exact hq.1
      · have hne : q.address ≠ p.address := fun he => hq.2 <| by
          have hp' := hs.peerAt hp
          rw [← he, hs.peerAt hq.1] at hp'
          exact Option.some.inj hp'
        simpa using hne

theorem Sound.create (hs : s.Sound) {remote : Sockaddr} (hremote : remote.family ≠ .other)
    (hnew : ∀ p ∈ s.owned, p.remoteAddr.sameUdpAddress remote = false) :
    (s.createPeer remote).2.Sound := by
  rw [createPeer, if_neg hremote]
  refine ⟨?_, ?_, ?_, ?_, ?_⟩
  · simp [addPeer, hs.members]
  · simp only [addPeer, List.map_append, List.map_cons, List.map_nil, List.nodup_append]
    refine ⟨hs.addresses, List.nodup_singleton _, ?_⟩
    rintro _ hmem _ hfresh rfl
    obtain ⟨p, hp, rfl⟩ := List.mem_map.mp hmem
    exact Nat.ne_of_lt (hs.below p hp) (List.mem_singleton.mp hfresh)
  · intro p hp
    rcases List.mem_append.mp hp with hp | hp
    · exact Nat.lt_succ_of_lt (hs.below p hp)
    · rw [List.mem_singleton.mp hp]
      exact Nat.lt_succ_self _
  · intro p hp
    rcases List.mem_append.mp hp with hp | hp
    · exact hs.supported p hp
    · rw [List.mem_singleton.mp hp]
      exact hremote
  · refine List.pairwise_append.mpr ⟨hs.distinct, List.pairwise_singleton _ _, fun p hp q hq => ?_⟩
    rw [List.mem_singleton.mp hq]
    exact hnew p hp

/-- The three ways of `get_peer`: the peer that is there, a new one, or none. -/
theorem Sound.getPeer_cases (hs : s.Sound) (remote : Sockaddr) :
    (∃ p ∈ s.owned, p.peerActive = true ∧ p.remoteAddr.sameUdpAddress remote = true ∧
      s.isValidSocket = true ∧ s.getPeer remote = (some p.address, s)) ∨
    (∃ t : UdpServer, t.Sound ∧ s.isValidSocket = true ∧ t.fresh = s.fresh ∧
      (∀ p, p ∈ t.owned ↔ p ∈ s.owned ∧ p.remoteAddr.sameUdpAddress remote = false) ∧
      (∀ p ∈ s.owned, p.remoteAddr.sameUdpAddress remote = true → p.peerActive = false) ∧
      s.getPeer remote = t.createPeer remote) ∨
    (s.isValidSocket = false ∧ s.getPeer remote = (none, s)) := by
  cases hvalid : s.isValidSocket with
  | false => exact .inr (.inr ⟨rfl, by simp [getPeer, hvalid]⟩)
  | true =>
    simp only [getPeer, hvalid, Bool.not_true, Bool.false_eq_true, if_false, hs.findUdpPeer]
    cases hfind : s.owned.find? fun p => p.remoteAddr.sameUdpAddress remote with
    | none =>
      have hnew : ∀ p ∈ s.owned, p.remoteAddr.sameUdpAddress remote = false := by
        simpa using hfind
      refine .inr (.inl ⟨s, hs, trivial, rfl, fun p => ⟨fun hp => ⟨hp, hnew p hp⟩, And.left⟩,
        fun p hp hsame => ?_, rfl⟩)
      exact absurd hsame (Bool.eq_false_iff.mp (hnew p hp))
    | some existing =>
      have hmem := List.mem_of_find?_eq_some hfind
      have hsame : existing.remoteAddr.sameUdpAddress remote = true := by
        simpa using List.find?_some hfind
      cases hactive : existing.peerActive with
      | true => exact .inl ⟨existing, hmem, hactive, hsame, trivial, by simp [hactive]⟩
      | false =>
        obtain ⟨hsound, hfresh, howned⟩ := hs.remove hmem
        refine .inr (.inl ⟨_, hsound, trivial, hfresh, fun p => ?_, fun p hp hp' => ?_,
          by simp [hactive]⟩)
        · rw [howned p]
          refine and_congr_right fun hp => ⟨fun hne => ?_, fun hother heq => ?_⟩
          · by_contra hp'
            rw [Bool.not_eq_false] at hp'
            exact hne (hs.unique hp hmem (same_trans hp' (same_symm hsame)))
          · rw [heq, hsame] at hother
            cases hother
        · rw [hs.unique hp hmem (same_trans hp' (same_symm hsame))]
          exact hactive

theorem Sound.getPeer (hs : s.Sound) (remote : Sockaddr) : (s.getPeer remote).2.Sound := by
  rcases hs.getPeer_cases remote with ⟨p, -, -, -, -, he⟩ | ⟨t, ht, -, -, howned, -, he⟩ | ⟨-, he⟩
  · rwa [he]
  · rw [he]
    by_cases hremote : remote.family = .other
    · rwa [createPeer, if_pos hremote]
    · exact ht.create hremote fun p hp => ((howned p).mp hp).2
  · rwa [he]

/-- An open server has an active peer for every endpoint it is asked for. -/
theorem Sound.getPeer_active (hs : s.Sound) (hvalid : s.isValidSocket = true) {remote : Sockaddr}
    (hremote : remote.family ≠ .other) :
    ∃ p ∈ (s.getPeer remote).2.owned, (s.getPeer remote).1 = some p.address ∧
      p.peerActive = true ∧ p.remoteAddr.sameUdpAddress remote = true ∧
      (s.getPeer remote).2.isValidSocket = true := by
  rcases hs.getPeer_cases remote with
    ⟨p, hp, hactive, hsame, -, he⟩ | ⟨t, -, -, -, -, -, he⟩ | ⟨hinvalid, -⟩
  · rw [he]
    exact ⟨p, hp, rfl, hactive, hsame, hvalid⟩
  · have hbase : (s.getPeer remote).2.isValidSocket = true := by rwa [getPeer_base]
    rw [he] at hbase ⊢
    rw [createPeer, if_neg hremote] at hbase ⊢
    exact ⟨{ address := t.fresh, remoteAddr := remote }, by simp [addPeer], rfl, rfl,
      same_refl hremote, hbase⟩
  · rw [hvalid] at hinvalid
    cases hinvalid

/-- A peer that is there and active is what `get_peer` gives. -/
theorem Sound.getPeer_of_mem (hs : s.Sound) (hvalid : s.isValidSocket = true) {p : UdpPeer}
    (hp : p ∈ s.owned) (hactive : p.peerActive = true) {remote : Sockaddr}
    (hsame : p.remoteAddr.sameUdpAddress remote = true) :
    s.getPeer remote = (some p.address, s) := by
  rcases hs.getPeer_cases remote with
    ⟨q, hq, -, hq', -, he⟩ | ⟨t, -, -, -, -, hinactive, -⟩ | ⟨hinvalid, -⟩
  · rw [he, hs.unique hp hq (same_trans hsame (same_symm hq'))]
  · rw [hinactive p hp hsame] at hactive
    cases hactive
  · rw [hvalid] at hinvalid
    cases hinvalid

theorem Sound.removeOwnedPeer (hs : s.Sound) (peer : Option ℕ) :
    (s.removeOwnedPeer peer).2.Sound := by
  cases peer with
  | none => exact hs
  | some address =>
    cases hpeer : s.peerAt address with
    | none => simpa [UdpServer.removeOwnedPeer, hpeer] using hs
    | some p =>
      have hmem := List.mem_of_find?_eq_some hpeer
      obtain rfl : p.address = address := by simpa using List.find?_some hpeer
      exact (hs.remove hmem).1

theorem Sound.closeOwnedPeers (hs : s.Sound) : s.closeOwnedPeers.2.Sound := by
  unfold UdpServer.closeOwnedPeers
  split
  · exact hs
  · exact hs.mapped (f := fun p => p.close.2) (fun _ => ⟨rfl, rfl⟩) rfl rfl rfl

theorem Sound.closePeer (hs : s.Sound) (address : ℕ) : (s.closePeer address).2.Sound := by
  refine hs.mapped (f := fun p => if p.address = address then p.close.2 else p) (fun p => ?_)
    rfl rfl rfl
  split <;> exact ⟨rfl, rfl⟩

theorem Sound.writePeer (hs : s.Sound) (address : ℕ) (answer : IoResult)
    (data : Option (List UInt8)) (size : Int) : (s.writePeer address answer data size).2.Sound := by
  refine hs.mapped (f := fun p => if p.address = address then
    (p.write s.toUdpSocket answer data size).2 else p) (fun p => ?_) rfl rfl rfl
  split <;> exact ⟨rfl, rfl⟩

/-- A property of the peers that the operations on them preserve. -/
structure Stable (I : UdpServer → Prop) : Prop where
  frame : ∀ s t, I s → KeepsFamily s.toUdpSocket t.toUdpSocket → t.owned = s.owned →
    t.members = s.members → t.fresh = s.fresh → t.closingPeers = s.closingPeers → I t
  getPeer : ∀ s remote, I s → I (s.getPeer remote).2
  removeOwnedPeer : ∀ s peer, I s → I (s.removeOwnedPeer peer).2
  closeOwnedPeers : ∀ s, I s → I s.closeOwnedPeers.2
  closePeer : ∀ s address, I s → I (s.closePeer address).2
  writePeer : ∀ s address answer data size, I s → I (s.writePeer address answer data size).2

theorem Stable.and {I J : UdpServer → Prop} (hI : Stable I) (hJ : Stable J) :
    Stable fun s => I s ∧ J s where
  frame s t hs hfamily howned hmembers hfresh hclosing :=
    ⟨hI.frame s t hs.1 hfamily howned hmembers hfresh hclosing,
      hJ.frame s t hs.2 hfamily howned hmembers hfresh hclosing⟩
  getPeer s remote hs := ⟨hI.getPeer s remote hs.1, hJ.getPeer s remote hs.2⟩
  removeOwnedPeer s peer hs := ⟨hI.removeOwnedPeer s peer hs.1, hJ.removeOwnedPeer s peer hs.2⟩
  closeOwnedPeers s hs := ⟨hI.closeOwnedPeers s hs.1, hJ.closeOwnedPeers s hs.2⟩
  closePeer s address hs := ⟨hI.closePeer s address hs.1, hJ.closePeer s address hs.2⟩
  writePeer s address answer data size hs :=
    ⟨hI.writePeer s address answer data size hs.1, hJ.writePeer s address answer data size hs.2⟩

theorem sound_stable : Stable Sound where
  frame _ _ hs _ howned hmembers hfresh _ := hs.frame howned hmembers hfresh
  getPeer _ remote hs := hs.getPeer remote
  removeOwnedPeer _ peer hs := hs.removeOwnedPeer peer
  closeOwnedPeers _ hs := hs.closeOwnedPeers
  closePeer _ address hs := hs.closePeer address
  writePeer _ address answer data size hs := hs.writePeer address answer data size

theorem createPeer_closing (remote : Sockaddr) (s : UdpServer) :
    (s.createPeer remote).2.closingPeers = s.closingPeers := by
  unfold createPeer
  split <;> rfl

theorem removeOwnedPeer_closing (peer : Option ℕ) (s : UdpServer) :
    (s.removeOwnedPeer peer).2.closingPeers = s.closingPeers := by
  unfold UdpServer.removeOwnedPeer
  split <;> rfl

/-- No user code runs while the peers are being closed. -/
theorem closing_stable : Stable fun s => s.closingPeers = false where
  frame _ _ hs _ _ _ _ hclosing := hclosing.trans hs
  getPeer s remote hs := by
    unfold UdpServer.getPeer
    split
    · exact hs
    · split
      · rwa [createPeer_closing]
      · split
        · exact hs
        · rwa [createPeer_closing, removeOwnedPeer_closing]
  removeOwnedPeer s peer hs := (removeOwnedPeer_closing peer s).trans hs
  closeOwnedPeers s hs := by
    unfold UdpServer.closeOwnedPeers
    split <;> exact hs
  closePeer _ _ hs := hs
  writePeer _ _ _ _ _ hs := hs

section Runs

variable {I : UdpServer → Prop} (hI : Stable I)

include hI

theorem Stable.read (hs : I s) (buffer : Bool) (size : Int) : I (s.read h buffer size).2 := by
  unfold UdpServer.read
  dsimp only
  have hbase : I { s with toUdpSocket := (s.toUdpSocket.read h buffer size).2 } :=
    hI.frame _ _ hs (udpRead_family h buffer size _) rfl rfl rfl rfl
  split
  · exact hI.getPeer _ _ hbase
  · exact hbase

theorem Stable.readString (hs : I s) (size : Int) : I (s.readString h size).2 := by
  unfold UdpServer.readString
  split
  · exact hs
  · exact hI.read hs true size

variable {cb : UdpNote → Code UdpServer Unit} (hcb : ∀ n, Keeps I (cb n))

omit hI in
include hcb in
theorem keeps_fire (n : UdpNote) : Keeps I (fire c cb n) := .whenever (hcb n)

theorem Stable.keeps_socket {α : Type} {f : UdpSocket → α × UdpSocket}
    (hf : ∀ u, KeepsFamily u (f u).2) : Keeps I (socketPart.run f) :=
  Part.run_keeps _ fun _ hs => hI.frame _ _ hs (hf _) rfl rfl rfl rfl

include hcb

theorem Stable.keeps_listen (port : Int) : Keeps I (listen h c cb port) := by
  refine .bind (hI.keeps_socket (udpCall_family h (.listen port))) fun ok => .ite (fun _ => ?_) fun _ => .pure _
  refine .bind (.update hI.closeOwnedPeers) fun _ => ?_
  exact .bind (keeps_fire hcb _) fun _ => .pure _

theorem Stable.keeps_close : Keeps I (close h c cb) := by
  have hrest (changed : Bool) : Keeps I (do
      let closed ← Code.update UdpServer.closeOwnedPeers
      return closed || changed) :=
    .bind (.update hI.closeOwnedPeers) fun _ => .pure _
  have hclosed (u : UdpSocket) :
      KeepsFamily u { u with toSocket := (u.toSocket.close h.toHost).2 } :=
    .of_eq (Socket.close_netFamily ..)
  exact .bind (hI.keeps_socket hclosed) fun changed =>
    .bind (.whenever (keeps_fire hcb _)) fun _ => hrest changed

theorem Stable.keeps_reportError (code : Int) : Keeps I (reportError cb code) :=
  .bind (.modify fun _ hs => hI.frame _ _ hs (.of_eq rfl) rfl rfl rfl rfl) fun _ => hcb _

theorem Stable.keeps_dispatch (flags : Flags) : Keeps I (dispatch h cb flags) := by
  have hticked : Keeps I (Code.modify fun s : UdpServer =>
      { s with toSocket := s.ticked.toSocket }) := .modify fun _ hs =>
    hI.frame _ _ hs (.of_eq rfl) rfl rfl rfl rfl
  refine .bind (.read _) fun s => .ite (fun _ => ?_) fun _ => .pure _
  refine .ite (fun _ => ?_) fun _ => .ite (fun _ => hI.keeps_reportError hcb _) fun _ =>
    .ite (fun _ => .bind hticked fun _ => hI.keeps_reportError hcb _) fun _ => .pure _
  refine .bind hticked fun _ => .ite (fun _ => ?_) fun _ =>
    .ite (fun _ => hI.keeps_reportError hcb _) fun _ => .pure _
  refine .bind (.modify fun _ hs => hI.frame _ _ hs (.of_eq rfl) rfl rfl rfl rfl) fun _ => ?_
  exact .bind (.update fun s hs => hI.getPeer s _ hs) fun _ => hcb _

theorem Stable.keeps_exec (o : UdpOp) : Keeps I ((system h c).exec cb o) := by
  have hupdate {α : Type} {f : UdpServer → α × UdpServer} (hf : ∀ s, I s → I (f s).2) :
      Keeps I (do let _ ← Code.update f) := .bind (.update hf) fun _ => .pure _
  cases o with
  | listen port => exact .bind (hI.keeps_listen hcb port) fun _ => .pure _
  | listenStored =>
    exact .bind (.bind (.read _) fun port => hI.keeps_listen hcb port) fun _ => .pure _
  | close => exact .bind (hI.keeps_close hcb) fun _ => .pure _
  | read buffer size => exact hupdate fun s hs => hI.read hs buffer size
  | readString size => exact hupdate fun s hs => hI.readString hs size
  | readInternal => exact hupdate fun s hs => hI.read hs true _
  | getPeer remote => exact hupdate fun s => hI.getPeer s remote
  | removePeer peer => exact hupdate fun s => hI.removeOwnedPeer s peer
  | closePeer address => exact hupdate fun s => hI.closePeer s address
  | writePeer address answer data size =>
    exact hupdate fun s => hI.writePeer s address answer data size
  | write answer data size => exact hupdate fun s hs => hI.frame _ _ hs (.of_eq rfl) rfl rfl rfl rfl
  | setReadTimeout timeoutMs =>
    exact hupdate fun s hs =>
      hI.frame _ _ hs (.of_eq (Socket.setter_netFamily h.toHost (.readTimeout timeoutMs) _)) rfl rfl rfl rfl
  | setBlocking flag =>
    exact hupdate fun s hs =>
      hI.frame _ _ hs (.of_eq (Socket.setBlocking_netFamily ..)) rfl rfl rfl rfl
  | dispatch flags => exact .whenever (hI.keeps_dispatch hcb flags)

omit hcb

theorem Stable.handlers (hcb : Realizable (system h c) (fun _ _ => True) (fun _ _ => True) cb)
    (n : UdpNote) : Keeps I (cb n) :=
  hcb.keeps (fun o _ _ hcb t _ ht => hI.keeps_exec hcb o t ht) n

theorem Stable.run
    (hrun : Run (system h c) (fun _ _ => True) (fun _ _ => True) (fun _ _ => True) s t) (hs : I s) :
    I t :=
  hrun.keeps (fun o _ hcb t _ ht => hI.keeps_exec (hI.handlers hcb) o t ht) hs

/-- A stable property of a new server holds at every moment.  A handler
that throws at once leaves what it was called on, so this covers the moments
inside handlers too. -/
theorem Stable.reached (hnew : ∀ u : UdpSocket, u.netFamily ≠ .other → I { toUdpSocket := u })
    (hs : Reaches h c s) : I s := by
  obtain ⟨tick, hrun⟩ := hs
  refine hI.run hrun ?_
  have hbase := UdpSocket.construct_family h tick
  unfold construct
  cases c with
  | udpServerSocket => exact hnew _ hbase
  | udpServerEventSocket =>
    dsimp only
    split
    · exact hnew _ hbase
    · refine hnew _ ?_
      dsimp only
      split
      · rwa [Socket.setBlocking_netFamily]
      · rwa [Socket.close_netFamily, Socket.setBlocking_netFamily]

end Runs

theorem Sound.read (hs : s.Sound) (buffer : Bool) (size : Int) : (s.read h buffer size).2.Sound :=
  sound_stable.read hs buffer size

theorem Reaches.sound (hs : Reaches h c s) : s.Sound :=
  sound_stable.reached (fun _ _ => ⟨rfl, List.nodup_nil, by simp, by simp, List.Pairwise.nil⟩) hs

theorem Reaches.closing (hs : Reaches h c s) : s.closingPeers = false :=
  closing_stable.reached (fun _ _ => rfl) hs

/-- `same_udp_address` is an equivalence whose classes read the same, a server
owns at most one peer of each class, and an open server finds it from any of
its addresses. -/
theorem one_peer_each_endpoint :
    (Equivalence fun a b : Endpoint => a.1.sameUdpAddress b.1 = true) ∧
    (∀ inetNtop (a b : Endpoint), a.1.sameUdpAddress b.1 = true →
      a.1.getRemotePort = b.1.getRemotePort ∧
      a.1.getRemoteIp inetNtop = b.1.getRemoteIp inetNtop) ∧
    ∀ (h : UdpHost) (c : UdpServerClass) (s : UdpServer), Reaches h c s →
      (s.owned.Pairwise fun p q => p.remoteAddr.sameUdpAddress q.remoteAddr = false) ∧
      (s.isValidSocket = true → ∀ a b : Endpoint, a.1.sameUdpAddress b.1 = true →
        ∃ p ∈ (s.getPeer a.1).2.owned, p.peerActive = true ∧ (s.getPeer a.1).1 = some p.address ∧
          ((s.getPeer a.1).2.getPeer b.1) = (some p.address, (s.getPeer a.1).2)) := by
  refine ⟨same_equivalence, fun inetNtop a b hab => same_remote inetNtop hab, ?_⟩
  intro h c s hs
  refine ⟨hs.sound.distinct, fun hvalid a b hab => ?_⟩
  obtain ⟨p, hp, hgot, hactive, hsame, hvalid'⟩ := hs.sound.getPeer_active hvalid a.2
  exact ⟨p, hp, hactive, hgot,
    (hs.sound.getPeer a.1).getPeer_of_mem hvalid' hp hactive (same_trans hsame hab)⟩

end UdpServer

end Aeon
