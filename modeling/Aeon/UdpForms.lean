import Aeon.UdpSends

/-!
# Both forms of an endpoint

An IPv4 address and the IPv4-mapped IPv6 address of the same endpoint share a peer,
which keeps the form of whoever asked first.  An IPv4 descriptor sends to one of the
two forms only.
-/

namespace Aeon

open Program Reentrant Sockaddr

namespace UdpServer

variable {h : UdpHost} {c : UdpServerClass} {s : UdpServer}

/-- Two sends behave the same: they make the same native call, to equivalent
destinations, or both make none. -/
def Alike (x y : Sent) : Prop :=
  match x.call, y.call with
  | some c, some d => c.fd = d.fd ∧ c.data = d.data ∧ c.target.sameUdpAddress d.target = true
  | none, none => True
  | _, _ => False

/-- The peers that `get_peer` gives for two addresses behave the same when written to,
whichever of the addresses is asked for first. -/
def PeersAlike (a b : Sockaddr) (s : UdpServer) : Prop :=
  ∀ pa pb, (s.getPeer a).1 = some pa → (s.getPeer b).1 = some pb →
    ∀ answer data size, ∃ x y, ((s.getPeer a).2.writePeer pa answer data size).1 = some x ∧
      ((s.getPeer b).2.writePeer pb answer data size).1 = some y ∧ Alike x y

/-- The descriptor takes both forms of an address, or both addresses have the same form,
or the endpoint has an active peer already. -/
def EitherForm (a b : Sockaddr) (s : UdpServer) : Prop :=
  s.isValidSocket = true → s.netFamily = .inet6 ∨ a.family = b.family ∨
    (s.findUdpPeer a).any (·.peerActive) = true

/-- The peer that `get_peer` gives is active, and is either there or keeps the address
that it was asked for. -/
theorem Sound.getPeer_remote (hs : s.Sound) (hopen : s.isValidSocket = true) {remote : Sockaddr}
    (hremote : remote.family ≠ .other) : ∃ p : UdpPeer, (s.getPeer remote).1 = some p.address ∧
      (∀ answer data size, ((s.getPeer remote).2.writePeer p.address answer data size).1 =
        some (sendDatagram true (s.sockfd.getD 0) s.netFamily p.remoteAddr answer data size)) ∧
      (p ∈ s.owned ∧ p.peerActive = true ∧ p.remoteAddr.sameUdpAddress remote = true ∨
        p.remoteAddr = remote ∧
          ∀ q ∈ s.owned, q.remoteAddr.sameUdpAddress remote = true → q.peerActive = false) := by
  obtain ⟨p, hp, hgot, hactive, hsame, -⟩ := hs.getPeer_active hopen hremote
  refine ⟨p, hgot, fun answer data size => ?_, ?_⟩
  · rw [(hs.getPeer remote).writePeer_sent hp, UdpPeer.write]
    have hpeer : p.isValidSocket s.toUdpSocket = true := Bool.and_eq_true_iff.mpr ⟨hactive, hopen⟩
    simp only [getPeer_base, hpeer]
  · rcases hs.getPeer_cases remote with ⟨q, hq, hq', hsame', -, he⟩ |
        ⟨t, -, -, hfresh, howned, hinactive, he⟩ | ⟨hclosed, -⟩
    · rw [he] at hp
      exact .inl ⟨hp, hactive, hsame⟩
    · rw [he, createPeer, if_neg hremote] at hp
      rcases List.mem_append.mp hp with hp | hp
      · rw [((howned p).mp hp).2] at hsame
        cases hsame
      · rw [List.mem_singleton.mp hp]
        exact .inr ⟨rfl, hinactive⟩
    · rw [hopen] at hclosed
      cases hclosed

/-- Two addresses that a descriptor takes in the same way are sent to in the same way. -/
theorem alike_of_native {family : Family} {a b target target' : Sockaddr}
    (ha : a.native family = some target) (hb : b.native family = some target')
    (hsame : target.sameUdpAddress target' = true) (valid : Bool) (fd : ℕ) (answer : IoResult)
    (data : Option (List UInt8)) (size : Int) : Alike (sendDatagram valid fd family a answer data size)
      (sendDatagram valid fd family b answer data size) := by
  unfold sendDatagram
  split
  · trivial
  · rw [ha, hb]
    exact ⟨rfl, rfl, hsame⟩

theorem alike_of_none {family : Family} {a b : Sockaddr} (ha : a.native family = none)
    (hb : b.native family = none) (valid : Bool) (fd : ℕ) (answer : IoResult)
    (data : Option (List UInt8)) (size : Int) : Alike (sendDatagram valid fd family a answer data size)
      (sendDatagram valid fd family b answer data size) := by
  unfold sendDatagram
  split
  · trivial
  · rw [ha, hb]
    trivial

theorem alike_refl {family : Family} (hfamily : family ≠ .other) (valid : Bool) (fd : ℕ)
    (remote : Sockaddr) (answer : IoResult) (data : Option (List UInt8)) (size : Int) :
    Alike (sendDatagram valid fd family remote answer data size)
      (sendDatagram valid fd family remote answer data size) := by
  cases htarget : remote.native family with
  | none => exact alike_of_none htarget htarget ..
  | some target =>
    refine alike_of_native htarget htarget (same_refl fun hother => ?_) ..
    exact hfamily ((native_aims hfamily htarget).1.symm.trans hother)

/-- Two forms of one endpoint are sent to alike on an IPv6 descriptor, and two addresses of
the same form on any. -/
theorem alike_of_same {family : Family} {a b : Sockaddr} (hfamily : family ≠ .other)
    (hab : a.sameUdpAddress b = true) (hform : family = .inet6 ∨ a.family = b.family) (valid : Bool)
    (fd : ℕ) (answer : IoResult) (data : Option (List UInt8)) (size : Int) :
    Alike (sendDatagram valid fd family a answer data size)
      (sendDatagram valid fd family b answer data size) := by
  have hsupported := same_supported hab
  cases family with
  | other => exact absurd rfl hfamily
  | inet6 =>
    obtain ⟨target, ha⟩ := native_inet6 hsupported.1
    obtain ⟨target', hb⟩ := native_inet6 hsupported.2
    have hsame := same_trans (native_aims hfamily ha).2 hab
    exact alike_of_native ha hb (same_trans hsame (same_symm (native_aims hfamily hb).2)) ..
  | inet =>
    have hsame : a.family = b.family := hform.resolve_left nofun
    by_cases hinet : a.family = .inet
    · exact alike_of_native (native_inet.trans (if_pos hinet))
        (native_inet.trans (if_pos (hsame ▸ hinet))) hab ..
    · exact alike_of_none (native_inet.trans (if_neg hinet))
        (native_inet.trans (if_neg (hsame ▸ hinet))) ..

/-- An IPv4 descriptor sends to one of two forms of an endpoint only. -/
theorem not_alike {a b : Sockaddr} (hab : a.family ≠ b.family) (ha : a.family ≠ .other)
    (hb : b.family ≠ .other) (fd : ℕ) (answer : IoResult) :
    ¬Alike (sendDatagram true fd .inet a answer (some []) 0)
      (sendDatagram true fd .inet b answer (some []) 0) := by
  cases a with
  | other => exact absurd rfl ha
  | inet port addr =>
    cases b with
    | other => exact absurd rfl hb
    | inet port' addr' => exact absurd rfl hab
    | inet6 port' flowinfo' addr' scope' => exact id
  | inet6 port flowinfo addr scope =>
    cases b with
    | other => exact absurd rfl hb
    | inet port' addr' => exact id
    | inet6 port' flowinfo' addr' scope' => exact absurd rfl hab

theorem Sound.findUdpPeer_active (hs : s.Sound) {a : Sockaddr} :
    (s.findUdpPeer a).any (·.peerActive) = true ↔
      ∃ p ∈ s.owned, p.peerActive = true ∧ p.remoteAddr.sameUdpAddress a = true := by
  rw [hs.findUdpPeer, Option.any_eq_true]
  constructor
  · rintro ⟨p, hfind, hactive⟩
    exact ⟨p, List.mem_of_find?_eq_some hfind, hactive, by simpa using List.find?_some hfind⟩
  · rintro ⟨p, hp, hactive, hsame⟩
    obtain ⟨q, hfind⟩ : ∃ q, s.owned.find? (fun p => p.remoteAddr.sameUdpAddress a) = some q :=
      Option.isSome_iff_exists.mp (List.find?_isSome.mpr ⟨p, hp, hsame⟩)
    have hq : q.remoteAddr.sameUdpAddress a = true := by simpa using List.find?_some hfind
    have hpq := hs.unique hp (List.mem_of_find?_eq_some hfind) (same_trans hsame (same_symm hq))
    exact ⟨q, hfind, hpq ▸ hactive⟩

/-- The peers that a server gives for two equivalent addresses behave the same, whichever
address made the peer, if and only if the native descriptor takes both forms, the forms are
the same, or an active peer of the endpoint is there already. -/
theorem peers_alike_iff (hs : Reaches h c s) {a b : Sockaddr} (hab : a.sameUdpAddress b = true) :
    PeersAlike a b s ↔ EitherForm a b s := by
  obtain ⟨ha, hb⟩ := same_supported hab
  refine ⟨fun halike hopen => ?_, fun hform pa pb hpa hpb answer data size => ?_⟩
  · by_contra hnot
    obtain ⟨hfour, hfamilies, hnone⟩ : s.netFamily ≠ .inet6 ∧ a.family ≠ b.family ∧
        ¬(s.findUdpPeer a).any (·.peerActive) = true := by simpa only [not_or] using hnot
    have hinet : s.netFamily = .inet := by
      cases hfamily : s.netFamily with
      | inet => rfl
      | inet6 => exact absurd hfamily hfour
      | other => exact absurd hfamily hs.supported
    obtain ⟨p, hp, hsendp, hcasep⟩ := hs.sound.getPeer_remote hopen ha
    obtain ⟨q, hq, hsendq, hcaseq⟩ := hs.sound.getPeer_remote hopen hb
    have hpa : p.remoteAddr = a := by
      rcases hcasep with ⟨hmem, hactive, hsame⟩ | ⟨hnew, -⟩
      · exact absurd (hs.sound.findUdpPeer_active.mpr ⟨p, hmem, hactive, hsame⟩) hnone
      · exact hnew
    have hqb : q.remoteAddr = b := by
      rcases hcaseq with ⟨hmem, hactive, hsame⟩ | ⟨hnew, -⟩
      · exact absurd (hs.sound.findUdpPeer_active.mpr
          ⟨q, hmem, hactive, same_trans hsame (same_symm hab)⟩) hnone
      · exact hnew
    obtain ⟨x, y, hx, hy, hxy⟩ := halike p.address q.address hp hq ⟨0, 0⟩ (some []) 0
    obtain rfl := Option.some.inj ((hsendp _ _ _).symm.trans hx)
    obtain rfl := Option.some.inj ((hsendq _ _ _).symm.trans hy)
    rw [hinet, hpa, hqb] at hxy
    exact not_alike hfamilies ha hb _ _ hxy
  · have hopen : s.isValidSocket = true := by
      by_contra hclosed
      rw [Bool.not_eq_true] at hclosed
      simp [UdpServer.getPeer, hclosed] at hpa
    obtain ⟨p, hp, hsendp, hcasep⟩ := hs.sound.getPeer_remote hopen ha
    obtain ⟨q, hq, hsendq, hcaseq⟩ := hs.sound.getPeer_remote hopen hb
    obtain rfl := Option.some.inj (hp.symm.trans hpa)
    obtain rfl := Option.some.inj (hq.symm.trans hpb)
    refine ⟨_, _, hsendp .., hsendq .., ?_⟩
    rcases hcasep with ⟨hmemp, hactivep, hsamep⟩ | ⟨hnewp, hinactive⟩
    · rcases hcaseq with ⟨hmemq, -, hsameq⟩ | ⟨-, hinactive⟩
      · have hpq := hs.sound.unique hmemp hmemq
          (same_trans (same_trans hsamep hab) (same_symm hsameq))
        rw [hpq]
        exact alike_refl hs.supported ..
      · rw [hinactive p hmemp (same_trans hsamep hab)] at hactivep
        cases hactivep
    · rcases hcaseq with ⟨hmemq, hactiveq, hsameq⟩ | ⟨hnewq, -⟩
      · rw [hinactive q hmemq (same_trans hsameq (same_symm hab))] at hactiveq
        cases hactiveq
      · rw [hnewp, hnewq]
        refine alike_of_same hs.supported hab ?_ ..
        rcases hform hopen with hsix | hsame | hactive
        · exact .inl hsix
        · exact .inr hsame
        · obtain ⟨r, hr, hactive, hsame⟩ := hs.sound.findUdpPeer_active.mp hactive
          rw [hinactive r hr hsame] at hactive
          cases hactive

end UdpServer

open UdpServer

/-- A host without dual-stack sockets, on which a server falls back to IPv4. -/
def fallbackHost : UdpHost :=
  { UdpHost.steady with toHost := { Host.steady with setsockopt := fun _ => Errno.EINVAL } }

def mappedPeer : Sockaddr := .inet6 9 0 (toMapped (dotted 10 0 0 1)) 0

/-- On the IPv4 fallback the peer that the IPv4 address makes can send, and the one that the
mapped address makes cannot. -/
theorem peers_alike_fallback : ¬∀ (h : UdpHost) (c : UdpServerClass) (s : UdpServer), Reaches h c s →
    ∀ a b : Sockaddr, a.sameUdpAddress b = true → PeersAlike a b s := by
  intro hall
  have halike := hall _ _ _ (listening_reaches fallbackHost) ipv4Peer mappedPeer (by decide)
  obtain ⟨x, y, hx, hy, hxy⟩ := halike 0 0 (by decide +kernel) (by decide +kernel) ⟨0, 0⟩ (some []) 0
  have hx' : x.call.isSome = true := by
    obtain rfl := Option.some.inj hx
    decide +kernel
  have hy' : y.call = none := by
    obtain rfl := Option.some.inj hy
    decide +kernel
  obtain ⟨call, hcall⟩ := Option.isSome_iff_exists.mp hx'
  rw [Alike, hcall, hy'] at hxy
  exact hxy

/-- On a dual-stack server both peers send. -/
theorem peers_alike_dual : (listening .steady).netFamily = .inet6 ∧
    PeersAlike ipv4Peer mappedPeer (listening .steady) := by
  have hfamily : (listening .steady).netFamily = .inet6 := by decide +kernel
  exact ⟨hfamily, (peers_alike_iff (listening_reaches .steady) (by decide)).mpr fun _ => .inl hfamily⟩

end Aeon
