import Aeon.Address

/-!
# Name resolution

`resolver::resolve_internal` on the list that `getaddrinfo` gives, and
`resolver::resolve` for each of the types it is instantiated at.
-/

namespace Aeon

namespace Sockaddr

/-- `set_port`, which leaves an address of another family alone. -/
def setPort (port : UInt16) : Sockaddr → Sockaddr
  | .other => .other
  | .inet _ addr => .inet port addr
  | .inet6 _ flow addr scope => .inet6 port flow addr scope

/-- `get_string`. -/
def getString (inetNtop : Family → List UInt8 → String) : Sockaddr → String
  | .other => ""
  | .inet _ addr => inetNtop .inet addr.toList
  | .inet6 _ _ addr _ => inetNtop .inet6 addr.toList

/-- `sockaddr_in`. -/
structure V4 where
  port : UInt16
  addr : Vector UInt8 4
  deriving DecidableEq, Repr

/-- `sockaddr_in6`. -/
structure V6 where
  port : UInt16
  flowinfo : UInt32
  addr : Vector UInt8 16
  scope : UInt32
  deriving DecidableEq, Repr

/-- `get_sockaddr_storage`. -/
def getSockaddrStorage (a : Sockaddr) : Sockaddr := a

/-- `get_sockaddr_ipv4`; nothing is the exception "address is not IPv4". -/
def getSockaddrIpv4 : Sockaddr → Option V4
  | .inet port addr => some ⟨port, addr⟩
  | _ => none

/-- `get_sockaddr_ipv6`; nothing is the exception "address is not IPv6". -/
def getSockaddrIpv6 : Sockaddr → Option V6
  | .inet6 port flowinfo addr scope => some ⟨port, flowinfo, addr, scope⟩
  | _ => none

def V4.toSockaddr (a : V4) : Sockaddr := .inet a.port a.addr

def V6.toSockaddr (a : V6) : Sockaddr := .inet6 a.port a.flowinfo a.addr a.scope

@[simp] theorem V4.getSockaddrIpv4_toSockaddr (a : V4) : a.toSockaddr.getSockaddrIpv4 = some a := rfl

@[simp] theorem V6.getSockaddrIpv6_toSockaddr (a : V6) : a.toSockaddr.getSockaddrIpv6 = some a := rfl

theorem getSockaddrIpv4_of_family {a : Sockaddr} (h : a.family ≠ .inet) : a.getSockaddrIpv4 = none := by
  cases a with
  | inet port addr => exact absurd rfl h
  | other => rfl
  | inet6 port flowinfo addr scope => rfl

theorem exists_v4 {a : Sockaddr} (h : a.family = .inet) : ∃ v : V4, v.toSockaddr = a := by
  cases a with
  | inet port addr => exact ⟨⟨port, addr⟩, rfl⟩
  | other => cases h
  | inet6 port flowinfo addr scope => cases h

end Sockaddr

namespace Resolver

/-- The loop, with the IPv6 and the IPv4 address it has found so far. -/
def scan : List Sockaddr → Option Sockaddr → Option Sockaddr → Option Sockaddr × Option Sockaddr
  | [], ipv6, ipv4 => (ipv6, ipv4)
  | p :: rest, ipv6, ipv4 =>
    if p.family = .inet6 ∧ ipv6.isNone then scan rest (some p) ipv4
    else if p.family = .inet ∧ ipv4.isNone then scan rest ipv6 (some p)
    else scan rest ipv6 ipv4

/-- `resolve_internal`; nothing is an exception.  IPv6 is preferred. -/
def resolveInternal (entries : List Sockaddr) : Option Sockaddr :=
  let found := scan entries none none
  if found.1.isSome then found.1 else found.2

/-! ### The addresses a lookup gives first -/

/-- The first address of a family. -/
def first (family : Family) (entries : List Sockaddr) : Option Sockaddr :=
  entries.find? fun a => a.family = family

theorem first_family {family : Family} {entries : List Sockaddr} {a : Sockaddr}
    (h : first family entries = some a) : a.family = family := by
  unfold first at h
  have hfound := List.find?_some h
  exact of_decide_eq_true hfound

theorem first_isSome {family : Family} {entries : List Sockaddr} :
    (first family entries).isSome ↔ ∃ a ∈ entries, a.family = family := by
  unfold first
  rw [List.find?_isSome]
  constructor
  · rintro ⟨a, ha, hfamily⟩
    exact ⟨a, ha, of_decide_eq_true hfamily⟩
  · rintro ⟨a, ha, hfamily⟩
    exact ⟨a, ha, decide_eq_true hfamily⟩

/-- What the loop has found stays; what it has not found is the first entry of
that family. -/
theorem scan_eq (entries : List Sockaddr) (ipv6 ipv4 : Option Sockaddr) :
    scan entries ipv6 ipv4 = (ipv6.or (first .inet6 entries), ipv4.or (first .inet entries)) := by
  induction entries generalizing ipv6 ipv4 with
  | nil => simp [scan, first]
  | cons p rest ih =>
    unfold scan first
    rw [List.find?_cons, List.find?_cons]
    by_cases h6 : p.family = .inet6
    · have h4 : p.family ≠ .inet := by rw [h6]; decide
      cases ipv6 with
      | none => simp [h6, ih, first]
      | some found => simp [h6, ih, first]
    · by_cases h4 : p.family = .inet
      · cases ipv4 with
        | none => simp [h4, ih, first]
        | some found => simp [h4, ih, first]
      · simp [h6, h4, ih, first]

/-- The IPv6 preference of the comment at `resolve_internal`. -/
theorem resolveInternal_eq (entries : List Sockaddr) :
    resolveInternal entries = (first .inet6 entries).or (first .inet entries) := by
  unfold resolveInternal
  rw [scan_eq]
  cases first .inet6 entries with
  | none => simp
  | some a => simp

/-! ### Typed resolution -/

/-- `resolve<address>`. -/
def resolveAddress (entries : List Sockaddr) : Option Sockaddr := resolveInternal entries

/-- `resolve<std::string>`. -/
def resolveString (inetNtop : Family → List UInt8 → String) (entries : List Sockaddr) : Option String :=
  (resolveInternal entries).map (Sockaddr.getString inetNtop)

/-- `resolve<sockaddr_storage>`. -/
def resolveStorage (entries : List Sockaddr) : Option Sockaddr :=
  (resolveInternal entries).map Sockaddr.getSockaddrStorage

/-- `resolve<sockaddr_in>`. -/
def resolveIpv4 (entries : List Sockaddr) : Option Sockaddr.V4 :=
  (resolveInternal entries).bind Sockaddr.getSockaddrIpv4

/-- `resolve<sockaddr_in6>`. -/
def resolveIpv6 (entries : List Sockaddr) : Option Sockaddr.V6 :=
  (resolveInternal entries).bind Sockaddr.getSockaddrIpv6

/-- What a caller expects of a lookup: the first address of a family that the
result type can hold, with IPv6 before IPv4, and an exception only where there
is no such address. -/
structure Serves (inetNtop : Family → List UInt8 → String) (entries : List Sockaddr) : Prop where
  address : resolveAddress entries = (first .inet6 entries).or (first .inet entries)
  string : resolveString inetNtop entries =
    ((first .inet6 entries).or (first .inet entries)).map (Sockaddr.getString inetNtop)
  storage : resolveStorage entries = (first .inet6 entries).or (first .inet entries)
  ipv4 : ∀ a, first .inet entries = some a → (resolveIpv4 entries).map Sockaddr.V4.toSockaddr = some a
  ipv6 : ∀ a, first .inet6 entries = some a → (resolveIpv6 entries).map Sockaddr.V6.toSockaddr = some a
  addressThrows : resolveAddress entries = none → ∀ a ∈ entries, a.family = .other
  stringThrows : resolveString inetNtop entries = none → ∀ a ∈ entries, a.family = .other
  storageThrows : resolveStorage entries = none → ∀ a ∈ entries, a.family = .other
  ipv4Throws : resolveIpv4 entries = none → ∀ a ∈ entries, a.family ≠ .inet
  ipv6Throws : resolveIpv6 entries = none → ∀ a ∈ entries, a.family ≠ .inet6

theorem family_eq_other {f : Family} (h6 : f ≠ .inet6) (h4 : f ≠ .inet) : f = .other := by
  cases f with
  | inet => exact absurd rfl h4
  | inet6 => exact absurd rfl h6
  | other => rfl

theorem none_of_first {family : Family} {entries : List Sockaddr} (h : first family entries = none) :
    ∀ a ∈ entries, a.family ≠ family := by
  intro a ha hfamily
  have hsome : (first family entries).isSome := first_isSome.mpr ⟨a, ha, hfamily⟩
  rw [h] at hsome
  cases hsome

theorem resolveInternal_none {entries : List Sockaddr} (h : resolveInternal entries = none) :
    ∀ a ∈ entries, a.family = .other := by
  rw [resolveInternal_eq, Option.or_eq_none_iff] at h
  intro a ha
  exact family_eq_other (none_of_first h.1 a ha) (none_of_first h.2 a ha)

/-- IPv6 comes first, so a request for IPv6 finds what the list has. -/
theorem resolveIpv6_eq (entries : List Sockaddr) :
    (resolveIpv6 entries).map Sockaddr.V6.toSockaddr = first .inet6 entries := by
  unfold resolveIpv6
  rw [resolveInternal_eq]
  cases h6 : first .inet6 entries with
  | some a =>
    have hfamily := first_family h6
    cases a with
    | inet6 port flowinfo addr scope => rfl
    | other => cases hfamily
    | inet port addr => cases hfamily
  | none =>
    cases h4 : first .inet entries with
    | none => rfl
    | some a =>
      have hfamily := first_family h4
      cases a with
      | inet port addr => rfl
      | other => cases hfamily
      | inet6 port flowinfo addr scope => cases hfamily

/-- A request for IPv4 is answered only where the list has no IPv6 address. -/
theorem resolveIpv4_eq (entries : List Sockaddr) :
    (resolveIpv4 entries).map Sockaddr.V4.toSockaddr =
      if (first .inet6 entries).isSome then none else first .inet entries := by
  unfold resolveIpv4
  rw [resolveInternal_eq]
  cases h6 : first .inet6 entries with
  | some a =>
    have hnot : a.family ≠ .inet := by rw [first_family h6]; decide
    simp [Sockaddr.getSockaddrIpv4_of_family hnot]
  | none =>
    cases h4 : first .inet entries with
    | none => rfl
    | some a =>
      obtain ⟨v, rfl⟩ := Sockaddr.exists_v4 (first_family h4)
      simp

/-- Every request is served exactly when the list does not mix the two
families: with both, the IPv4 address that the loop has found is given up before
`get_sockaddr_ipv4` is asked for one. -/
theorem serves_iff (inetNtop : Family → List UInt8 → String) (entries : List Sockaddr) :
    Serves inetNtop entries ↔
      ¬ ((∃ a ∈ entries, a.family = .inet6) ∧ ∃ a ∈ entries, a.family = .inet) := by
  rw [← first_isSome, ← first_isSome]
  constructor
  · rintro hserves ⟨h6, h4⟩
    obtain ⟨a, ha⟩ := Option.isSome_iff_exists.mp h4
    have hnone := resolveIpv4_eq entries
    rw [if_pos h6, hserves.ipv4 a ha] at hnone
    cases hnone
  · intro hmix
    have hipv4 : (resolveIpv4 entries).map Sockaddr.V4.toSockaddr = first .inet entries := by
      rw [resolveIpv4_eq]
      split
      · rename_i h6
        cases h4 : first .inet entries with
        | none => rfl
        | some a => exact absurd ⟨h6, by rw [h4]; rfl⟩ hmix
      · rfl
    have hipv6 := resolveIpv6_eq entries
    exact
      { address := resolveInternal_eq entries
        string := by unfold resolveString; rw [resolveInternal_eq]
        storage := by
          unfold resolveStorage
          rw [resolveInternal_eq]
          exact Option.map_id' ..
        ipv4 := fun a ha => hipv4.trans ha
        ipv6 := fun a ha => hipv6.trans ha
        addressThrows := resolveInternal_none
        stringThrows := fun h => resolveInternal_none (Option.map_eq_none_iff.mp h)
        storageThrows := fun h => resolveInternal_none (Option.map_eq_none_iff.mp h)
        ipv4Throws := fun h => none_of_first (by rw [← hipv4, h]; rfl)
        ipv6Throws := fun h => none_of_first (by rw [← hipv6, h]; rfl) }

/-- A name with an address of each family, the IPv4 address even first, cannot
be resolved to a `sockaddr_in`. -/
theorem dual_stack_not_served :
    ¬ Serves (fun _ _ => "") [.inet 0 #v[127, 0, 0, 1],
      .inet6 0 0 #v[0, 0, 0, 0, 0, 0, 0, 0, 0, 0, 0, 0, 0, 0, 0, 1] 0] := by
  intro hserves
  have hfound := hserves.ipv4 (.inet 0 #v[127, 0, 0, 1]) (by decide)
  revert hfound
  decide

end Resolver

end Aeon
