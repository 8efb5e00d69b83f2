import Aeon.EventSocket
import Aeon.PeerCollection

/-!
# Broadcasting to the peers of a server

`socket_set::broadcast` goes over the vector of members with its iterators.  The
`write` of an event peer calls the handlers of that peer, and these may remove
other peers, which erases them from the same vector.
-/

namespace Aeon

/-- What the `write` of one peer returns, and the peers that its handlers remove
meanwhile, in order.  A peer that goes may have a close handler that removes more,
which come after it. -/
structure Turn where
  written : Int
  retired : List Peer := []

/-- What `broadcast` returns, the peers that it has written to with what their
`write` returned, and the collection after it.  It returns nothing that is defined
once an iterator has been read past the members. -/
structure Broadcast where
  delivered : Option Int
  attempts : List (Peer × Int)
  peers : Peers

namespace Peers

variable (h : Host)

/-- `remove_owned_peer`, for a handler. -/
def retire (s : Peers) (peer : Peer) : Peers :=
  if (s.detach peer).1 then ((s.detach peer).2.closePeer h peer).2 else s

def retireAll (retired : List Peer) (s : Peers) : Peers := retired.foldl (retire h) s

variable (turns : ℕ → Turn) (count : Int)

/-- The loop, with `left` elements between the iterator and the end, both as they
were at the start. -/
def broadcastLoop : ℕ → ℕ → Int → List (Peer × Int) → Peers → Broadcast
  | 0, _, delivered, attempts, s => ⟨some delivered, attempts, s⟩
  | left + 1, index, delivered, attempts, s =>
    match s.members[index]? with
    | none => ⟨none, attempts, s⟩
    | some peer =>
      let written := (turns index).written
      broadcastLoop left (index + 1) (if written = count then delivered + 1 else delivered)
        (attempts ++ [(peer, written)]) (s.retireAll h (turns index).retired)

/-- `broadcast(bytes, count)`.  A null pointer is `none`. -/
def broadcast (bytes : Option (List UInt8)) (s : Peers) : Broadcast :=
  if count < 0 || (count > 0 && bytes.isNone) then ⟨some (-1), [], s⟩
  else s.broadcastLoop h turns count s.members.length 0 0 []

/-- `broadcast(bytes)` of a `std::string`. -/
def broadcastString (bytes : List UInt8) (s : Peers) : Broadcast :=
  if bytes.length > intMax then ⟨some (-1), [], s⟩
  else s.broadcast h turns bytes.length (some bytes)

/-! ### What a broadcast is for -/

/-- The attempts that are wanted: one for each of the peers in order that is still a
member when its turn comes. -/
def wanted : List Peer → ℕ → Peers → List (Peer × Int)
  | [], _, _ => []
  | peer :: rest, turn, s =>
    if peer ∈ s.members then
      (peer, (turns turn).written) :: wanted rest (turn + 1) (s.retireAll h (turns turn).retired)
    else wanted rest turn s

/-- The peers that took the whole payload. -/
def takers (attempts : List (Peer × Int)) : Int := (attempts.countP fun a => a.2 = count : ℕ)

/-- The payload goes to the peers that it is meant for, and to no other, and their
number is returned. -/
structure Delivers (bytes : Option (List UInt8)) (s : Peers) : Prop where
  attempts : (s.broadcast h turns count bytes).attempts = s.wanted h turns s.members 0
  delivered : (s.broadcast h turns count bytes).delivered =
    some (takers count (s.wanted h turns s.members 0))

variable {h turns count} {s t : Peers} {p q : Peer}

/-! ### Removals -/

/-- A handler's removal is `removeOwnedPeer`, without a handler of its own. -/
theorem retire_removeOwnedPeer (s : Peers) (p : Peer) :
    (removeOwnedPeer h (.whole Peers) (fun _ => pure ()) (some p) s).2 = s.retire h p := by
  rw [removeOwnedPeer_snd, closePeer_snd]
  unfold retire detach
  rw [Program.Part.whole_get]
  by_cases hp : p ∈ s.owned
  · simp only [if_pos hp, if_true]
    split
    · rfl
    · rfl
  · simp only [if_neg hp, Bool.false_eq_true, if_false]

/-- The two lists of a collection that only `add_peer` and `remove_peer` change. -/
abbrev Paired (s : Peers) : Prop := s.members = s.owned

theorem retire_members (h : Host) (s : Peers) (p : Peer) :
    (s.retire h p).members = if p ∈ s.owned then s.members.erase p else s.members := by
  unfold retire detach
  by_cases hp : p ∈ s.owned
  · simp only [if_pos hp, if_true]
    unfold Peers.closePeer
    split
    · rfl
    · rfl
  · simp only [if_neg hp, Bool.false_eq_true, if_false]

theorem retire_owned (h : Host) (s : Peers) (p : Peer) :
    (s.retire h p).owned = if p ∈ s.owned then s.owned.erase p else s.owned := by
  unfold retire detach
  by_cases hp : p ∈ s.owned
  · simp only [if_pos hp, if_true]
    unfold Peers.closePeer
    split
    · rfl
    · rfl
  · simp only [if_neg hp, Bool.false_eq_true, if_false]

theorem Paired.retire (hs : Paired s) (p : Peer) : Paired (s.retire h p) := by
  unfold Paired at *
  rw [retire_members, retire_owned, hs]

theorem retire_sublist (s : Peers) (p : Peer) : (s.retire h p).members.Sublist s.members := by
  rw [retire_members]
  split
  · exact List.erase_sublist
  · exact .refl _

theorem not_mem_retire (hs : Paired s) (p : Peer) : p ∉ (s.retire h p).members := by
  rw [retire_members]
  by_cases hp : p ∈ s.owned
  · rw [if_pos hp, hs]
    exact s.distinct.not_mem_erase
  · rwa [if_neg hp, hs]

/-- Nothing happens where a peer that is not a member is removed. -/
theorem retire_of_not_mem (hs : Paired s) (hp : p ∉ s.members) : s.retire h p = s := by
  have hnot : p ∉ s.owned := hs ▸ hp
  unfold Peers.retire detach
  simp only [if_neg hnot, Bool.false_eq_true, if_false]

theorem Paired.retireAll (hs : Paired s) (ps : List Peer) : Paired (s.retireAll h ps) := by
  unfold Peers.retireAll
  induction ps generalizing s with
  | nil => exact hs
  | cons p rest ih => exact ih (hs.retire p)

theorem retireAll_sublist (s : Peers) (ps : List Peer) : (s.retireAll h ps).members.Sublist s.members := by
  unfold Peers.retireAll
  induction ps generalizing s with
  | nil => exact .refl _
  | cons p rest ih => exact (ih (s.retire h p)).trans (retire_sublist s p)

theorem not_mem_retireAll (hs : Paired s) {ps : List Peer} (hp : p ∈ ps) :
    p ∉ (s.retireAll h ps).members := by
  induction ps generalizing s with
  | nil => cases hp
  | cons q rest ih =>
    rcases List.mem_cons.mp hp with rfl | hrest
    · intro hlast
      exact not_mem_retire hs p ((retireAll_sublist (s.retire h p) rest).subset hlast)
    · exact ih (hs.retire q) hrest

theorem retireAll_of_not_mem (hs : Paired s) {ps : List Peer} (hps : ∀ p ∈ ps, p ∉ s.members) :
    s.retireAll h ps = s := by
  unfold Peers.retireAll
  induction ps with
  | nil => rfl
  | cons q rest ih =>
    rw [List.foldl_cons, retire_of_not_mem hs (hps q (List.mem_cons_self ..))]
    exact ih fun p hp => hps p (List.mem_cons_of_mem _ hp)

/-! ### The loop -/

/-- Nobody is removed before the last of the turns from `index` on. -/
def Quiet (turns : ℕ → Turn) (index : ℕ) (s : Peers) : Prop :=
  ∀ n, index ≤ n → n + 1 < s.members.length → ∀ p ∈ (turns n).retired, p ∉ s.members

/-- A loop that ends has found every slot within the members. -/
theorem length_of_broadcastLoop {left index : ℕ} {delivered n : Int} {attempts : List (Peer × Int)}
    (h' : (s.broadcastLoop h turns count left index delivered attempts).delivered = some n)
    (hleft : 0 < left) : index + left ≤ s.members.length := by
  induction left generalizing s index delivered attempts with
  | zero => exact absurd hleft (Nat.lt_irrefl 0)
  | succ left ih =>
    unfold broadcastLoop at h'
    cases hslot : s.members[index]? with
    | none =>
      rw [hslot] at h'
      cases h'
    | some peer =>
      rw [hslot] at h'
      obtain ⟨hindex, -⟩ := List.getElem?_eq_some_iff.mp hslot
      by_cases hmore : 0 < left
      · have hlater := ih h' hmore
        have hshrunk := (retireAll_sublist (h := h) s (turns index).retired).length_le
        omega
      · omega

/-- A loop over all the members that ends has been a quiet one. -/
theorem quiet_of_broadcastLoop (hs : Paired s) {left index : ℕ} {delivered n : Int}
    {attempts : List (Peer × Int)} (hall : index + left = s.members.length)
    (h' : (s.broadcastLoop h turns count left index delivered attempts).delivered = some n) :
    Quiet turns index s := by
  induction left generalizing s index delivered attempts with
  | zero =>
    intro m hm hlast
    omega
  | succ left ih =>
    unfold broadcastLoop at h'
    cases hslot : s.members[index]? with
    | none =>
      rw [hslot] at h'
      cases h'
    | some peer =>
      rw [hslot] at h'
      dsimp only at h'
      intro m hm hlast
      have hleft : 0 < left := by omega
      have hsub := retireAll_sublist (h := h) s (turns index).retired
      have hlength := length_of_broadcastLoop h' hleft
      have hsame : (s.retireAll h (turns index).retired).members = s.members :=
        hsub.eq_of_length_le (by omega)
      rcases Nat.eq_or_lt_of_le hm with rfl | hlater
      · intro p hp hmember
        exact not_mem_retireAll (h := h) hs hp (hsame ▸ hmember)
      · have hquiet := ih (hs.retireAll (turns index).retired) (by rw [hsame]; omega) h' m hlater
          (by rwa [hsame])
        rwa [hsame] at hquiet

theorem takers_cons (peer : Peer) (written : Int) (rest : List (Peer × Int)) :
    takers count ((peer, written) :: rest) = (if written = count then 1 else 0) + takers count rest := by
  unfold takers
  rw [List.countP_cons]
  push_cast
  by_cases htook : written = count
  · simp only [htook, decide_true, if_true]
    omega
  · simp only [htook, decide_false, Bool.false_eq_true, if_false]
    omega

/-- A quiet loop makes the attempts that are wanted. -/
theorem broadcastLoop_of_quiet (h : Host) (count : Int) (hs : Paired s) {left : ℕ} (index : ℕ)
    (hall : index + left = s.members.length) (hquiet : Quiet turns index s) (delivered : Int)
    (attempts : List (Peer × Int)) :
    let wanted := s.wanted h turns (s.members.drop index) index
    (s.broadcastLoop h turns count left index delivered attempts).attempts = attempts ++ wanted ∧
      (s.broadcastLoop h turns count left index delivered attempts).delivered =
        some (delivered + takers count wanted) := by
  induction left generalizing index delivered attempts with
  | zero =>
    have hrest : s.members.drop index = [] := List.drop_eq_nil_of_le (by omega)
    rw [hrest]
    simp [broadcastLoop, Peers.wanted, takers]
  | succ left ih =>
    have hindex : index < s.members.length := by omega
    have hslot : s.members[index]? = some s.members[index] := List.getElem?_eq_getElem hindex
    rw [List.drop_eq_getElem_cons hindex]
    unfold broadcastLoop Peers.wanted
    rw [hslot, if_pos (List.getElem_mem hindex)]
    dsimp only
    by_cases hmore : 0 < left
    · have hkept : s.retireAll h (turns index).retired = s :=
        retireAll_of_not_mem hs (hquiet index le_rfl (by omega))
      have hrest := ih (index + 1) (by omega) (fun n hn => hquiet n (Nat.le_of_succ_le hn))
        (if (turns index).written = count then delivered + 1 else delivered)
        (attempts ++ [(s.members[index], (turns index).written)])
      rw [hkept, hrest.1, hrest.2, takers_cons, List.append_assoc]
      refine ⟨rfl, ?_⟩
      congr 1
      split
      · omega
      · omega
    · obtain rfl : left = 0 := by omega
      have hlast : s.members.drop (index + 1) = [] := List.drop_eq_nil_of_le (by omega)
      rw [hlast]
      unfold broadcastLoop Peers.wanted
      rw [takers_cons]
      refine ⟨rfl, ?_⟩
      unfold takers
      split
      · simp
      · simp

/-- A broadcast does what it is for exactly when no handler removes a peer before
the last turn.  After a removal the end that the loop has kept is past the
members. -/
theorem broadcast_delivers_iff (h : Host) (turns : ℕ → Turn) (count : Int) (bytes : Option (List UInt8))
    (s : Peers) (hs : s.members = s.owned) (hcount : 0 ≤ count) (hbytes : 0 < count → bytes.isSome) :
    Delivers h turns count bytes s ↔
      ∀ n, n + 1 < s.members.length → ∀ p ∈ (turns n).retired, p ∉ s.members := by
  have hvalid : ¬ (count < 0 || (count > 0 && bytes.isNone)) = true := by
    cases bytes with
    | some bytes => simp [hcount]
    | none =>
      have hzero : count = 0 := by
        by_contra hne
        exact Bool.false_ne_true (hbytes (by omega))
      simp [hzero]
  have hbroadcast : s.broadcast h turns count bytes =
      s.broadcastLoop h turns count s.members.length 0 0 [] := if_neg hvalid
  have hquiet : Quiet turns 0 s ↔
      ∀ n, n + 1 < s.members.length → ∀ p ∈ (turns n).retired, p ∉ s.members :=
    ⟨fun hq n => hq n (Nat.zero_le n), fun hq n _ => hq n⟩
  rw [← hquiet]
  constructor
  · intro hdelivers
    have hdelivered := hdelivers.delivered
    rw [hbroadcast] at hdelivered
    exact quiet_of_broadcastLoop hs (Nat.zero_add _) hdelivered
  · intro hq
    have hloop := broadcastLoop_of_quiet h count hs 0 (Nat.zero_add _) hq 0 []
    dsimp only at hloop
    rw [List.drop_zero, List.nil_append, Int.zero_add] at hloop
    exact ⟨hbroadcast ▸ hloop.1, hbroadcast ▸ hloop.2⟩

/-- Three peers, all of them live. -/
def three : Peers := { owned := [0, 1, 2], members := [0, 1, 2], live := [0, 1, 2] }

/-- The last handler removes the first peer. -/
theorem broadcast_three :
    Delivers .steady (fun n => ⟨2, if n = 2 then [0] else []⟩) 2 (some [104, 105]) three :=
  (broadcast_delivers_iff .steady _ 2 _ three rfl (by decide) (fun _ => rfl)).mpr (by
    intro n hn
    have hlength : three.members.length = 3 := rfl
    have hnot : n ≠ 2 := by omega
    simp [hnot])

/-- The first handler removes the last peer, and the third turn is past the end. -/
theorem early_removal_not_delivered :
    ¬ Delivers .steady (fun n => ⟨2, if n = 0 then [2] else []⟩) 2 (some [104, 105]) three := by
  intro hdelivers
  have hdelivered := hdelivers.delivered
  revert hdelivered
  decide +kernel

end Peers

end Aeon
