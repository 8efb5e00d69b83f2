import Aeon.PeerCollection

/-!
# What a traversal of the owned peers closes

`close_owned_peers` keeps a numeric position into a list that handlers shrink.
A visit is one turn of its loop.  A visit skips the peers that were after the
position and, because earlier slots went away, are now before it.
-/

namespace Aeon

open Program Reentrant Code

/-- The operations that a close handler may call on the collection. -/
inductive PeerOp
  | removeOwnedPeer (peer : Option Peer)
  | closePeer (peer : Peer)
  | closeOwnedPeers (fuel : ℕ)

def peerSystem (h : Host) : System Peers Peer PeerOp where
  exec onClose
    | .removeOwnedPeer peer => do
      let _ ← removeOwnedPeer h (.whole Peers) onClose peer
    | .closePeer peer => do
      let _ ← closePeer h (.whole Peers) onClose peer
    | .closeOwnedPeers fuel => do
      let _ ← closeOwnedPeers h (.whole Peers) onClose fuel

/-- Handlers made of any operations on the collection that never throw. -/
abbrev CloseHandlers (h : Host) (onClose : Peer → Code Peers Unit) : Prop :=
  Realizable (peerSystem h) (fun _ _ => True) (fun _ _ => False) onClose

/-- What operations on the collection do to it: peers leave and close, and none
is added or opened. -/
structure Shrinks (s t : Peers) : Prop where
  owned : t.owned.Sublist s.owned
  live : ∀ p ∈ t.live, p ∈ s.live
  retired : ∀ p ∈ s.owned, p ∉ t.owned → p ∉ t.live
  closing : t.closingPeers = s.closingPeers

namespace Shrinks

variable {s t u : Peers} {p : Peer}

theorem refl (s : Peers) : Shrinks s s :=
  ⟨List.Sublist.refl _, fun _ hp => hp, fun _ hp hn => absurd hp hn, rfl⟩

theorem trans (h : Shrinks s t) (h' : Shrinks t u) : Shrinks s u where
  owned := h'.owned.trans h.owned
  live p hp := h.live p (h'.live p hp)
  retired p hp hn := by
    by_cases ht : p ∈ t.owned
    · exact h'.retired p ht hn
    · exact fun hl => h.retired p hp ht (h'.live p hl)
  closing := h'.closing.trans h.closing

theorem closePeer (h : Host) (p : Peer) (s : Peers) : Shrinks s (s.closePeer h p).2 := by
  unfold Peers.closePeer
  split
  · exact ⟨List.Sublist.refl _, fun q hq => List.mem_of_mem_filter hq,
      fun _ hp hn => absurd hp hn, rfl⟩
  · exact refl s

theorem not_live_closePeer (h : Host) (p : Peer) (s : Peers) : p ∉ (s.closePeer h p).2.live := by
  unfold Peers.closePeer
  split
  · simp
  · assumption

/-- A peer that is taken out and then closed has been retired. -/
theorem detach_closePeer (h : Host) {p : Peer} {s : Peers} (hp : p ∈ s.owned) :
    Shrinks s ((s.detach p).2.closePeer h p).2 := by
  have hd : s.detach p = (true, { s with
      owned := s.owned.erase p, distinct := s.distinct.erase p,
      members := s.members.erase p }) := if_pos hp
  have hlive : ∀ q ∈ ((s.detach p).2.closePeer h p).2.live, q ∈ s.live ∧ q ≠ p := by
    intro q hq
    have hmem := (closePeer h p (s.detach p).2).live q hq
    rw [hd] at hmem
    refine ⟨hmem, fun he => not_live_closePeer h p (s.detach p).2 (he ▸ hq)⟩
  have howned : ((s.detach p).2.closePeer h p).2.owned = s.owned.erase p := by
    rw [hd]
    unfold Peers.closePeer
    split <;> rfl
  refine ⟨?_, fun q hq => (hlive q hq).1, fun q hq hn hl => ?_, ?_⟩
  · rw [howned]
    exact List.erase_sublist
  · rw [howned] at hn
    exact hn ((List.mem_erase_of_ne (hlive q hl).2).mpr hq)
  · rw [hd]
    unfold Peers.closePeer
    split <;> rfl

end Shrinks

section Shrinking

variable {h : Host} {onClose : Peer → Code Peers Unit} {s₀ : Peers}

theorem closePeer_keeps (hcb : ∀ p, Keeps (Shrinks s₀) (onClose p)) (p : Peer) :
    Keeps (Shrinks s₀) (closePeer h (.whole Peers) onClose p) := by
  intro s hs
  have hshrink := hs.trans (.closePeer h p s)
  rw [closePeer_snd]
  split
  · exact hcb p _ hshrink
  · exact hshrink

theorem removeOwnedPeer_keeps (hcb : ∀ p, Keeps (Shrinks s₀) (onClose p)) (p : Option Peer) :
    Keeps (Shrinks s₀) (removeOwnedPeer h (.whole Peers) onClose p) := by
  cases p with
  | none => exact .pure _
  | some p =>
    intro s hs
    rw [removeOwnedPeer_snd]
    by_cases hp : p ∈ s.owned
    · have hshrink := hs.trans (.detach_closePeer h hp)
      rw [Part.whole_get, if_pos hp, closePeer_snd]
      split
      · exact hcb p _ hshrink
      · exact hshrink
    · rw [Part.whole_get, if_neg hp]
      exact hs

theorem closeLoop_keeps (hcb : ∀ p, Keeps (Shrinks s₀) (onClose p)) (fuel index : ℕ)
    (changed : Bool) : Keeps (Shrinks s₀) (closeLoop h (.whole Peers) onClose fuel index changed) := by
  induction fuel generalizing index changed with
  | zero => exact .halt _
  | succ fuel ih =>
    intro s hs
    rw [closeLoop_succ, Part.whole_get]
    cases s.owned[index]? with
    | none => exact hs
    | some p =>
      dsimp only
      have ht := closePeer_keeps (h := h) hcb p s hs
      revert ht
      rcases closePeer h (.whole Peers) onClose p s with ⟨_ | closed, t⟩
      · exact id
      · exact ih _ _ t

theorem Shrinks.of_closing {s t : Peers} {b : Bool} (hb : s.closingPeers = b)
    (h : Shrinks { s with closingPeers := true } t) : Shrinks s { t with closingPeers := b } :=
  ⟨h.owned, h.live, h.retired, hb.symm⟩

theorem closeOwnedPeers_keeps (hcb : ∀ s₀ p, Keeps (Shrinks s₀) (onClose p)) (fuel : ℕ) :
    Keeps (Shrinks s₀) (closeOwnedPeers h (.whole Peers) onClose fuel) := by
  intro s hs
  refine hs.trans ?_
  cases hc : s.closingPeers with
  | true =>
    rw [closeOwnedPeers_closing fuel hc]
    exact .refl s
  | false =>
    rw [closeOwnedPeers_outer fuel hc]
    have ht := closeLoop_keeps (h := h) (hcb { s with closingPeers := true }) fuel 0 false _ (.refl _)
    exact .of_closing hc ht

end Shrinking

/-- A handler of the system shrinks any collection it is run on. -/
theorem CloseHandlers.keeps {h : Host} {onClose : Peer → Code Peers Unit}
    (hcb : CloseHandlers h onClose) (s₀ : Peers) (p : Peer) : Keeps (Shrinks s₀) (onClose p) := by
  intro s hs
  refine hs.trans ((hcb.steps p s).within Shrinks.refl (fun _ _ _ => Shrinks.trans) ?_)
  intro o cb _ hstep t _
  have hkeeps (s₁ : Peers) (p : Peer) : Keeps (Shrinks s₁) (cb p) :=
    fun u hu => hu.trans (hstep p u)
  cases o with
  | removeOwnedPeer peer =>
    exact Keeps.bind (removeOwnedPeer_keeps (hkeeps t) peer) (fun _ => .pure ()) t (.refl t)
  | closePeer peer =>
    exact Keeps.bind (closePeer_keeps (hkeeps t) peer) (fun _ => .pure ()) t (.refl t)
  | closeOwnedPeers fuel =>
    exact Keeps.bind (closeOwnedPeers_keeps hkeeps fuel) (fun _ => .pure ()) t (.refl t)

/-- One turn of the loop: the slot, the peer in it, and the collection before
and after that peer was closed. -/
structure Visit where
  index : ℕ
  peer : Peer
  before : Peers
  after : Peers

namespace Visit

/-- The position the loop goes on with. -/
def next (v : Visit) : ℕ := if v.after.owned[v.index]? = some v.peer then v.index + 1 else v.index

/-- The peers that the position passes over: they were after it before the
visit, and are in front of it after the visit. -/
def skipped (v : Visit) : List Peer :=
  (v.after.owned.take v.next).filter fun p => p ∉ v.before.owned.take (v.index + 1)

end Visit

/-- The visits of a traversal, in order. -/
def visits (h : Host) (onClose : Peer → Code Peers Unit) : ℕ → ℕ → Peers → List Visit
  | 0, _, _ => []
  | fuel + 1, index, s =>
    match s.owned[index]? with
    | none => []
    | some peer =>
      let v : Visit := ⟨index, peer, s, (closePeer h (.whole Peers) onClose peer s).2⟩
      v :: visits h onClose fuel v.next v.after

section Traversal

variable {h : Host} {onClose : Peer → Code Peers Unit} {fuel index : ℕ} {changed : Bool}
variable {s : Peers} {p : Peer}

theorem closePeer_ok (hcb : CloseHandlers h onClose) (p : Peer) (s : Peers) :
    ∃ closed, closePeer h (.whole Peers) onClose p s =
      (.ok closed, (closePeer h (.whole Peers) onClose p s).2) := by
  simp only [closePeer, bind_run, Part.run_run, Part.whole_get, Part.whole_set]
  cases (s.closePeer h p).1 with
  | false => exact ⟨false, rfl⟩
  | true =>
    simp only [whenever_true]
    have hends := hcb.ends p (s.closePeer h p).2
    revert hends
    rcases onClose p (s.closePeer h p).2 with ⟨e | _, t⟩
    · exact fun hends => (hends e rfl).elim
    · exact fun _ => ⟨true, rfl⟩

/-- One turn of the loop, as a visit. -/
theorem closeLoop_visit (fuel : ℕ) (changed : Bool) (hcb : CloseHandlers h onClose)
    (hp : s.owned[index]? = some p) :
    ∃ v : Visit, v.index = index ∧ v.peer = p ∧ v.before = s ∧ Shrinks s v.after ∧
      p ∉ v.after.live ∧
      visits h onClose (fuel + 1) index s = v :: visits h onClose fuel v.next v.after ∧
      ∃ changed', closeLoop h (.whole Peers) onClose (fuel + 1) index changed s =
        closeLoop h (.whole Peers) onClose fuel v.next changed' v.after := by
  obtain ⟨closed, hc⟩ := closePeer_ok hcb p s
  have hkeeps := closePeer_keeps (h := h) (hcb.keeps s) p s (.refl s)
  have hlive : p ∉ (closePeer h (.whole Peers) onClose p s).2.live := by
    have hnot := Shrinks.not_live_closePeer h p s
    rw [closePeer_snd]
    split
    · exact fun hl => hnot ((hcb.keeps _ p _ (.refl _)).live p hl)
    · exact hnot
  refine ⟨⟨index, p, s, (closePeer h (.whole Peers) onClose p s).2⟩, rfl, rfl, rfl, hkeeps, hlive,
    ?_, closed || changed, ?_⟩
  · simp only [visits, hp]
  · rw [closeLoop_succ, Part.whole_get, hp]
    dsimp only
    rw [hc]
    rfl

theorem visits_none (hp : s.owned[index]? = none) : visits h onClose fuel index s = [] := by
  cases fuel with
  | zero => rfl
  | succ fuel => simp only [visits, hp]

theorem closeLoop_none (hp : s.owned[index]? = none) :
    closeLoop h (.whole Peers) onClose (fuel + 1) index changed s = (.ok changed, s) := by
  rw [closeLoop_succ, Part.whole_get, hp]

/-- A visit brings the end of the list nearer to the position. -/
theorem Visit.next_lt {v : Visit} (hs : Shrinks v.before v.after)
    (hp : v.before.owned[v.index]? = some v.peer) :
    v.after.owned.length - v.next < v.before.owned.length - v.index := by
  have hindex := (List.getElem?_eq_some_iff.mp hp).1
  have hle := hs.owned.length_le
  unfold Visit.next
  split
  · omega
  · rename_i hne
    have hlt : v.after.owned.length < v.before.owned.length := by
      rcases Nat.lt_or_ge v.after.owned.length v.before.owned.length with hlt | hge
      · exact hlt
      · exact absurd (hs.owned.eq_of_length_le hge ▸ hp) hne
    omega

/-- A later peer is closed by the visit, or is still after the position, or has
been skipped. -/
theorem Visit.reaches {v : Visit} (hs : Shrinks v.before v.after)
    (hp : v.before.owned[v.index]? = some v.peer) (hclosed : v.peer ∉ v.after.live)
    {q : Peer} (hq : q ∈ v.before.owned.drop v.index) (hl : q ∈ v.after.live) :
    q ∈ v.after.owned.drop v.next ∨ q ∈ v.skipped := by
  obtain ⟨hindex, hget⟩ := List.getElem?_eq_some_iff.mp hp
  have hmem : q ∈ v.before.owned := List.mem_of_mem_drop hq
  have hafter : q ∈ v.after.owned := by
    by_contra hn
    exact hs.retired q hmem hn hl
  have hlater : q ∈ v.before.owned.drop (v.index + 1) := by
    rw [List.drop_eq_getElem_cons hindex, hget, List.mem_cons] at hq
    rcases hq with rfl | hq
    · exact absurd hl hclosed
    · exact hq
  have hnot : q ∉ v.before.owned.take (v.index + 1) := by
    have hnodup := v.before.distinct
    rw [← List.take_append_drop (v.index + 1) v.before.owned] at hnodup
    exact fun ht => (List.nodup_append.mp hnodup).2.2 q ht q hlater rfl
  rw [← List.take_append_drop v.next v.after.owned, List.mem_append] at hafter
  rcases hafter with ht | hd
  · exact Or.inr (List.mem_filter.mpr ⟨ht, by simpa using hnot⟩)
  · exact Or.inl hd

/-- The loop ends, and leaves no more peers live than any visit left. -/
theorem closeLoop_ends (changed : Bool) (hcb : CloseHandlers h onClose)
    (hfuel : s.owned.length - index < fuel) :
    ∃ changed' t, closeLoop h (.whole Peers) onClose fuel index changed s = (.ok changed', t) ∧
      Shrinks s t ∧ (∀ v ∈ visits h onClose fuel index s, ∀ q ∈ t.live, q ∈ v.after.live) ∧
      ∀ q ∈ s.live, q ∉ t.live →
        ∃ w ∈ visits h onClose fuel index s, q ∈ w.before.live ∧ q ∉ w.after.live := by
  induction fuel generalizing index changed s with
  | zero => omega
  | succ fuel ih =>
    cases hp : s.owned[index]? with
    | none =>
      rw [closeLoop_none hp, visits_none hp]
      exact ⟨changed, s, rfl, .refl s, by simp, fun q hq hn => absurd hq hn⟩
    | some p =>
      obtain ⟨v, rfl, rfl, rfl, hs, hclosed, hvisits, changed', hloop⟩ :=
        closeLoop_visit fuel changed hcb hp
      have hnext := v.next_lt hs hp
      obtain ⟨c, t, ht, hst, hkept, hlost⟩ :=
        @ih v.next v.after changed' (by omega)
      rw [hloop, hvisits]
      refine ⟨c, t, ht, hs.trans hst, ?_, fun q hq hn => ?_⟩
      · intro w hw q hq
        rcases List.mem_cons.mp hw with rfl | hw
        · exact hst.live q hq
        · exact hkept w hw q hq
      · by_cases ha : q ∈ v.after.live
        · obtain ⟨w, hw, hbefore, hafter⟩ := hlost q ha hn
          exact ⟨w, List.mem_cons_of_mem _ hw, hbefore, hafter⟩
        · exact ⟨v, List.mem_cons_self, hq, ha⟩

/-- Every live peer that a visit skips is closed in a later visit. -/
def Rescued (vs : List Visit) : Prop :=
  ∀ pre v post, vs = pre ++ v :: post → ∀ p ∈ v.skipped, p ∈ v.after.live →
    ∃ w ∈ post, p ∈ w.before.live ∧ p ∉ w.after.live

theorem Rescued.tail {v : Visit} {vs : List Visit} (hr : Rescued (v :: vs)) : Rescued vs := by
  intro pre w post he
  exact hr (v :: pre) w post (by rw [he]; rfl)

theorem closeLoop_closes (hcb : CloseHandlers h onClose) (hfuel : s.owned.length - index < fuel)
    {changed' : Bool} {t : Peers}
    (ht : closeLoop h (.whole Peers) onClose fuel index changed s = (.ok changed', t))
    (hr : Rescued (visits h onClose fuel index s)) (q : Peer) (hq : q ∈ s.owned.drop index) :
    q ∉ t.live := by
  induction fuel generalizing index changed s with
  | zero => omega
  | succ fuel ih =>
    cases hp : s.owned[index]? with
    | none =>
      rw [List.drop_eq_nil_of_le (List.getElem?_eq_none_iff.mp hp)] at hq
      cases hq
    | some p =>
      obtain ⟨v, rfl, rfl, rfl, hs, hclosed, hvisits, changed'', hloop⟩ :=
        closeLoop_visit fuel changed hcb hp
      have hnext := v.next_lt hs hp
      have hfuel' : v.after.owned.length - v.next < fuel := by omega
      rw [hloop] at ht
      rw [hvisits] at hr
      obtain ⟨c, t', ht', hst, hkept, -⟩ :=
        closeLoop_ends changed'' hcb hfuel'
      obtain rfl : t' = t := (Prod.mk.inj (ht'.symm.trans ht)).2
      intro hl
      rcases v.reaches hs hp hclosed hq (hst.live q hl) with hd | hskip
      · exact ih hfuel' ht hr.tail hd hl
      · obtain ⟨w, hw, -, hafter⟩ := hr [] v _ rfl q hskip (hst.live q hl)
        exact hafter (hkept w hw q hl)

theorem closeLoop_rescued (hcb : CloseHandlers h onClose) (hfuel : s.owned.length - index < fuel)
    {changed' : Bool} {t : Peers}
    (ht : closeLoop h (.whole Peers) onClose fuel index changed s = (.ok changed', t))
    (hall : ∀ q ∈ s.owned, q ∉ t.live) : Rescued (visits h onClose fuel index s) := by
  induction fuel generalizing index changed s with
  | zero => omega
  | succ fuel ih =>
    cases hp : s.owned[index]? with
    | none =>
      rw [visits_none hp]
      intro pre v post he
      simp at he
    | some p =>
      obtain ⟨v, rfl, rfl, rfl, hs, hclosed, hvisits, changed'', hloop⟩ :=
        closeLoop_visit fuel changed hcb hp
      have hnext := v.next_lt hs hp
      have hfuel' : v.after.owned.length - v.next < fuel := by omega
      rw [hloop] at ht
      obtain ⟨c, t', ht', hst, -, hlost⟩ :=
        closeLoop_ends changed'' hcb hfuel'
      obtain rfl : t' = t := (Prod.mk.inj (ht'.symm.trans ht)).2
      have hrest := ih hfuel' ht fun q hq => hall q (hs.owned.subset hq)
      rw [hvisits]
      intro pre w post he q hq hl
      cases pre with
      | nil =>
        obtain ⟨rfl, rfl⟩ := List.cons.inj he
        have hmem : q ∈ v.before.owned :=
          hs.owned.subset (List.mem_of_mem_take (List.mem_of_mem_filter hq))
        exact hlost q hl (hall q hmem)
      | cons u pre =>
        exact hrest pre w post (List.cons.inj he).2 q hq hl

end Traversal

/-- Every peer owned before has been retired or closed, and none is left open. -/
def Settled (s t : Peers) : Prop :=
  (∀ p ∈ s.owned, p ∉ t.owned ∨ p ∉ t.live) ∧ ∀ p ∈ s.owned, p ∉ t.live

/-- An outermost traversal returns, and it settles every peer exactly when
each live peer that its position passes over is closed in a later visit. -/
theorem closeOwnedPeers_settles_iff (h : Host) (onClose : Peer → Code Peers Unit)
    (hcb : CloseHandlers h onClose) (s : Peers) (houter : s.closingPeers = false) (fuel : ℕ)
    (hfuel : s.owned.length < fuel) :
    ∃ changed t, closeOwnedPeers h (.whole Peers) onClose fuel s = (.ok changed, t) ∧
      (Settled s t ↔ Rescued (visits h onClose fuel 0 { s with closingPeers := true })) := by
  obtain ⟨c, t, ht, hst, -⟩ := closeLoop_ends (h := h) (s := { s with closingPeers := true }) false hcb
    (show s.owned.length - 0 < fuel from hfuel)
  have hrun : closeOwnedPeers h (.whole Peers) onClose fuel s =
      (.ok c, { t with closingPeers := false }) := by
    rw [closeOwnedPeers_outer fuel houter, Code.atExit]
    simp only [Part.whole_get, Part.whole_set, ht]
  refine ⟨c, _, hrun, fun hs => ?_, fun hr => ?_⟩
  · exact closeLoop_rescued hcb hfuel ht hs.2
  · have hall (q : Peer) (hq : q ∈ s.owned) : q ∉ t.live :=
      closeLoop_closes hcb hfuel ht hr q (by simpa using hq)
    exact ⟨fun q hq => Or.inr (hall q hq), hall⟩

theorem removeOwnedPeer_idle_ok (h : Host) (p : Option Peer) (t : Peers) (e : Halt) :
    ((peerSystem h).exec (fun _ => pure ()) (.removeOwnedPeer p) t).1 ≠ .error e := by
  cases p with
  | none => exact fun he => by cases he
  | some p =>
    obtain ⟨closed, hc⟩ := closePeer_ok (.idle (peerSystem h) _ _) p (t.detach p).2
    simp only [peerSystem, removeOwnedPeer, bind_run, Part.run_run, Part.whole_get,
      Part.whole_set]
    cases (t.detach p).1 with
    | false => exact fun he => by cases he
    | true =>
      rw [if_pos rfl, bind_run, hc]
      exact fun he => by cases he

/-- The close handler of peer 2 retires peers 1 and 2. -/
def retireTwo : Peer → Code Peers Unit := fun p =>
  script (peerSystem .steady)
    (if p = 2 then [.removeOwnedPeer (some 1), .removeOwnedPeer (some 2)] else [])

theorem retireTwo_real : CloseHandlers .steady retireTwo := by
  refine .script (fun _ _ _ _ => trivial) fun n o ho t e he => ?_
  by_cases hn : n = 2
  · rw [if_pos hn] at ho
    rcases List.mem_pair.mp ho with rfl | rfl <;>
      exact removeOwnedPeer_idle_ok .steady _ t e he
  · rw [if_neg hn] at ho
    cases ho

def threePeers : Peers := { owned := [1, 2, 3], members := [1, 2, 3], live := [1, 2, 3] }

/-- Peers 1 and 2 leave while the position is at peer 2, so it passes over peer 3. -/
theorem closeOwnedPeers_misses_peer : ¬ ∀ (h : Host) (onClose : Peer → Code Peers Unit),
    CloseHandlers h onClose → ∀ s : Peers, s.closingPeers = false →
      ∀ fuel, s.owned.length < fuel →
        Settled s (closeOwnedPeers h (.whole Peers) onClose fuel s).2 := by
  intro hall
  have hs := hall .steady retireTwo retireTwo_real threePeers rfl 4 (by decide)
  exact hs.2 3 (by decide) (by decide +kernel)

theorem closeOwnedPeers_settles_iff_three :
    ∃ changed t, closeOwnedPeers .steady (.whole Peers) retireTwo 4 threePeers = (.ok changed, t) ∧
      (Settled threePeers t ↔
        Rescued (visits .steady retireTwo 4 0 { threePeers with closingPeers := true })) :=
  closeOwnedPeers_settles_iff .steady retireTwo retireTwo_real threePeers rfl 4 (by decide)

end Aeon
