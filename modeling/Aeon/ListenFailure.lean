import Aeon.Listener
import Aeon.Library.Reentrant

/-!
# What a failed `listen` does to the owned peers

`tcp_listen` closes the listener before it has a new descriptor, and the virtual
`close` closes every owned peer.  So a failed rebind has closed them already.
-/

namespace Aeon

open Program Code

/-- The peers after a traversal whose handlers leave them alone: all owned ones
are closed, unless a traversal was under way. -/
structure AllClosed (s t : Peers) : Prop where
  owned : t.owned = s.owned
  closing : t.closingPeers = s.closingPeers
  live : t.live = if s.closingPeers then s.live else s.live.filter (· ∉ s.owned)

/-- Every owned peer is still owned, and open if and only if it was. -/
def PeersKept (s t : Peers) : Prop :=
  t.owned = s.owned ∧ ∀ p ∈ s.owned, p ∈ t.live ↔ p ∈ s.live

theorem PeersKept.refl (s : Peers) : PeersKept s s := ⟨rfl, fun _ _ => Iff.rfl⟩

namespace AllClosed

variable {s t u : Peers}

theorem trans (h : AllClosed s t) (h' : AllClosed t u) : AllClosed s u where
  owned := h'.owned.trans h.owned
  closing := h'.closing.trans h.closing
  live := by
    rw [h'.live, h.closing, h.live, h.owned]
    cases s.closingPeers with
    | true => rfl
    | false => simp [List.filter_filter]

/-- A traversal keeps the peers exactly when it has none to close. -/
theorem kept_iff (h : AllClosed s t) :
    PeersKept s t ↔ s.closingPeers = true ∨ ∀ p ∈ s.owned, p ∉ s.live := by
  have hlive := h.live
  cases hc : s.closingPeers with
  | true =>
    rw [hc, if_pos rfl] at hlive
    exact ⟨fun _ => Or.inl rfl, fun _ => ⟨h.owned, fun p _ => by rw [hlive]⟩⟩
  | false =>
    rw [hc, if_neg Bool.false_ne_true] at hlive
    have hnot (p : Peer) (hp : p ∈ s.owned) : p ∉ t.live := by
      rw [hlive]
      simp [hp]
    refine ⟨fun hk => Or.inr fun p hp hl => hnot p hp ((hk.2 p hp).mpr hl), ?_⟩
    rintro (hc | hn)
    · cases hc
    · exact ⟨h.owned, fun p hp => ⟨fun hl => absurd hl (hnot p hp), fun hl => absurd hl (hn p hp)⟩⟩

end AllClosed

section Quiet

variable {σ : Type} {h : Host} {peers : Part σ Peers} {onClose : Peer → Code σ Unit}

theorem closePeer_quiet (hquiet : ∀ p s, peers.get (onClose p s).2 = peers.get s) (p : Peer)
    (s : σ) : peers.get (closePeer h peers onClose p s).2 = ((peers.get s).closePeer h p).2 := by
  rw [closePeer_snd]
  split
  · rw [hquiet, peers.get_set]
  · rw [peers.get_set]

theorem Peers.closePeer_owned (p : Peer) (s : Peers) : (s.closePeer h p).2.owned = s.owned := by
  unfold Peers.closePeer
  split <;> rfl

theorem Peers.closePeer_closing (p : Peer) (s : Peers) :
    (s.closePeer h p).2.closingPeers = s.closingPeers := by
  unfold Peers.closePeer
  split <;> rfl

theorem Peers.closePeer_live (p : Peer) (s : Peers) :
    (s.closePeer h p).2.live = s.live.filter (· ≠ p) := by
  unfold Peers.closePeer
  split
  · rfl
  · rename_i hp
    refine (List.filter_eq_self.mpr fun q hq => ?_).symm
    have hne : q ≠ p := fun he => hp (he ▸ hq)
    simpa using hne

theorem closeLoop_quiet (hquiet : ∀ p s, peers.get (onClose p s).2 = peers.get s)
    {fuel index : ℕ} {changed b : Bool} {s t : σ}
    (ht : closeLoop h peers onClose fuel index changed s = (.ok b, t)) :
    (peers.get t).owned = (peers.get s).owned ∧
      (peers.get t).closingPeers = (peers.get s).closingPeers ∧
      (peers.get t).live = (peers.get s).live.filter (· ∉ (peers.get s).owned.drop index) := by
  induction fuel generalizing index changed s with
  | zero => cases ht
  | succ fuel ih =>
    rw [closeLoop_succ] at ht
    cases hp : (peers.get s).owned[index]? with
    | none =>
      rw [hp] at ht
      obtain rfl := (Prod.mk.inj ht).2
      rw [List.drop_eq_nil_of_le (List.getElem?_eq_none_iff.mp hp)]
      exact ⟨rfl, rfl, by simp⟩
    | some p =>
      rw [hp] at ht
      dsimp only at ht
      have hclose := closePeer_quiet (h := h) hquiet p s
      rcases hr : closePeer h peers onClose p s with ⟨e | closed, u⟩
      · rw [hr] at ht
        cases ht
      · rw [hr] at ht hclose
        dsimp only at ht hclose
        have howned : (peers.get u).owned = (peers.get s).owned := by
          rw [hclose, Peers.closePeer_owned]
        rw [howned, hp, if_pos rfl] at ht
        obtain ⟨hto, htc, htl⟩ := ih ht
        obtain ⟨hindex, hget⟩ := List.getElem?_eq_some_iff.mp hp
        refine ⟨hto.trans howned, ?_, ?_⟩
        · rw [htc, hclose, Peers.closePeer_closing]
        · rw [htl, howned, hclose, Peers.closePeer_live, List.filter_filter,
            List.drop_eq_getElem_cons hindex, hget]
          refine List.filter_congr fun q _ => ?_
          simp [Bool.and_comm]

theorem closeOwnedPeers_quiet (peers : Part σ Peers)
    (hquiet : ∀ p s, peers.get (onClose p s).2 = peers.get s)
    {fuel : ℕ} {b : Bool} {s t : σ}
    (ht : closeOwnedPeers h peers onClose fuel s = (.ok b, t)) :
    AllClosed (peers.get s) (peers.get t) := by
  cases hc : (peers.get s).closingPeers with
  | true =>
    rw [closeOwnedPeers_closing fuel hc] at ht
    obtain rfl := (Prod.mk.inj ht).2
    exact ⟨rfl, rfl, by rw [hc, if_pos rfl]⟩
  | false =>
    rw [closeOwnedPeers_outer fuel hc, Code.atExit] at ht
    obtain ⟨hb, rfl⟩ := Prod.mk.inj ht
    obtain ⟨ho, -, hl⟩ := closeLoop_quiet hquiet (Prod.ext hb rfl)
    rw [peers.get_set] at ho hl
    refine ⟨?_, ?_, ?_⟩ <;> rw [peers.get_set]
    · exact ho
    · exact hc.symm
    · rw [hc, if_neg Bool.false_ne_true]
      simpa using hl

end Quiet

/-- Handlers that do not retire or close a peer themselves. -/
def QuietHandlers (cb : ListenerNote → Code Listener Unit) : Prop :=
  ∀ n l, (cb n l).2.peers = l.peers

section Listen

variable {h : Host} {cb : ListenerNote → Code Listener Unit} {fuel : ℕ} {P : Peers}

/-- Peers that nothing has touched since `P`, or that a traversal has closed. -/
def Untouched (P : Peers) (l : Listener) : Prop := l.peers = P ∨ AllClosed P l.peers

def Emptied (P : Peers) (l : Listener) : Prop := AllClosed P l.peers

/-- A return leaves the listener in `Q`; a halt is of no interest here. -/
abbrev Returns {α : Type} (Q₀ : Listener → Prop) (m : Code Listener α)
    (Q : α → Listener → Prop) : Prop := Triple Q₀ m Q fun _ _ => True

theorem closePeers_empties (hq : QuietHandlers cb) :
    Returns (Untouched P) (Listener.closePeers h cb fuel) fun _ => Emptied P := by
  intro l hl
  have hclosed {b : Bool} {t : Listener}
      (ht : Listener.closePeers h cb fuel l = (.ok b, t)) : AllClosed l.peers t.peers :=
    closeOwnedPeers_quiet Listener.peersPart (fun p s => hq (.peerClosed p) s) ht
  rcases hr : Listener.closePeers h cb fuel l with ⟨e | b, t⟩
  · trivial
  · rcases hl with rfl | hl
    · exact hclosed hr
    · exact hl.trans (hclosed hr)

theorem socketPart_keeps {α : Type} {I : Peers → Prop} (f : Socket → α × Socket) :
    Returns (fun l => I l.peers) (Listener.socketPart.run f) fun _ l => I l.peers :=
  fun _ hl => hl

theorem eventPart_keeps {α : Type} {I : Peers → Prop} (f : EventSocket → α × EventSocket) :
    Returns (fun l => I l.peers) (Listener.eventPart.run f) fun _ l => I l.peers :=
  fun _ hl => hl

theorem handler_keeps (hq : QuietHandlers cb) {I : Peers → Prop} (n : ListenerNote) :
    Returns (fun l => I l.peers) (cb n) fun _ l => I l.peers := by
  intro l hl
  have hp := hq n l
  rcases hr : cb n l with ⟨e | _, t⟩
  · trivial
  · rw [hr] at hp
    dsimp only at hp ⊢
    rwa [hp]

theorem serverSocket_close_empties (hq : QuietHandlers cb) :
    Returns (Untouched P) (ServerSocket.close h cb fuel) fun _ => Emptied P :=
  (socketPart_keeps (I := fun p => p = P ∨ AllClosed P p) _).bind fun _ =>
    (closePeers_empties hq).bind fun _ => .ret fun _ => id

theorem serverEventSocket_close_empties (hq : QuietHandlers cb) :
    Returns (Untouched P) (ServerEventSocket.close h cb fuel) fun _ => Emptied P := by
  have hevent : Returns (Untouched P) (ServerEventSocket.closeEvent h cb) fun _ => Untouched P :=
    (eventPart_keeps (I := fun p => p = P ∨ AllClosed P p) _).bind fun closed =>
      (Triple.whenever (fun _ => handler_keeps hq (I := fun p => p = P ∨ AllClosed P p) _)
        fun _ _ => id).bind fun _ => .ret fun _ => id
  exact hevent.bind fun _ => (closePeers_empties hq).bind fun _ => .ret fun _ => id

theorem tcpListen_rejected {close : Code Listener Bool} {ip : Option String} {port : Int}
    (ht : listenTarget h ip port = none) :
    Returns (fun l => l.peers = P) (tcpListen h ⟨Listener.socketPart.run, close⟩ ip port)
      fun ok l => ok = false ∧ l.peers = P := by
  unfold tcpListen
  rw [ht]
  dsimp only
  refine (socketPart_keeps (I := fun p => p = P) _).bind fun _ => .ret fun l hl => ?_
  exact ⟨rfl, hl⟩

/-- From its own `close` on, `tcp_listen` has emptied the peers, whatever it returns. -/
theorem tcpListen_empties {close : Code Listener Bool} {ip : Option String} {port : Int}
    (hclose : Returns (Untouched P) close fun _ => Emptied P) (ht : listenTarget h ip port ≠ none) :
    Returns (Untouched P) (tcpListen h ⟨Listener.socketPart.run, close⟩ ip port)
      fun _ => Emptied P := by
  obtain ⟨family, hf⟩ := Option.ne_none_iff_exists'.mp ht
  have hagain : Returns (Emptied P) close fun _ => Emptied P := hclose.pre fun _ => Or.inr
  have hrun {α : Type} (f : Socket → α × Socket) :
      Returns (Emptied P) (Listener.socketPart.run f) fun _ => Emptied P :=
    socketPart_keeps (I := AllClosed P) f
  unfold tcpListen
  rw [hf]
  dsimp only
  refine hclose.bind fun _ => (hrun _).bind fun made => ?_
  refine .ite (fun _ => .ret fun _ => id) fun _ => ?_
  refine (hrun _).bind fun _ => (hrun _).bind fun bound => ?_
  refine .ite (fun _ => hagain.bind fun _ => .ret fun _ => id) fun _ => ?_
  refine (hrun _).bind fun listening => ?_
  exact .ite (fun _ => hagain.bind fun _ => .ret fun _ => id) fun _ => .ret fun _ => id

theorem listen_rejected (cb : ListenerNote → Code Listener Unit) (fuel : ℕ) (c : ListenerClass)
    {ip : Option String} {port : Int}
    (ht : listenTarget h ip port = none) :
    Returns (fun l => l.peers = P) (c.listen h cb fuel ip port) fun _ l => l.peers = P := by
  cases c with
  | serverSocket =>
    refine (tcpListen_rejected ht).bind fun ok => .ite (fun hok => ?_) fun _ => .ret fun _ hl => hl.2
    exact fun l hl => absurd hl.1 (by rw [hok]; decide)
  | serverEventSocket =>
    refine (tcpListen_rejected ht).bind fun ok => .ite (fun _ => .ret fun _ hl => hl.2) fun hok => ?_
    exact fun l hl => absurd hl.1 (by simpa using hok)

theorem listen_empties (fuel : ℕ) (c : ListenerClass) (hq : QuietHandlers cb) {ip : Option String}
    {port : Int} (ht : listenTarget h ip port ≠ none) :
    Returns (Untouched P) (c.listen h cb fuel ip port) fun _ => Emptied P := by
  have hclosed : Returns (Emptied P) (Listener.closePeers h cb fuel) fun _ => Emptied P :=
    (closePeers_empties hq).pre fun _ => Or.inr
  have hrun {α : Type} (f : Socket → α × Socket) :
      Returns (Emptied P) (Listener.socketPart.run f) fun _ => Emptied P :=
    socketPart_keeps (I := AllClosed P) f
  cases c with
  | serverSocket =>
    refine (tcpListen_empties (serverSocket_close_empties hq) ht).bind fun ok => ?_
    exact .ite (fun _ => hclosed.bind fun _ => .ret fun _ => id) fun _ => .ret fun _ => id
  | serverEventSocket =>
    refine (tcpListen_empties (serverEventSocket_close_empties hq) ht).bind fun ok => ?_
    refine .ite (fun _ => .ret fun _ => id) fun _ => hclosed.bind fun _ => (hrun _).bind fun set => ?_
    refine .ite (fun _ => (hrun _).bind fun _ => .ret fun _ => id) fun _ => ?_
    exact (handler_keeps hq (I := AllClosed P) _).bind fun _ => .ret fun _ => id

end Listen

/-- A `listen` that returns false has left every owned peer as it was exactly
when its arguments were rejected, a traversal was under way, or no owned peer
was open. -/
theorem listen_failed_keeps_iff (c : ListenerClass) (h : Host)
    (cb : ListenerNote → Code Listener Unit) (hq : QuietHandlers cb) (fuel : ℕ)
    (ip : Option String) (port : Int) (l l' : Listener)
    (hfail : c.listen h cb fuel ip port l = (.ok false, l')) :
    PeersKept l.peers l'.peers ↔ listenTarget h ip port = none ∨ l.peers.closingPeers = true ∨
      ∀ p ∈ l.peers.owned, p ∉ l.peers.live := by
  by_cases ht : listenTarget h ip port = none
  · have hl := listen_rejected cb fuel c ht l (P := l.peers) rfl
    rw [hfail] at hl
    have hp : l'.peers = l.peers := hl
    exact ⟨fun _ => Or.inl ht, fun _ => hp ▸ .refl l.peers⟩
  · have hl := listen_empties fuel c hq ht l (P := l.peers) (Or.inl rfl)
    rw [hfail] at hl
    have hclosed : AllClosed l.peers l'.peers := hl
    rw [hclosed.kept_iff]
    exact ⟨Or.inr, fun hr => hr.resolve_left ht⟩

/-- The address that the listener is to bind is in use. -/
def addressInUse : Host := { Host.steady with bind := fun _ => Errno.EADDRINUSE }

/-- A listening object with one accepted peer. -/
def onePeer : Listener where
  sockfd := some 3
  connected := true
  peers := { owned := [1], members := [1], live := [1] }

def idle : ListenerNote → Code Listener Unit := fun _ => pure ()

theorem idle_quiet : QuietHandlers idle := fun _ _ => rfl

def failedListen (c : ListenerClass) : Listener :=
  (c.listen addressInUse idle 2 (some "127.0.0.1") 80 onePeer).2

theorem failedListen_eq (c : ListenerClass) :
    c.listen addressInUse idle 2 (some "127.0.0.1") 80 onePeer = (.ok false, failedListen c) := by
  cases c <;> rfl

theorem listen_failed_closes_peer : ¬ ∀ (c : ListenerClass) (h : Host)
    (cb : ListenerNote → Code Listener Unit), QuietHandlers cb → ∀ (fuel : ℕ)
    (ip : Option String) (port : Int) (l l' : Listener), l.peers.owned.length < fuel →
      c.listen h cb fuel ip port l = (.ok false, l') → PeersKept l.peers l'.peers := by
  intro hall
  have hk := hall .serverSocket addressInUse idle idle_quiet 2 (some "127.0.0.1") 80 onePeer
    (failedListen .serverSocket) (by decide) (failedListen_eq _)
  have hlive := (hk.2 1 (by decide)).mpr (by decide)
  exact absurd hlive (by decide)

theorem listen_failed_keeps_iff_onePeer :
    PeersKept onePeer.peers (failedListen .serverEventSocket).peers ↔
      listenTarget addressInUse (some "127.0.0.1") 80 = none ∨ onePeer.peers.closingPeers = true ∨
        ∀ p ∈ onePeer.peers.owned, p ∉ onePeer.peers.live :=
  listen_failed_keeps_iff .serverEventSocket addressInUse idle idle_quiet 2 (some "127.0.0.1") 80
    onePeer (failedListen .serverEventSocket) (failedListen_eq _)

end Aeon
