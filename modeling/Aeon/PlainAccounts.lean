import Aeon.PlainWorld
import Aeon.UdpReads
import Aeon.Library.History
import Mathlib.Algebra.BigOperators.Group.Multiset.Basic
import Mathlib.Data.List.Induction

/-!
# Every descriptor of the socket classes without handlers

Each function of one object hands on what it finds: the descriptors that were
obtained and not closed are, after it, those that objects hold.  Between the
native accept and the object of the peer one more is on its way.
-/

namespace Aeon

open Program Socket

namespace Socket

/-- From `s` to `t` every descriptor is accounted for, and none was lost. -/
def Conserves (s t : Socket) : Prop := ∃ es, t.log = s.log ++ es ∧ Handles s.held es t.held

variable {h : Host} {s t u : Socket} {α : Type}

theorem Conserves.same (hlog : t.log = s.log) (hfd : t.sockfd = s.sockfd) : Conserves s t := by
  have hheld : t.held = s.held := by rw [held, hfd, held]
  exact ⟨[], by rw [hlog, List.append_nil], by rw [hheld]; exact .nil _⟩

theorem Conserves.trans (h₁ : Conserves s t) (h₂ : Conserves t u) : Conserves s u := by
  obtain ⟨es, hlog, hes⟩ := h₁
  obtain ⟨es', hlog', hes'⟩ := h₂
  exact ⟨es ++ es', by rw [hlog', hlog, List.append_assoc], hes.append hes'⟩

theorem Unopened.conserves {f : Socket → α × Socket} (hf : Unopened f) (s : Socket) :
    Conserves s (f s).2 := .same (hf s).1 (hf s).2

theorem close_conserves (h : Host) (s : Socket) : Conserves s (s.close h).2 := by
  cases hfd : s.sockfd with
  | none =>
    rw [close_none hfd]
    exact .same rfl rfl
  | some fd =>
    refine ⟨[.closed fd], close_log hfd, ?_⟩
    rw [held_eq, held_eq, close_sockfd, hfd]
    show Handles (fd ::ₘ 0) [.closed fd] 0
    exact .release fd rfl (.nil 0)

theorem Creates.conserves {family : Family} {f : Socket → Bool × Socket} (hf : Creates h family f)
    (hs : s.sockfd = none) : Conserves s (f s).2 := by
  obtain ⟨hfd, hlog⟩ := create_log h family s
  have hnone : s.held = 0 := by rw [held, hs]; rfl
  refine ⟨_, (hf s).1.trans hlog, ?_⟩
  rw [hnone, held_eq, (hf s).2, hfd, hs]
  cases h.socket s.tick with
  | none => exact .nil 0
  | some fd => exact .acquire fd rfl (.nil _)

theorem tcpAccept_sockfd (h : Host) (timeoutMs : Int) (s : Socket) :
    (s.tcpAccept h timeoutMs).2.sockfd = s.sockfd := by
  have hwait : (if timeoutMs > 0 then s.ticked else s).sockfd = s.sockfd := by split <;> rfl
  unfold tcpAccept
  split
  · rfl
  · dsimp only
    generalize (if timeoutMs > 0 then s.ticked else s) = t at hwait ⊢
    generalize (if timeoutMs > 0 then h.select s.tick else ⟨1, 0⟩) = ready
    split
    · exact hwait
    · split
      · exact hwait
      · split
        · split <;> exact hwait
        · split <;> exact hwait

/-- The native accept gives one descriptor more than the listener holds. -/
theorem tcpAccept_leaves (h : Host) (timeoutMs : Int) (s : Socket) :
    ∃ es, (s.tcpAccept h timeoutMs).2.log = s.log ++ es ∧ Handles s.held es
      ((s.tcpAccept h timeoutMs).2.held + (s.tcpAccept h timeoutMs).1.toList) := by
  have hnative := tcpAccept_native h timeoutMs s
  have hheld : (s.tcpAccept h timeoutMs).2.held = s.held := by
    rw [held, tcpAccept_sockfd, held]
  rw [hheld]
  cases hr : (s.tcpAccept h timeoutMs).1 with
  | none =>
    rw [Option.toList_none, Multiset.coe_nil, Multiset.add_zero]
    rcases hnative.none hr with hlog | ⟨fd, hlog⟩
    · exact ⟨[], by rw [hlog, List.append_nil], .nil _⟩
    · exact ⟨_, hlog, .acquire fd rfl (.release fd rfl (.nil _))⟩
  | some fd =>
    refine ⟨_, hnative.some fd hr, ?_⟩
    rw [Multiset.add_comm]
    exact .acquire fd rfl (.nil _)

theorem adopt_handles (h : Host) (tick fd : ℕ) :
    Handles {fd} (adopt h tick fd).log (adopt h tick fd).held := by
  unfold adopt
  dsimp only
  split <;> exact .nil _

theorem construct_handles (h : Host) (tick : ℕ) :
    Handles 0 (construct h tick).log (construct h tick).held := by
  unfold construct
  cases h.socket tick with
  | none => exact .nil 0
  | some fd =>
    dsimp only
    split <;> exact .acquire fd rfl (.nil _)

end Socket

/-- What an object that may be gone holds. -/
def heldBy (o : Option PlainObject) : Multiset ℕ := o.elim 0 (·.base.held)

/-- The descriptors that the objects of a list hold. -/
def openIn (objects : List (Option PlainObject)) : Multiset ℕ := (objects.map heldBy).sum

theorem openIn_cons (o : Option PlainObject) (objects : List (Option PlainObject)) :
    openIn (o :: objects) = heldBy o + openIn objects := by
  rw [openIn, List.map_cons, List.sum_cons, openIn]

theorem openIn_snoc (o : PlainObject) (objects : List (Option PlainObject)) :
    openIn (objects ++ [some o]) = openIn objects + o.base.held := by
  simp [openIn, heldBy]

/-- The descriptors of the other objects, whatever takes the place of one. -/
theorem openIn_set {objects : List (Option PlainObject)} {id : ℕ} {o : PlainObject}
    (ho : objects.getD id none = some o) :
    ∃ rest, openIn objects = o.base.held + rest ∧
      ∀ x, openIn (objects.set id x) = heldBy x + rest := by
  induction objects generalizing id with
  | nil => simp at ho
  | cons x objects ih =>
    cases id with
    | zero =>
      obtain rfl : x = some o := ho
      exact ⟨openIn objects, openIn_cons _ _, fun y => openIn_cons _ _⟩
    | succ id =>
      have hother : objects.getD id none = some o := by simpa using ho
      obtain ⟨rest, hrest, hset⟩ := ih hother
      refine ⟨heldBy x + rest, ?_, fun y => ?_⟩
      · rw [openIn_cons, hrest, add_left_comm]
      · rw [List.set_cons_succ, openIn_cons, hset, add_left_comm]

theorem openIn_set_none {objects : List (Option PlainObject)} {id : ℕ}
    (ho : objects.getD id none = none) : openIn (objects.set id none) = openIn objects := by
  induction objects generalizing id with
  | nil => rfl
  | cons x objects ih =>
    cases id with
    | zero =>
      obtain rfl : x = none := ho
      rfl
    | succ id => rw [List.set_cons_succ, openIn_cons, openIn_cons, ih (by simpa using ho)]

namespace PlainObject

theorem withBase_base (t : Socket) (o : PlainObject) : (o.withBase t).base = t := by
  cases o <;> rfl

end PlainObject

namespace PlainWorld

variable {α : Type} {h : UdpHost} {id : ℕ} {a : Multiset ℕ} {w : PlainWorld}

/-- What was obtained and not closed is held by an object, or is in `a`. -/
def Settled (a : Multiset ℕ) (w : PlainWorld) : Prop := Handles 0 w.log (openIn w.objects + a)

/-- The object, if there is one, is closed. -/
def ClosedAt (id : ℕ) (w : PlainWorld) : Prop := ∀ o, w.find id = some o → o.base.sockfd = none

structure Shut (id : ℕ) (a : Multiset ℕ) (w : PlainWorld) : Prop where
  settled : Settled a w
  closed : ClosedAt id w

theorem lend_base (w : PlainWorld) (o : PlainObject) :
    (w.lend o).base = { o.base with tick := w.tick, log := w.log } :=
  PlainObject.withBase_base _ o

/-- One object changes, and hands on its descriptors, of which `b` leave it. -/
theorem Settled.store (hs : Settled a w) {o o' : PlainObject} (ho : w.find id = some o)
    {b : Multiset ℕ} {es : List Event} (hlog : o'.base.log = (w.lend o).base.log ++ es)
    (hes : Handles (w.lend o).base.held es (o'.base.held + b)) :
    Settled (b + a) (w.store id o') := by
  obtain ⟨rest, hrest, hset⟩ := openIn_set ho
  rw [lend_base] at hlog hes
  have hbefore : Handles 0 w.log (o.base.held + (rest + a)) := by
    rwa [← Multiset.add_assoc, ← hrest]
  have hall := hbefore.append (hes.frame (rest + a))
  show Handles 0 o'.base.log (openIn (w.objects.set id (some o')) + (b + a))
  rw [hlog, hset, Multiset.add_assoc, add_left_comm rest b a, ← Multiset.add_assoc]
  exact hall

/-- The rule of a call whose result tells which descriptors left the object. -/
theorem call_leaves (id : ℕ) {f : PlainObject → Option (α × PlainObject)} (b : α → Multiset ℕ)
    (hf : ∀ o r, f o = some r → ∃ es, r.2.base.log = o.base.log ++ es ∧
      Handles o.base.held es (r.2.base.held + b r.1)) :
    Triple (Settled a) (call id f) (fun x => Settled (b x + a)) fun _ => Settled a := by
  intro w hs
  unfold call
  cases ho : w.find id with
  | none => exact hs
  | some o =>
    rw [Option.bind_some]
    cases hr : f (w.lend o) with
    | none => exact hs
    | some r =>
      obtain ⟨es, hlog, hes⟩ := hf _ r hr
      exact hs.store ho hlog hes

/-- The rule of a call that keeps its descriptors. -/
theorem Settled.call (hs : Settled a w) {f : PlainObject → Option (α × PlainObject)}
    (hf : ∀ o r, w.find id = some o → f (w.lend o) = some r →
      Conserves (w.lend o).base r.2.base) : Settled a (call id f w).2 := by
  unfold PlainWorld.call
  cases ho : w.find id with
  | none => exact hs
  | some o =>
    rw [Option.bind_some]
    cases hr : f (w.lend o) with
    | none => exact hs
    | some r =>
      obtain ⟨es, hlog, hes⟩ := hf o r ho hr
      have hstored := hs.store ho (b := 0) hlog (by rwa [Multiset.add_zero])
      rwa [Multiset.zero_add] at hstored

/-- A function that hands on what any object holds. -/
def Hands (f : PlainObject → Option (α × PlainObject)) : Prop :=
  ∀ o r, f o = some r → Conserves o.base r.2.base

theorem Hands.keeps {f : PlainObject → Option (α × PlainObject)} (hf : Hands f) :
    Keeps (Settled a) (call id f) := fun _ hs => hs.call fun _ r _ hr => hf _ r hr

theorem hands_onSocket {f : Socket → α × Socket} (hf : ∀ s, Conserves s (f s).2) :
    Hands (PlainObject.onSocket f) := by
  intro o r hr
  obtain rfl := Option.some.inj hr
  rw [PlainObject.withBase_base]
  exact hf o.base

theorem hands_onServer {f : PlainServer → α × PlainServer}
    (hf : ∀ s, Conserves s.toSocket (f s).2.toSocket) : Hands (PlainObject.onServer f) := by
  intro o r hr
  cases o with
  | serverSocket s =>
    obtain rfl := Option.some.inj hr
    exact hf s
  | socket | clientSocket | udpClientSocket | udpServerSocket => cases hr

theorem hands_onUdpClient {f : UdpSocket → α × UdpSocket}
    (hf : ∀ s, Conserves s.toSocket (f s).2.toSocket) : Hands (PlainObject.onUdpClient f) := by
  intro o r hr
  cases o with
  | udpClientSocket s =>
    obtain rfl := Option.some.inj hr
    exact hf s
  | socket | clientSocket | serverSocket | udpServerSocket => cases hr

theorem hands_onUdpServer {f : UdpServer → α × UdpServer}
    (hf : ∀ s, Conserves s.toSocket (f s).2.toSocket) : Hands (PlainObject.onUdpServer f) := by
  intro o r hr
  cases o with
  | udpServerSocket s =>
    obtain rfl := Option.some.inj hr
    exact hf s
  | socket | clientSocket | serverSocket | udpClientSocket => cases hr

/-- A new object brings its own history, from the descriptors in `b`. -/
theorem Settled.spawn {b : Multiset ℕ} (hs : Settled (b + a) w) (make : ℕ → PlainObject)
    (hmake : ∀ tick, Handles b (make tick).base.log (make tick).base.held) :
    Settled a (spawn make w).2 := by
  have hbefore : Handles 0 w.log (b + (openIn w.objects + a)) := by
    rw [add_left_comm]
    exact hs
  have hall := hbefore.append ((hmake w.tick).frame (openIn w.objects + a))
  show Handles 0 (w.log ++ (make w.tick).base.log)
    (openIn (w.objects ++ [some (make w.tick)]) + a)
  rw [openIn_snoc, Multiset.add_comm (openIn w.objects), Multiset.add_assoc]
  exact hall

theorem Shut.forget (hs : Shut id a w) : Settled a (forget id w).2 := by
  have hopen : openIn (w.objects.set id none) = openIn w.objects := by
    cases ho : w.find id with
    | none => exact openIn_set_none ho
    | some o =>
      obtain ⟨rest, hrest, hset⟩ := openIn_set ho
      rw [hset, hrest, Socket.held, hs.closed o ho]
      rfl
  show Handles 0 w.log (openIn (w.objects.set id none) + a)
  rw [hopen]
  exact hs.settled

theorem find_store {o o' : PlainObject} (ho : w.find id = some o) (other : ℕ) :
    (w.store id o').find other = if other = id then some o' else w.find other := by
  have hlt : id < w.objects.length := by
    by_contra hge
    rw [find, List.getD_eq_getElem?_getD, List.getElem?_eq_none (Nat.le_of_not_lt hge)] at ho
    cases ho
  show (w.objects.set id (some o')).getD other none = _
  rw [List.getD_eq_getElem?_getD, List.getElem?_set]
  split
  · rename_i heq
    rw [if_pos heq.symm]
    rfl
  · rename_i hne
    rw [if_neg fun heq => hne heq.symm]
    exact (List.getD_eq_getElem?_getD ..).symm

/-- A call that opens nothing on a closed object keeps every object that is
closed so, and closes its own if that is what its function does. -/
theorem closedAt_call {f : PlainObject → Option (α × PlainObject)} {other : ℕ}
    (hf : ∀ o r, f o = some r → o.base.sockfd = none → r.2.base.sockfd = none) :
    Keeps (ClosedAt other) (call id f) := by
  intro w hs
  unfold call
  cases ho : w.find id with
  | none => exact hs
  | some o =>
    rw [Option.bind_some]
    cases hr : f (w.lend o) with
    | none => exact hs
    | some r =>
      intro o' ho'
      rw [find_store ho] at ho'
      split at ho'
      · rename_i heq
        obtain rfl := Option.some.inj ho'
        refine hf _ r hr ?_
        rw [lend_base]
        exact hs o (heq ▸ ho)
      · exact hs o' ho'

theorem closeSocket_keeps_closedAt (other : ℕ) : Keeps (ClosedAt id) (closeSocket h other) :=
  closedAt_call fun o r hr _ => by
    obtain rfl := Option.some.inj hr
    rw [PlainObject.withBase_base]
    exact Socket.close_sockfd ..

theorem closeSocket_closedAt (h : UdpHost) (id : ℕ) (w : PlainWorld) :
    ClosedAt id (closeSocket h id w).2 := by
  unfold closeSocket call
  cases ho : w.find id with
  | none =>
    intro o ho'
    rw [Option.bind_none] at ho'
    cases ho.symm.trans ho'
  | some o =>
    intro o' ho'
    replace ho' : (w.store id ((w.lend o).withBase ((w.lend o).base.close h.toHost).2)).find id =
      some o' := ho'
    rw [find_store ho, if_pos rfl] at ho'
    obtain rfl := Option.some.inj ho'
    rw [PlainObject.withBase_base]
    exact Socket.close_sockfd ..

theorem closeSocket_keeps (id : ℕ) : Keeps (Settled a) (closeSocket h id) :=
  (hands_onSocket (close_conserves h.toHost)).keeps

/-- What closes sockets alone keeps both. -/
structure OnlyCloses (a : Multiset ℕ) (m : Code PlainWorld α) : Prop where
  keeps : Keeps (Settled a) m
  closed : ∀ id, Keeps (ClosedAt id) m

namespace OnlyCloses

variable {β : Type} {m : Code PlainWorld α}

theorem pure (x : α) : OnlyCloses a (Pure.pure x : Code PlainWorld α) :=
  ⟨.pure x, fun _ => .pure x⟩

theorem bind {f : α → Code PlainWorld β} (hm : OnlyCloses a m) (hf : ∀ x, OnlyCloses a (f x)) :
    OnlyCloses a (m >>= f) :=
  ⟨hm.keeps.bind fun x => (hf x).keeps, fun id => (hm.closed id).bind fun x => (hf x).closed id⟩

theorem read (f : PlainWorld → α) : OnlyCloses a (Code.read f) := ⟨.read f, fun _ => .read f⟩

theorem closeSocket (h : UdpHost) (id : ℕ) : OnlyCloses a (closeSocket h id) :=
  ⟨closeSocket_keeps id, fun _ => closeSocket_keeps_closedAt id⟩

/-- What is closed stays closed. -/
theorem shut {m : Code PlainWorld α} (hm : OnlyCloses a m) (id : ℕ) : Keeps (Shut id a) m :=
  fun w hs => ⟨hm.keeps w hs.settled, hm.closed id w hs.closed⟩

theorem closePeers (h : UdpHost) (peers : List ℕ) : OnlyCloses a (closePeers h peers) := by
  induction peers with
  | nil => exact .pure false
  | cons peer peers ih =>
    exact (OnlyCloses.closeSocket h peer).bind fun closed => ih.bind fun others => .pure _

theorem closeOwnedPeers (h : UdpHost) (id : ℕ) : OnlyCloses a (closeOwnedPeers h id) := by
  have hbase (s : UdpServer) : s.closeOwnedPeers.2.toSocket = s.toSocket := by
    unfold UdpServer.closeOwnedPeers
    split <;> rfl
  refine (OnlyCloses.read _).bind fun object => ?_
  split
  · exact closePeers h _
  · constructor
    · exact (hands_onUdpServer fun s => .same (by rw [hbase]) (by rw [hbase])).keeps
    · refine fun id => closedAt_call fun o r hr ho => ?_
      cases o with
      | udpServerSocket s =>
        obtain rfl := Option.some.inj hr
        show s.closeOwnedPeers.2.toSocket.sockfd = none
        rw [hbase]
        exact ho
      | socket | clientSocket | serverSocket | udpClientSocket => cases hr
  · exact .pure false

end OnlyCloses

theorem closeSocket_shuts (h : UdpHost) (id : ℕ) : Triple (Settled a) (closeSocket h id)
    (fun _ => Shut id a) fun _ => Shut id a :=
  .after fun w hs => ⟨closeSocket_keeps id w hs, closeSocket_closedAt h id w⟩

theorem close_shuts (h : UdpHost) (id : ℕ) : Triple (Settled a) (close h id)
    (fun _ => Shut id a) fun _ => Shut id a := by
  refine (closeSocket_shuts h id).bind fun changed => ?_
  refine (keeps_iff.mp ((OnlyCloses.closeOwnedPeers h id).shut id)).bind fun closed => ?_
  exact .ret fun _ hs => hs

theorem forget_settles (id : ℕ) : Triple (Shut id a) (forget id)
    (fun _ => Settled a) fun _ => Settled a := fun _ hs => hs.forget

theorem destroySocket_keeps (h : UdpHost) (id : ℕ) : Keeps (Settled a) (destroySocket h id) := by
  refine keeps_iff.mpr (((closeSocket_shuts h id).mono (fun _ hs => hs) (fun _ _ hs => hs)
    fun _ _ hs => hs.settled).bind fun _ => ?_)
  exact forget_settles id

theorem destroyPeers_keeps (h : UdpHost) (peers : List ℕ) :
    Keeps (Settled a) (destroyPeers h peers) := by
  induction peers with
  | nil => exact .pure ()
  | cons peer peers ih => exact (destroySocket_keeps h peer).bind fun _ => ih

theorem close_keeps (h : UdpHost) (id : ℕ) : Keeps (Settled a) (close h id) :=
  keeps_iff.mpr ((close_shuts h id).mono (fun _ hs => hs) (fun _ _ hs => hs.settled)
    fun _ _ hs => hs.settled)

theorem destroy_keeps (h : UdpHost) (id : ℕ) : Keeps (Settled a) (destroy h id) :=
  (close_keeps h id).bind fun _ => .bind (.read _) fun peers =>
    (destroyPeers_keeps h peers).bind fun _ => destroySocket_keeps h id

/-- The functions of the base class find the object closed before they make a
new descriptor for it. -/
theorem this_preserves (h : UdpHost) (id : ℕ) :
    (this h id).Preserves h.toHost (Settled a) (Shut id a) where
  weaken _ hs := hs.settled
  run f hf := (hands_onSocket hf.conserves).keeps
  create family hf := .after fun w hs => hs.settled.call fun o r ho hr => by
    obtain rfl := Option.some.inj hr
    rw [PlainObject.withBase_base]
    refine hf.conserves ?_
    rw [lend_base]
    exact hs.closed o ho
  close := (close_shuts h id).mono (fun _ hs => hs) (fun _ _ hs => hs) fun _ _ hs => hs.settled

theorem closeOwnedPeers_keeps (h : UdpHost) (id : ℕ) : Keeps (Settled a) (closeOwnedPeers h id) :=
  (OnlyCloses.closeOwnedPeers h id).keeps

theorem listen_keeps (h : UdpHost) (id : ℕ) (ip : Option String) (port : Int) :
    Keeps (Settled a) (listen h id ip port) := by
  refine ((this_preserves h id).tcpListen ip port).bind fun ok => .ite (fun _ => ?_) fun _ => ?_
  · exact (closeOwnedPeers_keeps h id).bind fun _ => .pure true
  · exact .pure false

/-- The descriptor of a native accept goes to the object of the peer, which is
destroyed again if its mode cannot be set. -/
theorem accept_keeps (h : UdpHost) (id : ℕ) (blocking : Bool) :
    Keeps (Settled a) (accept h id blocking) := by
  have hnative := call_leaves (a := a) id
    (f := PlainObject.onServer fun s : PlainServer =>
      ((s.toSocket.tcpAccept h.toHost s.acceptTimeoutMs).1,
        { s with toSocket := (s.toSocket.tcpAccept h.toHost s.acceptTimeoutMs).2 }))
    (fun fd : Option ℕ => (fd.toList : Multiset ℕ)) fun o r hr => by
      cases o with
      | serverSocket s =>
        obtain rfl := Option.some.inj hr
        exact tcpAccept_leaves h.toHost s.acceptTimeoutMs s.toSocket
      | socket | clientSocket | udpClientSocket | udpServerSocket => cases hr
  refine keeps_iff.mpr (hnative.bind fun native => ?_)
  cases native with
  | none => exact .ret fun w hs => by rwa [Option.toList_none, Multiset.coe_nil,
      Multiset.zero_add] at hs
  | some fd =>
    have hspawn : Triple (Settled (({fd} : Multiset ℕ) + a))
        (spawn fun tick => .socket (Socket.adopt h.toHost tick fd))
        (fun _ => Settled a) fun _ => Settled a := .after fun w hs =>
          hs.spawn _ fun tick => adopt_handles h.toHost tick fd
    refine Triple.bind (hspawn.pre fun w hs => hs) fun peer => keeps_iff.mp ?_
    refine .bind (hands_onSocket (unopened_setBlocking h.toHost blocking).conserves).keeps
      fun set => .ite (fun _ => ?_) fun _ => ?_
    · exact (destroySocket_keeps h peer).bind fun _ => .pure none
    · exact .bind (hands_onServer fun s => .same rfl rfl).keeps fun _ => .pure (some peer)

theorem removePeer_keeps (h : UdpHost) (id : ℕ) (peer : Option ℕ) :
    Keeps (Settled a) (removePeer h id peer) := by
  cases peer with
  | none => exact .pure false
  | some peer =>
    refine .bind (hands_onServer fun s => .same rfl rfl).keeps fun found => .ite (fun _ => ?_)
      fun _ => .pure false
    exact (closeSocket_keeps peer).bind fun _ => (destroySocket_keeps h peer).bind fun _ =>
      .pure true

theorem construct_settles (h : UdpHost) (c : PlainClass) :
    Keeps (Settled a) (construct h c) := by
  intro w hs
  refine Settled.spawn (b := 0) (by rwa [Multiset.zero_add]) _ fun tick => ?_
  have hbase := construct_handles h.toHost tick
  have hudp : Handles 0 (UdpSocket.construct h tick).log (UdpSocket.construct h tick).held := by
    unfold UdpSocket.construct
    dsimp only
    split <;> exact hbase
  cases c with
  | socket => exact hbase
  | clientSocket => exact hbase
  | serverSocket => exact hbase
  | udpClientSocket => exact hudp
  | udpServerSocket => exact hudp

theorem udpCall_conserves (h : UdpHost) (c : UdpCall) (s : UdpSocket) :
    Conserves s.toSocket (c.run h s).2.toSocket := by
  obtain ⟨hrefused, hdone⟩ := c.run_atomic h s
  cases hr : (c.run h s).1 with
  | false =>
    obtain ⟨hsame, es, hlog, hes, -⟩ := hrefused hr
    have hheld : (c.run h s).2.held = s.held := by rw [hsame]; rfl
    refine ⟨es, hlog, ?_⟩
    rw [hheld]
    simpa using hes.frame s.held
  | true =>
    obtain ⟨-, -, -, -, hhandles⟩ := hdone hr
    exact hhandles

theorem udpRead_conserves (h : UdpHost) (buffer : Bool) (size : Int) (s : UdpSocket) :
    Conserves s.toSocket (s.read h buffer size).2.toSocket := by
  unfold UdpSocket.read
  split
  · exact .same rfl rfl
  · rename_i hready
    simp only [Bool.or_eq_true, not_or, Bool.not_eq_true', Bool.not_eq_false] at hready
    obtain ⟨fd, hfd⟩ := Option.isSome_iff_exists.mp hready.1.2
    have hwait : (if s.readTimeoutMs > 0 then s.ticked else s).log = s.log ∧
        (if s.readTimeoutMs > 0 then s.ticked else s).sockfd = s.sockfd := by
      split <;> exact ⟨rfl, rfl⟩
    dsimp only
    generalize (if s.readTimeoutMs > 0 then s.ticked else s) = t at hwait ⊢
    generalize (if s.readTimeoutMs > 0 then h.select s.tick else ⟨1, 0⟩) = ready
    split
    · exact .same hwait.1 hwait.2
    · split
      · exact .same hwait.1 hwait.2
      · split
        · exact .same hwait.1 hwait.2
        · refine ⟨[.received (t.sockfd.getD 0) (h.recvfrom t.tick size.toNat).2.2], ?_, ?_⟩
          · show t.log ++ _ = _
            rw [hwait.1]
            rfl
          · show Handles s.held _ (t.sockfd.elim 0 ({·}))
            rw [hwait.2, Socket.held, hfd]
            exact .use fd rfl (Multiset.mem_singleton_self fd) (.nil _)

section UdpServer

variable {s t : UdpServer}

/-- One step of a function of `udp_server_socket`. -/
theorem keeps_update {s : Socket} {f : UdpServer → α × UdpServer}
    (hf : ∀ t, Conserves t.toSocket (f t).2.toSocket) :
    Keeps (fun t : UdpServer => Conserves s t.toSocket) (Code.update f) :=
  .update fun t ht => ht.trans (hf t)

theorem conserves_base {f : UdpServer → α × UdpServer}
    (hf : ∀ t, (f t).2.toUdpSocket = t.toUdpSocket) (t : UdpServer) :
    Conserves t.toSocket (f t).2.toSocket := .same (by rw [hf]) (by rw [hf])

theorem closeOwnedPeers_base (s : UdpServer) :
    s.closeOwnedPeers.2.toUdpSocket = s.toUdpSocket := by
  unfold UdpServer.closeOwnedPeers
  split <;> rfl

theorem exec_conserves (h : UdpHost) (o : UdpOp) (s : UdpServer) : Conserves s.toSocket
    (UdpServer.exec h .udpServerSocket (fun _ => pure ()) o s).2.toSocket := by
  have hlisten (port : Int) : Keeps (fun t : UdpServer => Conserves s.toSocket t.toSocket)
      (UdpServer.listen h .udpServerSocket (fun _ => pure ()) port) := by
    refine .bind (keeps_update fun t => udpCall_conserves h (.listen port) t.toUdpSocket) fun ok =>
      .ite (fun _ => ?_) fun _ => .pure false
    refine .bind (keeps_update (conserves_base closeOwnedPeers_base)) fun _ => ?_
    exact .bind (.whenever (.pure ())) fun _ => .pure true
  have hread (buffer : Bool) (size : Int) (t : UdpServer) :
      Conserves t.toSocket (t.read h buffer size).2.toSocket := by
    rw [UdpServer.read_base]
    exact udpRead_conserves h buffer size t.toUdpSocket
  have hall : Keeps (fun t : UdpServer => Conserves s.toSocket t.toSocket)
      (UdpServer.exec h .udpServerSocket (fun _ => pure ()) o) := by
    cases o with
    | listen port => exact (hlisten port).bind fun _ => .pure ()
    | listenStored => exact .bind (.bind (.read _) fun port => hlisten port) fun _ => .pure ()
    | close =>
      refine .bind (.bind (keeps_update fun t => close_conserves h.toHost t.toSocket)
        fun changed => .bind (.whenever (.whenever (.pure ()))) fun _ => ?_) fun _ => .pure ()
      exact .bind (keeps_update (conserves_base closeOwnedPeers_base)) fun _ => .pure _
    | read buffer size => exact .bind (keeps_update (hread buffer size)) fun _ => .pure ()
    | readString size =>
      refine .bind (keeps_update fun t => ?_) fun _ => .pure ()
      unfold UdpServer.readString
      split
      · exact .same rfl rfl
      · exact hread true size t
    | readInternal => exact .bind (keeps_update (hread true _)) fun _ => .pure ()
    | getPeer remote =>
      exact .bind (keeps_update (conserves_base (UdpServer.getPeer_base remote))) fun _ => .pure ()
    | removePeer peer =>
      exact .bind (keeps_update (conserves_base (UdpServer.removeOwnedPeer_base peer)))
        fun _ => .pure ()
    | closePeer address => exact .bind (keeps_update fun t => .same rfl rfl) fun _ => .pure ()
    | writePeer address answer data size =>
      exact .bind (keeps_update fun t => .same rfl rfl) fun _ => .pure ()
    | write answer data size => exact .bind (keeps_update fun t => .same rfl rfl) fun _ => .pure ()
    | setReadTimeout timeoutMs =>
      exact .bind (keeps_update fun t => (unopened_setReadTimeout timeoutMs).conserves t.toSocket)
        fun _ => .pure ()
    | setBlocking flag =>
      exact .bind (keeps_update fun t => (unopened_setBlocking h.toHost flag).conserves t.toSocket)
        fun _ => .pure ()
    | dispatch flags => exact .pure ()
  exact hall s (.same rfl rfl)

end UdpServer

theorem only_keeps {c : PlainClass} {m : Code PlainWorld Unit} (hm : Keeps (Settled a) m) :
    Keeps (Settled a) (only c id m) :=
  .bind (.read _) fun _ => .ite (fun _ => hm) fun _ => .halt _

theorem connect_keeps (h : UdpHost) (id : ℕ) (target : PlainConnect) :
    Keeps (Settled a) (connect h id target) := by
  have hthis := this_preserves (a := a) h id
  cases target with
  | host hostname port => exact hthis.tcpConnectHost hostname port
  | address target => exact hthis.tcpConnectAddress target.family
  | stored => exact hthis.tcpConnectStored

theorem udpConnect_keeps (h : UdpHost) (id : ℕ) (target : PlainConnect) :
    Keeps (Settled a) (udpConnect h id target) := by
  refine (hands_onUdpClient fun s => ?_).keeps
  cases target with
  | host hostname port => exact udpCall_conserves h (.connectHost hostname port) s
  | address target => exact udpCall_conserves h (.connectAddress target) s
  | stored => exact udpCall_conserves h .connectStored s

/-- Every operation of a program settles every descriptor. -/
theorem exec_settles (h : UdpHost) (o : PlainOp) : Keeps (Settled a) (exec h o) := by
  cases o with
  | construct c => exact (construct_settles h c).bind fun _ => .pure ()
  | destroy id => exact destroy_keeps h id
  | close id => exact (close_keeps h id).bind fun _ => .pure ()
  | set id setter =>
    exact .bind (hands_onSocket ((unopened_run h.toHost setter).conserves)).keeps fun _ => .pure ()
  | connect id target => exact only_keeps ((connect_keeps h id target).bind fun _ => .pure ())
  | bind id =>
    exact only_keeps (.bind (hands_onSocket (unopened_tcpBind h.toHost).conserves).keeps
      fun _ => .pure ())
  | listen id ip port => exact only_keeps ((listen_keeps h id ip port).bind fun _ => .pure ())
  | listenStored id =>
    exact only_keeps (.bind (.bind (.read _) fun port => listen_keeps h id _ port)
      fun _ => .pure ())
  | setAcceptTimeout id timeoutMs =>
    refine .bind (hands_onServer fun s => ?_).keeps fun _ => .pure ()
    split <;> exact .same rfl rfl
  | accept id blocking => exact (accept_keeps h id blocking).bind fun _ => .pure ()
  | removePeer id peer => exact only_keeps ((removePeer_keeps h id peer).bind fun _ => .pure ())
  | udpConnect id target => exact (udpConnect_keeps h id target).bind fun _ => .pure ()
  | udpRead id buffer size =>
    exact .bind (hands_onUdpClient (udpRead_conserves h buffer size)).keeps fun _ => .pure ()
  | udpServer id o =>
    have hands := hands_onUdpServer (f := fun s =>
      ((), (UdpServer.exec h .udpServerSocket (fun _ => pure ()) o s).2)) (exec_conserves h o)
    exact hands.keeps

theorem Reaches.settled (hw : Reaches h w) : Settled 0 w := by
  induction hw with
  | start => exact .nil 0
  | next o _ _ ih => exact exec_settles h o _ ih

/-- How many objects store the descriptor. -/
def holders (fd : ℕ) (w : PlainWorld) : ℕ :=
  w.objects.countP fun o => o.any fun o => o.base.sockfd = some fd

theorem count_openIn (fd : ℕ) (w : PlainWorld) : (openIn w.objects).count fd = w.holders fd := by
  unfold holders
  induction w.objects with
  | nil => rfl
  | cons o objects ih =>
    rw [openIn_cons, Multiset.count_add, ih, List.countP_cons, Nat.add_comm]
    congr 1
    cases o with
    | none => rfl
    | some o =>
      show o.base.held.count fd = if decide (o.base.sockfd = some fd) = true then 1 else 0
      rw [Socket.held]
      cases o.base.sockfd with
      | none => rfl
      | some fd' =>
        show Multiset.count fd {fd'} = _
        rw [Multiset.count_singleton]
        by_cases heq : fd = fd'
        · simp [heq]
        · have hne : fd' ≠ fd := fun h => heq h.symm
          simp [heq, hne]

end PlainWorld

theorem acquired_eq (fd : ℕ) (log : List Event) :
    Ledger.Settles.acquired Event.descriptor fd log = log.count (.opened fd) := by
  refine List.countP_congr fun e _ => ?_
  cases e <;> simp [Event.descriptor]

theorem released_eq (fd : ℕ) (log : List Event) :
    Ledger.Settles.released Event.descriptor fd log = log.count (.closed fd) := by
  refine List.countP_congr fun e _ => ?_
  cases e <;> simp [Event.descriptor]

/-- The system gives out a number only while no open descriptor has it. -/
def Unshared (log : List Event) : Prop :=
  History.Always (fun pre e => ∀ fd, e = .opened fd →
    pre.count (.opened fd) = pre.count (.closed fd)) log

theorem Unshared.count_le {log : List Event} (hlog : Unshared log) (fd : ℕ) :
    log.count (.opened fd) ≤ log.count (.closed fd) + 1 := by
  induction log using List.reverseRecOn with
  | nil => exact Nat.zero_le _
  | append_singleton log e ih =>
    obtain ⟨hbefore, hlast⟩ := History.Always.snoc_iff.mp hlog
    have hle := ih hbefore
    rw [List.count_append, List.count_append, List.count_singleton, List.count_singleton]
    by_cases he : e = .opened fd
    · have heq := hlast fd he
      simp [he]
      omega
    · simp [he]
      omega

namespace PlainWorld

/-- A function that works on the logical peers alone adds nothing to the history. -/
theorem call_log {f : UdpServer → α × UdpServer} (hf : ∀ s, (f s).2.toUdpSocket = s.toUdpSocket)
    (id : ℕ) (w : PlainWorld) : (call id (PlainObject.onUdpServer f) w).2.log = w.log := by
  unfold call
  cases ho : w.find id with
  | none => rfl
  | some o =>
    rw [Option.bind_some]
    cases o with
    | udpServerSocket s =>
      show (f { s with toSocket := { s.toSocket with tick := w.tick, log := w.log } }).2.log = w.log
      rw [hf]
    | socket | clientSocket | serverSocket | udpClientSocket => rfl

/-- Over every run each descriptor is closed as often as it was obtained, but
for those that objects store, and only while it is open.  If the system gives
out no number twice at a time, one object stores it.  Logical peers close
nothing. -/
theorem every_descriptor_once (h : UdpHost) (w : PlainWorld) (hw : Reaches h w) :
    Handles 0 w.log (openIn w.objects) ∧
    (∀ fd, w.log.count (.opened fd) = w.log.count (.closed fd) + w.holders fd) ∧
    (Unshared w.log → ∀ fd,
      w.holders fd = 0 ∧ w.log.count (.opened fd) = w.log.count (.closed fd) ∨
      w.holders fd = 1 ∧ w.log.count (.opened fd) = w.log.count (.closed fd) + 1) ∧
    ((∀ o ∈ w.objects, o = none) → ∀ fd,
      w.log.count (.opened fd) = w.log.count (.closed fd)) ∧
    ∀ id address peer, (exec h (.udpServer id (.closePeer address)) w).2.log = w.log ∧
      (exec h (.udpServer id (.removePeer peer)) w).2.log = w.log ∧
      (call id (PlainObject.onUdpServer UdpServer.closeOwnedPeers) w).2.log = w.log := by
  have hsettled : Handles 0 w.log (openIn w.objects) := by
    have hs := hw.settled
    rwa [Settled, Multiset.add_zero] at hs
  have hcount (fd : ℕ) : w.log.count (.opened fd) = w.log.count (.closed fd) + w.holders fd := by
    have heq := Ledger.Settles.count_eq hsettled fd
    rw [acquired_eq, released_eq, count_openIn, Multiset.count_zero] at heq
    omega
  refine ⟨hsettled, hcount, fun hunshared fd => ?_, fun hgone fd => ?_, fun id address peer => ?_⟩
  · have heq := hcount fd
    have hle := hunshared.count_le fd
    omega
  · have hnone : w.holders fd = 0 := by
      refine List.countP_eq_zero.mpr fun o ho => ?_
      rw [hgone o ho]
      exact Bool.false_ne_true
    rw [hcount fd, hnone, Nat.add_zero]
  · exact ⟨call_log (fun _ => rfl) id w, call_log (fun s => by exact UdpServer.removeOwnedPeer_base peer s) id w,
      call_log closeOwnedPeers_base id w⟩

/-- A host on which every call succeeds, with a number of its own for every descriptor. -/
def plainHost : UdpHost where
  toHost := { Host.steady with
    socket := fun tick => some (tick + 3), accept := fun tick => (some (tick + 3), 0) }
  getaddrinfoDgram _ := none
  recvfrom _ _ := (⟨0, 0⟩, [], .other)
  lastError _ := 0

/-- One datagram server, and one listener with a peer that it has accepted. -/
def peerWorld : PlainWorld :=
  let step (o : PlainOp) (w : PlainWorld) : PlainWorld := (exec plainHost o w).2
  step (.accept 1 true) (step (.listen 1 (some "127.0.0.1") 80) (step (.construct .serverSocket)
    (step (.udpServer 0 (.listen 5000)) (step (.construct .udpServerSocket) {}))))

theorem peerWorld_reaches : Reaches plainHost peerWorld :=
  .next (.accept 1 true) (.next (.listen 1 (some "127.0.0.1") 80)
    (.next (.construct .serverSocket) (.next (.udpServer 0 (.listen 5000))
      (.next (.construct .udpServerSocket) .start trivial) trivial) trivial) trivial) trivial

theorem every_descriptor_once_peerWorld :
    Handles 0 peerWorld.log (openIn peerWorld.objects) ∧
    (∀ fd, peerWorld.log.count (.opened fd) =
      peerWorld.log.count (.closed fd) + peerWorld.holders fd) ∧
    (Unshared peerWorld.log → ∀ fd,
      peerWorld.holders fd = 0 ∧
        peerWorld.log.count (.opened fd) = peerWorld.log.count (.closed fd) ∨
      peerWorld.holders fd = 1 ∧
        peerWorld.log.count (.opened fd) = peerWorld.log.count (.closed fd) + 1) ∧
    ((∀ o ∈ peerWorld.objects, o = none) → ∀ fd,
      peerWorld.log.count (.opened fd) = peerWorld.log.count (.closed fd)) ∧
    ∀ id address peer,
      (exec plainHost (.udpServer id (.closePeer address)) peerWorld).2.log = peerWorld.log ∧
      (exec plainHost (.udpServer id (.removePeer peer)) peerWorld).2.log = peerWorld.log ∧
      (call id (PlainObject.onUdpServer UdpServer.closeOwnedPeers) peerWorld).2.log =
        peerWorld.log :=
  every_descriptor_once plainHost peerWorld peerWorld_reaches

/-- Destroyed, the two objects and the peer leave nothing open. -/
example : ((exec plainHost (.destroy 1) (exec plainHost (.destroy 0) peerWorld).2).2).objects =
    [none, none, none] := by decide +kernel

end PlainWorld

end Aeon
