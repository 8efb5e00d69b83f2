import Aeon.Descriptors
import Aeon.Listener

/-!
# Reconnecting from a close handler

`client_event_socket` and `server_event_socket` with handlers that connect,
listen and close on the same object.  `tcp_connect` and `tcp_listen` close the
object first and then put a new descriptor in place, whatever the handler of
that close has done meanwhile.
-/

namespace Aeon

open Program Reentrant Socket

namespace ClientEventSocket

inductive Note
  | closed | connected
  deriving DecidableEq, Repr

def socketPart : Part EventSocket Socket where
  get s := s.toSocket
  set t s := { s with toSocket := t }
  get_set _ _ := rfl
  set_get _ := rfl

section Operations

variable (h : Host) (cb : Note → Code EventSocket Unit)

def close : Code EventSocket Bool := do
  let closed ← Code.update (EventSocket.close h)
  Code.whenever closed (cb .closed)
  return closed

def this : This EventSocket := ⟨socketPart.run, close h cb⟩

def finishConnect : Code EventSocket Bool := do
  let set ← socketPart.run fun s => s.setBlocking h false
  if !set then
    let _ ← socketPart.run (Socket.close h)
    return false
  else
    cb .connected
    return true

def connectStored : Code EventSocket Bool := do
  let ok ← tcpConnectStored h (this h cb)
  if !ok then return false else finishConnect h cb

def connectHost (hostname : Option String) (port : Int) : Code EventSocket Bool := do
  let ok ← tcpConnectHost h (this h cb) hostname port
  if !ok then return false else finishConnect h cb

def connectAddress (family : Family) : Code EventSocket Bool := do
  let ok ← tcpConnectAddress h (this h cb) family
  if !ok then return false else finishConnect h cb

end Operations

inductive Op
  | connectStored
  | connectHost (hostname : Option String) (port : Int)
  | connectAddress (family : Family)
  | close
  | setBlocking (flag : Bool)
  | setConnectTimeout (timeoutMs : Int)

/-- Operations that make a descriptor. -/
def Op.opens : Op → Bool
  | .connectStored | .connectHost .. | .connectAddress _ => true
  | _ => false

def system (h : Host) : System EventSocket Note Op where
  exec cb
    | .connectStored => do let _ ← connectStored h cb
    | .connectHost hostname port => do let _ ← connectHost h cb hostname port
    | .connectAddress family => do let _ ← connectAddress h cb family
    | .close => do let _ ← close h cb
    | .setBlocking flag => do let _ ← socketPart.run (Socket.setBlocking h flag)
    | .setConnectTimeout timeoutMs => do let _ ← socketPart.run (Socket.setConnectTimeout timeoutMs)

/-- Runs from construction, with handlers made of the operations in `okIn` that may throw. -/
def Runs (h : Host) (okIn : Op → Prop) (s : EventSocket) : Prop :=
  ∃ tick, Run (system h) (fun _ _ => True) (fun _ => okIn) (fun _ _ => True)
    (.construct h (.construct h tick)) s

end ClientEventSocket

namespace ServerEventSocket

inductive Op
  | listen (ip : Option String) (port : Int)
  | listenStored
  | close
  | setBlocking (flag : Bool)
  | addPeer (peer : Peer)
  | removePeer (peer : Option Peer)
  | closePeer (peer : Peer)

def Op.opens : Op → Bool
  | .listen .. | .listenStored => true
  | _ => false

section Operations

variable (h : Host) (cb : ListenerNote → Code Listener Unit) (fuel : ℕ)

/-- `listen()`, with the port the object holds. -/
def listenStored : Code Listener Bool := do
  let port ← Code.read fun l => l.port
  listen h cb fuel (some "0.0.0.0") port

end Operations

/-- The descriptors of accepted peers are not those of the listener: `addPeer`
stands for the last step of `accept`. -/
def system (h : Host) (fuel : ℕ) : System Listener ListenerNote Op where
  exec cb
    | .listen ip port => do let _ ← listen h cb fuel ip port
    | .listenStored => do let _ ← listenStored h cb fuel
    | .close => do let _ ← close h cb fuel
    | .setBlocking flag => do let _ ← Listener.socketPart.run (Socket.setBlocking h flag)
    | .addPeer peer => do let _ ← Listener.peersPart.run (Peers.addPeer peer)
    | .removePeer peer => do
      let _ ← removeOwnedPeer h Listener.peersPart (fun p => cb (.peerClosed p)) peer
    | .closePeer peer => do
      let _ ← closePeer h Listener.peersPart (fun p => cb (.peerClosed p)) peer

def Runs (h : Host) (fuel : ℕ) (okIn : Op → Prop) (l : Listener) : Prop :=
  ∃ tick, Run (system h fuel) (fun _ _ => True) (fun _ => okIn) (fun _ _ => True)
    { toEventSocket := .construct h (.construct h tick) } l

end ServerEventSocket

namespace Socket

/-- Every descriptor that the object obtained has been closed once, or is the
one that it holds. -/
def Accounted (s : Socket) : Prop := Handles 0 s.log s.held

/-- The same, with the descriptors that were lost. -/
def Accounts (s : Socket) : Prop := Handles 0 s.log (s.held + lost s.log)

variable {h : Host} {s t : Socket}

theorem Accounts.balances (hs : s.Accounts) (h : Balances s t) : t.Accounts := by
  obtain ⟨es, hlog, hes⟩ := h
  have hrest := hs.append (hes.frame (lost s.log))
  rw [Accounts, hlog, lost_append, ← Multiset.coe_add,
    Multiset.add_comm (lost s.log : Multiset ℕ), ← Multiset.add_assoc]
  exact hrest

/-- The object's own account is right exactly when nothing was lost. -/
theorem Accounts.accounted_iff (hs : s.Accounts) :
    s.Accounted ↔ ∀ fd, .reopened fd ∉ s.log := by
  have hlost (fd : ℕ) : fd ∈ lost s.log ↔ .reopened fd ∈ s.log := by
    unfold lost
    rw [List.mem_filterMap]
    constructor
    · rintro ⟨e, he, hfd⟩
      cases e with
      | reopened fd' => exact Option.some.inj hfd ▸ he
      | _ => cases hfd
    · exact fun he => ⟨_, he, rfl⟩
  constructor
  · intro ha fd hmem
    have hcount := Ledger.Settles.count_eq ha fd
    have hcount' := Ledger.Settles.count_eq hs fd
    have hpos : 0 < (lost s.log : Multiset ℕ).count fd :=
      Multiset.count_pos.mpr (Multiset.mem_coe.mpr ((hlost fd).mpr hmem))
    rw [Multiset.count_add] at hcount'
    omega
  · intro hnone
    have hnil : lost s.log = [] :=
      List.eq_nil_iff_forall_not_mem.mpr fun fd hfd => hnone fd ((hlost fd).mp hfd)
    have ha : Handles 0 s.log (s.held + lost s.log) := hs
    rwa [hnil, Multiset.coe_nil, Multiset.add_zero] at ha

/-- A property `P` of the base object that its functions keep, and what they
make of `Q`, in which `close` leaves the object. -/
structure Tracks (h : Host) (P Q : Socket → Prop) : Prop where
  weaken : ∀ s, Q s → P s
  unopened : ∀ s t, t.log = s.log → t.sockfd = s.sockfd → (P s → P t) ∧ (Q s → Q t)
  close : ∀ s, P s → Q (s.close h).2
  create : ∀ family s, Q s → P (s.create h family).2

/-- Nothing was lost so far. -/
def Intact (s : Socket) : Prop := s.Accounts ∧ lost s.log = []

theorem Intact.accounted (hs : s.Intact) : s.Accounted := by
  have ha : Handles 0 s.log (s.held + lost s.log) := hs.1
  rwa [hs.2, Multiset.coe_nil, Multiset.add_zero] at ha

theorem accounts_tracks (h : Host) : Tracks h Accounts Accounts where
  weaken _ hs := hs
  unopened _ _ hlog hfd := ⟨fun hs => hs.balances (.same hlog hfd), fun hs => hs.balances (.same hlog hfd)⟩
  close s hs := hs.balances (close_balances h s)
  create family s hs := hs.balances (create_balances h family s)

theorem intact_tracks (h : Host) : Tracks h Intact fun s => s.Intact ∧ s.sockfd = none where
  weaken _ hs := hs.1
  unopened s t hlog hfd := by
    have hkeep (hs : s.Intact) : t.Intact := ⟨hs.1.balances (.same hlog hfd), hlog ▸ hs.2⟩
    exact ⟨hkeep, fun hs => ⟨hkeep hs.1, hfd.trans hs.2⟩⟩
  close s hs := by
    refine ⟨⟨hs.1.balances (close_balances h s), ?_⟩, s.close_sockfd h⟩
    cases hfd : s.sockfd with
    | none =>
      rw [close_none hfd]
      exact hs.2
    | some fd =>
      rw [close_log hfd, lost_append, hs.2]
      rfl
  create family s hs := by
    refine ⟨hs.1.1.balances (create_balances h family s), ?_⟩
    rw [(create_log h family s).2, hs.2, lost_append, hs.1.2]
    cases h.socket s.tick <;> rfl

theorem construct_intact (h : Host) (tick : ℕ) :
    (EventSocket.construct h (.construct h tick)).toSocket.Intact := by
  have ht := intact_tracks h
  have hbase : (Socket.construct h tick).Intact := by
    unfold Socket.construct
    cases h.socket tick with
    | none => exact ⟨.nil 0, rfl⟩
    | some fd =>
      have hmade : Handles 0 [.opened fd] {fd} := .acquire fd rfl (.nil _)
      dsimp only
      split <;> exact ⟨hmade, rfl⟩
  have hmode := (ht.unopened _ _ (unopened_setBlocking h false (.construct h tick)).1
    (unopened_setBlocking h false (.construct h tick)).2).1 hbase
  unfold EventSocket.construct
  split
  · exact hbase
  · dsimp only
    split
    · exact hmode
    · exact (ht.close _ hmode).1

/-- The virtual `close` of an object with a base part, whose handlers keep both properties. -/
theorem Tracks.preserves {σ : Type} {P Q : Socket → Prop} (ht : Tracks h P Q)
    (base : Part σ Socket) {close : Code σ Bool}
    (hclose : Triple (fun s => P (base.get s)) close (fun _ s => Q (base.get s))
      fun _ s => P (base.get s)) :
    This.Preserves h ⟨base.run, close⟩ (fun s => P (base.get s)) fun s => Q (base.get s) where
  weaken _ hs := ht.weaken _ hs
  run f hf := Part.run_keeps base fun s hs => by
    rw [base.get_set]
    exact (ht.unopened _ _ (hf _).1 (hf _).2).1 hs
  create family hf := fun s hs => by
    show P (base.get (base.set _ s))
    rw [base.get_set]
    exact (ht.unopened _ _ (hf _).1 (hf _).2).1 (ht.create family _ hs)
  close := hclose

end Socket

open Socket

/-- Code that keeps both properties of the base object. -/
structure KeepsBoth {σ α : Type} (base : Part σ Socket) (P Q : Socket → Prop) (m : Code σ α) :
    Prop where
  keeps : Keeps (fun s => P (base.get s)) m
  keepsClosed : Keeps (fun s => Q (base.get s)) m

namespace KeepsBoth

variable {σ α β : Type} {base : Part σ Socket} {P Q : Socket → Prop} {m : Code σ α}

theorem pure (a : α) : KeepsBoth base P Q (Pure.pure a : Code σ α) := ⟨.pure a, .pure a⟩

theorem bind {f : α → Code σ β} (hm : KeepsBoth base P Q m) (hf : ∀ a, KeepsBoth base P Q (f a)) :
    KeepsBoth base P Q (m >>= f) :=
  ⟨hm.keeps.bind fun a => (hf a).keeps, hm.keepsClosed.bind fun a => (hf a).keepsClosed⟩

theorem whenever {c : Bool} {m : Code σ Unit} (hm : KeepsBoth base P Q m) :
    KeepsBoth base P Q (Code.whenever c m) := ⟨.whenever hm.keeps, .whenever hm.keepsClosed⟩

/-- Code that leaves the base object alone. -/
theorem aside (h : ∀ s, base.get (m s).2 = base.get s) : KeepsBoth base P Q m where
  keeps s hs := by
    show P (base.get (m s).2)
    rwa [h]
  keepsClosed s hs := by
    show Q (base.get (m s).2)
    rwa [h]

/-- A function of the base object that opens and closes nothing. -/
theorem run {h : Host} (ht : Tracks h P Q) {f : Socket → α × Socket} (hf : Unopened f) :
    KeepsBoth base P Q (base.run f) := by
  constructor
  · refine Part.run_keeps base fun s hs => ?_
    rw [base.get_set]
    exact (ht.unopened _ _ (hf _).1 (hf _).2).1 hs
  · refine Part.run_keeps base fun s hs => ?_
    rw [base.get_set]
    exact (ht.unopened _ _ (hf _).1 (hf _).2).2 hs

/-- The native close of the base object, which keeps both. -/
theorem runClose {h : Host} (ht : Tracks h P Q) : KeepsBoth base P Q (base.run (Socket.close h)) := by
  have hclose (s : Socket) (hs : P s) : Q (s.close h).2 := ht.close s hs
  constructor
  · refine Part.run_keeps base fun s hs => ?_
    rw [base.get_set]
    exact ht.weaken _ (hclose _ hs)
  · refine Part.run_keeps base fun s hs => ?_
    rw [base.get_set]
    exact hclose _ (ht.weaken _ hs)

end KeepsBoth

section Owned

variable {σ : Type} {h : Host} {base : Part σ Socket} {P Q : Socket → Prop}
variable {peers : Part σ Peers} {onClose : Peer → Code σ Unit}

/-- The peers of an object are no part of its base object. -/
def Apart (base : Part σ Socket) (peers : Part σ Peers) : Prop :=
  ∀ p s, base.get (peers.set p s) = base.get s

theorem Apart.run {α : Type} (ha : Apart base peers) (f : Peers → α × Peers) :
    KeepsBoth base P Q (peers.run f) := .aside fun _ => ha _ _

theorem Apart.closePeer (ha : Apart base peers) (hcb : ∀ p, KeepsBoth base P Q (onClose p))
    (p : Peer) : KeepsBoth base P Q (closePeer h peers onClose p) := by
  unfold Aeon.closePeer
  exact (ha.run _).bind fun closed => (KeepsBoth.whenever (hcb p)).bind fun _ => .pure closed

theorem Apart.removeOwnedPeer (ha : Apart base peers) (hcb : ∀ p, KeepsBoth base P Q (onClose p))
    (p : Option Peer) : KeepsBoth base P Q (removeOwnedPeer h peers onClose p) := by
  cases p with
  | none => exact .pure false
  | some p =>
    unfold Aeon.removeOwnedPeer
    refine (ha.run _).bind fun found => ?_
    cases found with
    | false => exact .pure false
    | true => exact (ha.closePeer hcb p).bind fun _ => .pure true

theorem Apart.closeLoop (ha : Apart base peers) (hcb : ∀ p, KeepsBoth base P Q (onClose p))
    (fuel index : ℕ) (changed : Bool) :
    KeepsBoth base P Q (closeLoop h peers onClose fuel index changed) := by
  induction fuel generalizing index changed with
  | zero => exact ⟨.halt _, .halt _⟩
  | succ fuel ih =>
    unfold Aeon.closeLoop
    refine KeepsBoth.bind (.aside fun _ => rfl) fun peer => ?_
    cases peer with
    | none => exact .pure changed
    | some peer =>
      refine (ha.closePeer hcb peer).bind fun closed => ?_
      exact KeepsBoth.bind (.aside fun _ => rfl) fun slot => ih _ _

theorem Apart.closeOwnedPeers (ha : Apart base peers) (hcb : ∀ p, KeepsBoth base P Q (onClose p))
    (fuel : ℕ) : KeepsBoth base P Q (closeOwnedPeers h peers onClose fuel) := by
  have hloop := ha.closeLoop (h := h) hcb fuel 0 false
  have hexit (R : Socket → Prop) (hr : Keeps (fun s => R (base.get s))
      (Aeon.closeLoop h peers onClose fuel 0 false)) : Keeps (fun s => R (base.get s))
      ((Aeon.closeLoop h peers onClose fuel 0 false).atExit fun s =>
        peers.set { peers.get s with closingPeers := false } s) := by
    refine .atExit (fun s hs => ?_) fun s hs => ?_
    · simp only [ha _ _] at hs ⊢
      exact hr s hs
    · rw [ha]
      exact hs
  unfold Aeon.closeOwnedPeers
  refine KeepsBoth.bind (.aside fun _ => rfl) fun closing => ?_
  cases closing with
  | true => exact .pure false
  | false => exact (ha.run _).bind fun _ => ⟨hexit P hloop.keeps, hexit Q hloop.keepsClosed⟩

end Owned

section Closing

variable {σ ν ω : Type} {h : Host} {base : Part σ Socket} {P Q : Socket → Prop}

/-- `event_socket::close` with its notification, on any object. -/
theorem Socket.Tracks.closes (ht : Tracks h P Q) (base : Part σ Socket) {native : Code σ Bool}
    {cb : Code σ Unit}
    (hnative : ∀ s, base.get (native s).2 = ((base.get s).close h).2) (hcb : KeepsBoth base P Q cb) :
    Triple (fun s => P (base.get s))
      (native >>= fun closed => Code.whenever closed cb >>= fun _ => pure closed)
      (fun _ s => Q (base.get s)) fun _ s => Q (base.get s) := by
  have hfirst : Triple (fun s => P (base.get s)) native (fun _ s => Q (base.get s))
      fun _ s => Q (base.get s) := by
    intro s hs
    have hq : Q (base.get (native s).2) := by
      rw [hnative]
      exact ht.close _ hs
    revert hq
    rcases native s with ⟨_ | _, t⟩ <;> exact id
  refine hfirst.bind fun closed => Triple.bind (Q := fun _ s => Q (base.get s)) ?_ fun _ => ?_
  · exact .whenever (fun _ => keeps_iff.mp hcb.keepsClosed) fun _ _ hs => hs
  · exact .ret fun _ hs => hs

/-- What closes the object keeps both properties. -/
theorem Socket.Tracks.closesKeeps (ht : Tracks h P Q) {close : Code σ Bool}
    (hclose : Triple (fun s => P (base.get s)) close (fun _ s => Q (base.get s))
      fun _ s => Q (base.get s)) : KeepsBoth base P Q close where
  keeps := keeps_iff.mpr (hclose.mono (fun _ hs => hs) (fun _ s => ht.weaken (base.get s))
    fun _ s => ht.weaken (base.get s))
  keepsClosed := keeps_iff.mpr (hclose.pre fun s => ht.weaken (base.get s))

/-- Handlers keep what the operations keep.  Those that open a descriptor are
either not among their operations, or keep the second property too. -/
theorem Socket.Tracks.handler (ht : Tracks h P Q) (base : Part σ Socket) {S : System σ ν ω} {opens : ω → Bool}
    {okIn : ω → Prop} {hs : σ → Halt → Prop}
    (hopens : ∀ o cb, (∀ n, KeepsBoth base P Q (cb n)) →
      Keeps (fun s => P (base.get s)) (S.exec cb o))
    (hquiet : ∀ o cb, (∀ n, KeepsBoth base P Q (cb n)) → opens o = false →
      KeepsBoth base P Q (S.exec cb o))
    (hok : ∀ o, okIn o → opens o = true → ∀ s, P s → Q s) {cb : ν → Code σ Unit}
    (hcb : Realizable S (fun _ => okIn) hs cb) (n : ν) : KeepsBoth base P Q (cb n) := by
  have hsteps (s : σ) : (P (base.get s) → P (base.get (cb n s).2)) ∧
      (Q (base.get s) → Q (base.get (cb n s).2)) := by
    refine (hcb.steps n s).within (R := fun a b => (P (base.get a) → P (base.get b)) ∧
      (Q (base.get a) → Q (base.get b))) (fun _ => ⟨id, id⟩)
      (fun _ _ _ hab hbc => ⟨hbc.1 ∘ hab.1, hbc.2 ∘ hab.2⟩) fun o cb' _ hcb' t hallowed => ?_
    have hboth (n : ν) : KeepsBoth base P Q (cb' n) :=
      ⟨fun u hu => (hcb' n u).1 hu, fun u hu => (hcb' n u).2 hu⟩
    have hp := hopens o cb' hboth t
    refine ⟨hp, fun hq => ?_⟩
    cases ho : opens o with
    | true => exact hok o hallowed ho _ (hp (ht.weaken _ hq))
    | false => exact (hquiet o cb' hboth ho).keepsClosed t hq
  exact ⟨fun s => (hsteps s).1, fun s => (hsteps s).2⟩

end Closing

namespace ClientEventSocket

section

variable {h : Host} {P Q : Socket → Prop} {cb : Note → Code EventSocket Unit}

theorem close_closes (ht : Tracks h P Q) (hcb : ∀ n, KeepsBoth socketPart P Q (cb n)) :
    Triple (fun s => P (socketPart.get s)) (close h cb) (fun _ s => Q (socketPart.get s))
      fun _ s => Q (socketPart.get s) :=
  ht.closes socketPart (fun _ => rfl) (hcb .closed)

theorem this_preserves (ht : Tracks h P Q) (hcb : ∀ n, KeepsBoth socketPart P Q (cb n)) :
    (this h cb).Preserves h (fun s => P (socketPart.get s)) fun s => Q (socketPart.get s) :=
  ht.preserves socketPart ((close_closes ht hcb).mono (fun _ hs => hs) (fun _ _ hs => hs)
    fun _ s => ht.weaken (socketPart.get s))

theorem finishConnect_keeps (ht : Tracks h P Q) (hcb : ∀ n, KeepsBoth socketPart P Q (cb n)) :
    Keeps (fun s => P (socketPart.get s)) (finishConnect h cb) := by
  unfold finishConnect
  refine (KeepsBoth.run ht (unopened_setBlocking h false)).keeps.bind fun set => ?_
  refine .ite (fun _ => ?_) fun _ => (hcb .connected).keeps.bind fun _ => .pure _
  exact (KeepsBoth.runClose ht).keeps.bind fun _ => .pure _

theorem exec_keeps (ht : Tracks h P Q) (o : Op) (hcb : ∀ n, KeepsBoth socketPart P Q (cb n)) :
    Keeps (fun s => P (socketPart.get s)) ((system h).exec cb o) := by
  have hthis := this_preserves ht hcb
  have hfinish := finishConnect_keeps ht hcb
  cases o with
  | connectStored =>
    refine Keeps.bind (hthis.tcpConnectStored.bind fun ok => ?_) fun _ => .pure ()
    exact .ite (fun _ => .pure false) fun _ => hfinish
  | connectHost hostname port =>
    refine Keeps.bind ((hthis.tcpConnectHost hostname port).bind fun ok => ?_) fun _ => .pure ()
    exact .ite (fun _ => .pure false) fun _ => hfinish
  | connectAddress family =>
    refine Keeps.bind ((hthis.tcpConnectAddress family).bind fun ok => ?_) fun _ => .pure ()
    exact .ite (fun _ => .pure false) fun _ => hfinish
  | close => exact (ht.closesKeeps (close_closes ht hcb)).keeps.bind fun _ => .pure ()
  | setBlocking flag =>
    exact (KeepsBoth.run ht (unopened_setBlocking h flag)).keeps.bind fun _ => .pure ()
  | setConnectTimeout timeoutMs =>
    exact (KeepsBoth.run ht (unopened_setConnectTimeout timeoutMs)).keeps.bind fun _ => .pure ()

theorem exec_keepsBoth (ht : Tracks h P Q) (o : Op) (hcb : ∀ n, KeepsBoth socketPart P Q (cb n))
    (ho : o.opens = false) : KeepsBoth socketPart P Q ((system h).exec cb o) := by
  cases o with
  | connectStored | connectHost | connectAddress => cases ho
  | close => exact (ht.closesKeeps (close_closes ht hcb)).bind fun _ => .pure ()
  | setBlocking flag => exact (KeepsBoth.run ht (unopened_setBlocking h flag)).bind fun _ => .pure ()
  | setConnectTimeout timeoutMs => exact (KeepsBoth.run ht (unopened_setConnectTimeout timeoutMs)).bind fun _ => .pure ()

/-- Over a whole run, whatever the handlers of its operations do. -/
theorem Runs.keeps (ht : Tracks h P Q) {okIn : Op → Prop} {s : EventSocket} (hr : Runs h okIn s)
    (hok : ∀ o, okIn o → o.opens = true → ∀ s, P s → Q s)
    (hnew : ∀ tick, P (EventSocket.construct h (.construct h tick)).toSocket) : P (socketPart.get s) := by
  obtain ⟨tick, hr⟩ := hr
  refine hr.keeps (I := fun s => P (socketPart.get s)) (fun o cb hcb => ?_) (hnew tick)
  have hboth := ht.handler socketPart (fun o _ => exec_keeps ht o)
    (fun o _ => exec_keepsBoth ht o) hok hcb
  exact fun t _ => exec_keeps ht o hboth t

end

end ClientEventSocket

namespace ServerEventSocket

section

variable {h : Host} {fuel : ℕ} {P Q : Socket → Prop} {cb : ListenerNote → Code Listener Unit}

theorem peers_apart : Apart Listener.socketPart Listener.peersPart := fun _ _ => rfl

theorem close_closes (ht : Tracks h P Q)
    (hcb : ∀ n, KeepsBoth Listener.socketPart P Q (cb n)) :
    Triple (fun l => P (Listener.socketPart.get l)) (close h cb fuel)
      (fun _ l => Q (Listener.socketPart.get l)) fun _ l => Q (Listener.socketPart.get l) := by
  have hpeers : KeepsBoth Listener.socketPart P Q (Listener.closePeers h cb fuel) :=
    peers_apart.closeOwnedPeers (fun p => hcb (.peerClosed p)) fuel
  have hevent : Triple (fun l => P (Listener.socketPart.get l)) (closeEvent h cb)
      (fun _ l => Q (Listener.socketPart.get l)) fun _ l => Q (Listener.socketPart.get l) :=
    ht.closes Listener.socketPart (fun _ => rfl) (hcb .closed)
  refine hevent.bind fun changed => (keeps_iff.mp hpeers.keepsClosed).bind fun closed => ?_
  exact .ret fun _ hs => hs

theorem listen_keeps (ht : Tracks h P Q) (hcb : ∀ n, KeepsBoth Listener.socketPart P Q (cb n))
    (ip : Option String) (port : Int) :
    Keeps (fun l => P (Listener.socketPart.get l)) (listen h cb fuel ip port) := by
  have hthis : (⟨Listener.socketPart.run, close h cb fuel⟩ : This Listener).Preserves h
      (fun l => P (Listener.socketPart.get l)) fun l => Q (Listener.socketPart.get l) :=
    ht.preserves Listener.socketPart ((close_closes ht hcb).mono (fun _ hs => hs)
      (fun _ _ hs => hs) fun _ l => ht.weaken (Listener.socketPart.get l))
  have hpeers : KeepsBoth Listener.socketPart P Q (Listener.closePeers h cb fuel) :=
    peers_apart.closeOwnedPeers (fun p => hcb (.peerClosed p)) fuel
  unfold listen
  refine (hthis.tcpListen ip port).bind fun ok => .ite (fun _ => .pure false) fun _ => ?_
  refine hpeers.keeps.bind fun _ => ?_
  refine Keeps.bind (KeepsBoth.run ht (unopened_setBlocking h false)).keeps fun set => ?_
  refine .ite (fun _ => ?_) fun _ => (hcb .listening).keeps.bind fun _ => .pure true
  exact Keeps.bind (KeepsBoth.runClose ht).keeps fun _ => .pure false

theorem exec_keepsBoth (ht : Tracks h P Q) (o : Op)
    (hcb : ∀ n, KeepsBoth Listener.socketPart P Q (cb n)) (ho : o.opens = false) :
    KeepsBoth Listener.socketPart P Q ((system h fuel).exec cb o) := by
  cases o with
  | listen | listenStored => cases ho
  | close => exact (ht.closesKeeps (close_closes ht hcb)).bind fun _ => .pure ()
  | setBlocking flag => exact (KeepsBoth.run ht (unopened_setBlocking h flag)).bind fun _ => .pure ()
  | addPeer peer => exact (peers_apart.run (Peers.addPeer peer)).bind fun _ => .pure ()
  | removePeer peer =>
    exact (peers_apart.removeOwnedPeer (fun p => hcb (.peerClosed p)) peer).bind fun _ => .pure ()
  | closePeer peer =>
    exact (peers_apart.closePeer (fun p => hcb (.peerClosed p)) peer).bind fun _ => .pure ()

theorem exec_keeps (ht : Tracks h P Q) (o : Op)
    (hcb : ∀ n, KeepsBoth Listener.socketPart P Q (cb n)) :
    Keeps (fun l => P (Listener.socketPart.get l)) ((system h fuel).exec cb o) := by
  cases ho : o.opens with
  | false => exact (exec_keepsBoth ht o hcb ho).keeps
  | true =>
    cases o with
    | listen ip port => exact (listen_keeps ht hcb ip port).bind fun _ => .pure ()
    | listenStored =>
      refine Keeps.bind (.bind (.read _) fun port => ?_) fun _ => .pure ()
      exact listen_keeps ht hcb _ port
    | close | setBlocking | addPeer | removePeer | closePeer => cases ho

theorem Runs.keeps (ht : Tracks h P Q) {okIn : Op → Prop} {l : Listener}
    (hr : Runs h fuel okIn l) (hok : ∀ o, okIn o → o.opens = true → ∀ s, P s → Q s)
    (hnew : ∀ tick, P (EventSocket.construct h (.construct h tick)).toSocket) :
    P (Listener.socketPart.get l) := by
  obtain ⟨tick, hr⟩ := hr
  refine hr.keeps (I := fun l => P (Listener.socketPart.get l)) (fun o cb hcb => ?_) (hnew tick)
  have hboth := ht.handler Listener.socketPart (fun o _ => exec_keeps ht o)
    (fun o _ => exec_keepsBoth ht o) hok hcb
  exact fun t _ => exec_keeps ht o hboth t

end

end ServerEventSocket

/-- Over every run of either class the object's account is right, that is every
descriptor was closed once or is the one held, exactly when no descriptor was
made while another one, left by a close handler, was open.  Handlers that
neither connect nor listen leave none. -/
theorem descriptors_accounted_iff (h : Host) :
    (∀ okIn s, ClientEventSocket.Runs h okIn s →
      (s.Accounted ↔ ∀ fd, .reopened fd ∉ s.log)) ∧
    (∀ fuel okIn l, ServerEventSocket.Runs h fuel okIn l →
      (l.Accounted ↔ ∀ fd, .reopened fd ∉ l.log)) ∧
    (∀ s, ClientEventSocket.Runs h (fun o => o.opens = false) s → s.Accounted) ∧
    ∀ fuel l, ServerEventSocket.Runs h fuel (fun o => o.opens = false) l → l.Accounted := by
  have hnew (tick : ℕ) :
      (EventSocket.construct h (.construct h tick)).toSocket.Intact :=
    construct_intact h tick
  have hquiet {ω : Type} {opens : ω → Bool} (o : ω) (ho : opens o = false)
      (hopens : opens o = true) : ∀ s, Intact s → s.Intact ∧ s.sockfd = none := by
    cases ho.symm.trans hopens
  refine ⟨fun okIn s hr => ?_, fun fuel okIn l hr => ?_, fun s hr => ?_,
    fun fuel l hr => ?_⟩
  · exact Accounts.accounted_iff
      (hr.keeps (accounts_tracks h) (fun _ _ _ _ hs => hs) fun tick => (hnew tick).1)
  · exact Accounts.accounted_iff
      (hr.keeps (accounts_tracks h) (fun _ _ _ _ hs => hs) fun tick => (hnew tick).1)
  · exact (hr.keeps (intact_tracks h) hquiet hnew).accounted
  · exact (hr.keeps (intact_tracks h) hquiet hnew).accounted

namespace ClientEventSocket

/-- Every connect succeeds, and every descriptor has a number of its own. -/
def fresh : Host := { Host.steady with socket := fun tick => some (tick + 3) }

/-- A close handler that connects again at once. -/
def reconnect : Note → Code EventSocket Unit
  | .closed => (system fresh).exec (fun _ => pure ()) (.connectAddress .inet)
  | .connected => pure ()

theorem reconnect_realizable :
    Realizable (system fresh) (fun _ _ => True) (fun _ _ => True) reconnect where
  steps n t := by
    cases n with
    | closed => exact .single _ trivial (.idle _ _ _)
    | connected => exact .refl t
  ends _ _ _ _ := trivial

/-- A connect on a connected object whose close handler connects again. -/
def reconnected : EventSocket :=
  ((system fresh).exec reconnect (.connectAddress .inet)
    (.construct fresh (.construct fresh 0))).2

theorem reconnected_runs : Runs fresh (fun _ => True) reconnected :=
  ⟨0, .next _ _ .start trivial reconnect_realizable⟩

theorem descriptors_accounted_iff_reconnected :
    reconnected.Accounted ↔ ∀ fd, .reopened fd ∉ reconnected.log :=
  (descriptors_accounted_iff _).1 _ _ reconnected_runs

theorem reconnect_loses_descriptor :
    ¬ ((∀ h okIn s, Runs h okIn s → s.Accounted) ∧
      ∀ h fuel okIn l, ServerEventSocket.Runs h fuel okIn l → l.Accounted) := by
  intro hall
  have hcount := Ledger.Settles.count_eq (hall.1 fresh _ _ reconnected_runs) 7
  exact absurd hcount (by decide)

end ClientEventSocket

end Aeon
