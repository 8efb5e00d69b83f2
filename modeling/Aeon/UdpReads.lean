import Aeon.UdpPeers
import Aeon.UdpReplacement

/-!
# Which reads make peers

A read registers the address that the server holds afterwards.  After a
timeout this is an address left over from an earlier datagram, so the read
makes a peer again that has been retired since.
-/

namespace Aeon

open Program Reentrant Sockaddr

/-- The datagrams that a history receives, by their senders. -/
def senders (log : List Event) : List Sockaddr :=
  log.filterMap fun
    | .received _ sender => some sender
    | _ => none

@[simp] theorem senders_append (log es : List Event) :
    senders (log ++ es) = senders log ++ senders es := List.filterMap_append

inductive UdpRead
  | buffer (buffer : Bool) (size : Int)
  | string (size : Int)
  | internal
  deriving DecidableEq, Repr

namespace UdpRead

variable (h : UdpHost)

def op : UdpRead → UdpOp
  | buffer b size => .read b size
  | string size => .readString size
  | internal => .readInternal

def run : UdpRead → UdpServer → UdpServer
  | buffer b size, s => (s.read h b size).2
  | string size, s => (s.readString h size).2
  | internal, s => (s.readInternal h).2

/-- The arguments with which every overload calls `read(buffer, size)`, if it does. -/
def arguments (s : UdpServer) : UdpRead → Option (Bool × Int)
  | buffer b size => some (b, size)
  | string size => if !s.isValidSocket || size ≤ 0 then none else some (true, size)
  | internal => some (true, UdpServer.maxBufferSize - 1)

/-- The read waits for a datagram, and none comes in time. -/
def timesOut (s : UdpServer) (r : UdpRead) : Bool :=
  match r.arguments s with
  | none => false
  | some (b, size) => b && s.isValidSocket && 0 < size && 0 < s.readTimeoutMs &&
      (h.select s.tick).ret = 0

end UdpRead

namespace UdpServer

/-- One read: it adds peers for senders that it received from, and does nothing
to the peers when it received nothing. -/
structure ReadsReceived (s t : UdpServer) : Prop where
  created : ∀ p ∈ t.owned, p ∈ s.owned ∨ p.remoteAddr ∈ senders (t.log.drop s.log.length)
  unchanged : senders (t.log.drop s.log.length) = [] → t.owned = s.owned ∧ t.members = s.members

/-- The address that the server holds has an active peer, or cannot have one. -/
def Covered (s : UdpServer) : Prop :=
  s.remoteAddr.family = .other ∨
    ∃ p ∈ s.owned, p.peerActive = true ∧ p.remoteAddr.sameUdpAddress s.remoteAddr = true

variable {h : UdpHost} {c : UdpServerClass} {s t u : UdpServer}

/-- A read fails, times out, or receives one datagram. -/
theorem udpRead_cases (buffer : Bool) (size : Int) (s : UdpSocket) :
    ((s.read h buffer size).1.1 < 0 ∧ (s.read h buffer size).2.log = s.log) ∨
    (buffer = true ∧ s.isValidSocket = true ∧ 0 < size ∧ 0 < s.readTimeoutMs ∧
      (h.select s.tick).ret = 0 ∧
      s.read h buffer size =
        ((0, []), { s.ticked with errorCode := errTimeout, n := 0 })) ∨
    ∃ fd sender, 0 ≤ (s.read h buffer size).1.1 ∧
      (s.read h buffer size).2.remoteAddr = sender ∧
      (s.read h buffer size).2.log = s.log ++ [.received fd sender] := by
  unfold UdpSocket.read
  split
  · exact .inl ⟨by simp, rfl⟩
  · rename_i hready
    simp only [Bool.or_eq_true, not_or, Bool.not_eq_true', decide_eq_true_eq, not_le] at hready
    obtain ⟨⟨hbuffer, hvalid⟩, hsize⟩ := hready
    dsimp only
    by_cases hwaits : s.readTimeoutMs > 0
    · simp only [hwaits, if_true]
      split
      · exact .inr (.inl ⟨by simpa using hbuffer, by simpa using hvalid, hsize, trivial, ‹_›, rfl⟩)
      · split
        · exact .inl ⟨by simp, rfl⟩
        · split
          · exact .inl ⟨‹_›, rfl⟩
          · exact .inr (.inr ⟨_, _, by dsimp only; omega, rfl, rfl⟩)
    · simp only [hwaits, if_false]
      rw [if_neg (by decide), if_neg (by decide)]
      split
      · exact .inl ⟨‹_›, rfl⟩
      · exact .inr (.inr ⟨_, _, by dsimp only; omega, rfl, rfl⟩)

/-- The base object of a read, whether or not a peer is registered after it. -/
theorem read_base (buffer : Bool) (size : Int) (s : UdpServer) :
    (s.read h buffer size).2.toUdpSocket = (s.toUdpSocket.read h buffer size).2 := by
  unfold UdpServer.read
  dsimp only
  split
  · exact getPeer_base _ _
  · rfl

theorem other_none (s : UdpServer) (hs : s.Sound) {remote : Sockaddr}
    (hremote : remote.family = .other) : s.findUdpPeer remote = none := by
  rw [hs.findUdpPeer, List.find?_eq_none]
  intro p _ hsame
  rcases same_cases hsame with ⟨_, _, -, rfl⟩ | ⟨_, _, _, _, _, -, rfl⟩ |
    ⟨_, _, _, _, _, -, ⟨-, rfl⟩ | ⟨-, rfl⟩⟩ <;> cases hremote

/-- The address held is registered already, or is none that can be. -/
theorem Sound.getPeer_covered (hs : s.Sound) (hc : s.Covered) :
    (s.getPeer s.remoteAddr).2 = s := by
  cases hvalid : s.isValidSocket with
  | false => simp [UdpServer.getPeer, hvalid]
  | true =>
    rcases hc with hother | ⟨p, hp, hactive, hsame⟩
    · simp [UdpServer.getPeer, hvalid, s.other_none hs hother, createPeer, hother]
    · rw [hs.getPeer_of_mem hvalid hp hactive hsame]

/-- A new peer is registered for an address that is not covered. -/
theorem Sound.getPeer_uncovered (hs : s.Sound) (hvalid : s.isValidSocket = true)
    (hc : ¬s.Covered) : (s.getPeer s.remoteAddr).2.owned ≠ s.owned := by
  have hremote : s.remoteAddr.family ≠ .other := fun h => hc (.inl h)
  rcases hs.getPeer_cases s.remoteAddr with
    ⟨p, hp, hactive, hsame, -⟩ | ⟨t, -, -, hfresh, -, -, he⟩ | ⟨hinvalid, -⟩
  · exact absurd (.inr ⟨p, hp, hactive, hsame⟩) hc
  · rw [he, createPeer, if_neg hremote]
    intro howned
    have hmem : ({ address := t.fresh, remoteAddr := s.remoteAddr } : UdpPeer) ∈ s.owned := by
      rw [← howned]
      exact List.mem_append_right _ (List.mem_singleton_self _)
    exact Nat.lt_irrefl _ (hfresh ▸ hs.below _ hmem)
  · rw [hvalid] at hinvalid
    cases hinvalid

theorem Sound.getPeer_created (hs : s.Sound) (remote : Sockaddr) :
    ∀ p ∈ (s.getPeer remote).2.owned, p ∈ s.owned ∨ p.remoteAddr = remote := by
  intro p hp
  rcases hs.getPeer_cases remote with ⟨_, -, -, -, -, he⟩ | ⟨t, -, -, -, howned, -, he⟩ | ⟨-, he⟩
  · rw [he] at hp
    exact .inl hp
  · rw [he, createPeer] at hp
    split at hp
    · exact .inl ((howned p).mp hp).1
    · rcases List.mem_append.mp hp with hp | hp
      · exact .inl ((howned p).mp hp).1
      · exact .inr (by rw [List.mem_singleton.mp hp])
  · rw [he] at hp
    exact .inl hp

theorem ReadsReceived.same (howned : t.owned = s.owned) (hmembers : t.members = s.members) :
    ReadsReceived s t :=
  ⟨fun _ hp => .inl (howned ▸ hp), fun _ => ⟨howned, hmembers⟩⟩

/-- `read(buffer, size)` makes a peer without a datagram exactly when it times
out while the address left over is not covered. -/
theorem Sound.read_iff (hs : s.Sound) (buffer : Bool) (size : Int) :
    ReadsReceived s (s.read h buffer size).2 ↔
      ¬((UdpRead.buffer buffer size).timesOut h s = true ∧ ¬s.Covered) := by
  have hbase := s.read_base (h := h) buffer size
  have htimes : (UdpRead.buffer buffer size).timesOut h s = true ↔ buffer = true ∧
      s.isValidSocket = true ∧ 0 < size ∧ 0 < s.readTimeoutMs ∧ (h.select s.tick).ret = 0 := by
    simp [UdpRead.timesOut, UdpRead.arguments, and_assoc]
  rcases udpRead_cases (h := h) buffer size s.toUdpSocket with
    ⟨hneg, hlog⟩ | ⟨hb, hvalid, hsize, hwait, hselect, he⟩ | ⟨fd, sender, hpos, haddr, hlog⟩
  · -- A failure: the count is negative, and nothing is registered.
    have hread : (s.read h buffer size).2.owned = s.owned ∧
        (s.read h buffer size).2.members = s.members := by
      unfold UdpServer.read
      dsimp only
      rw [if_neg (by omega)]
      exact ⟨rfl, rfl⟩
    refine iff_of_true (.same hread.1 hread.2) fun ht => ?_
    obtain ⟨hb, hvalid, hsize, hwait, hselect⟩ := htimes.mp ht.1
    rw [UdpSocket.read, if_neg (by simp [hb, hvalid]; omega)] at hneg
    simp [hwait, hselect] at hneg
  · -- A timeout: the address held is registered.
    have hheld : (s.read h buffer size).2 =
        (({ s with toUdpSocket := { s.ticked with errorCode := errTimeout, n := 0 } } :
          UdpServer).getPeer s.remoteAddr).2 := by
      unfold UdpServer.read
      dsimp only
      rw [he, if_pos (Int.le_refl 0)]
      rfl
    have hsound : ({ s with toUdpSocket := { s.ticked with errorCode := errTimeout, n := 0 } } :
        UdpServer).Sound := hs.frame rfl rfl rfl
    have hlog : (s.read h buffer size).2.log = s.log := by rw [hbase, he]; rfl
    rw [hheld] at hlog ⊢
    by_cases hc : s.Covered
    · have hsame := hsound.getPeer_covered hc
      rw [show (UdpServer.getPeer s.remoteAddr _).2 = _ from hsame]
      exact iff_of_true (.same rfl rfl) fun ht => ht.2 hc
    · refine iff_of_false (fun hr => ?_) fun hn => hn ⟨htimes.mpr
        ⟨hb, hvalid, hsize, hwait, hselect⟩, hc⟩
      exact hsound.getPeer_uncovered hvalid hc (hr.unchanged (by rw [hlog]; simp [senders])).1
  · -- A datagram: its sender is registered.
    have hsenders : senders ((s.read h buffer size).2.log.drop s.log.length) = [sender] := by
      rw [hbase, hlog, List.drop_left]
      rfl
    refine iff_of_true ⟨fun p hp => ?_, fun hnone => ?_⟩ fun ht => ?_
    · rw [hsenders]
      unfold UdpServer.read at hp
      dsimp only at hp
      rw [if_pos (by omega)] at hp
      have hframe : ({ s with toUdpSocket := (s.toUdpSocket.read h buffer size).2 } :
        UdpServer).Sound := hs.frame rfl rfl rfl
      rcases hframe.getPeer_created _ p hp with hp | hp
      · exact .inl hp
      · exact .inr (by rw [hp, haddr]; exact List.mem_singleton_self _)
    · rw [hsenders] at hnone
      cases hnone
    · obtain ⟨hb, hvalid, hsize, hwait, hselect⟩ := htimes.mp ht.1
      have hsame : (s.toUdpSocket.read h buffer size).2.log = s.log := by
        rw [UdpSocket.read, if_neg (by simp [hb, hvalid]; omega)]
        simp [hwait, hselect, UdpSocket.ticked, Socket.ticked]
      rw [hlog] at hsame
      simp at hsame

/-- The condition under which a read registers nobody but the sender it received from. -/
def Meets (h : UdpHost) (s : UdpServer) (r : UdpRead) : Prop :=
  ¬(r.timesOut h s = true ∧ ¬s.Covered)

theorem Sound.run_iff (hs : s.Sound) (r : UdpRead) :
    ReadsReceived s (r.run h s) ↔ Meets h s r := by
  cases r with
  | buffer b size => exact hs.read_iff b size
  | internal => exact hs.read_iff true _
  | string size =>
    by_cases hargs : (!s.isValidSocket || size ≤ 0) = true
    · have hrun : UdpRead.run h (.string size) s = s := by
        rw [UdpRead.run, UdpServer.readString, if_pos hargs]
      rw [hrun]
      refine iff_of_true (.same rfl rfl) fun ⟨htimes, _⟩ => ?_
      simp only [UdpRead.timesOut, UdpRead.arguments, if_pos hargs] at htimes
      cases htimes
    · have hrun : UdpRead.run h (.string size) s = (s.read h true size).2 := by
        rw [UdpRead.run, UdpServer.readString, if_neg hargs]
      rw [hrun, hs.read_iff true size]
      simp only [Meets, UdpRead.timesOut, UdpRead.arguments, if_neg hargs]

section Return

variable {a : Sockaddr}

/-- How many datagrams a history received from an endpoint. -/
def heard (a : Sockaddr) (log : List Event) : ℕ := (senders log).countP (·.sameUdpAddress a)

def NoPeer (a : Sockaddr) (s : UdpServer) : Prop :=
  ∀ p ∈ s.owned, p.remoteAddr.sameUdpAddress a = false

/-- From `s` to `t` no peer for the endpoint has appeared, unless it was heard. -/
structure Since (a : Sockaddr) (s t : UdpServer) : Prop where
  sound : t.Sound
  mono : heard a s.log ≤ heard a t.log
  absent : heard a t.log = heard a s.log → NoPeer a s → NoPeer a t

theorem Since.refl (hs : s.Sound) : Since a s s := ⟨hs, Nat.le_refl _, fun _ hn => hn⟩

theorem Since.trans (h₁ : Since a s t) (h₂ : Since a t u) : Since a s u := by
  refine ⟨h₂.sound, h₁.mono.trans h₂.mono, fun heq hn => ?_⟩
  have h₁' := h₁.mono
  have h₂' := h₂.mono
  exact h₂.absent (by omega) (h₁.absent (by omega) hn)

theorem heard_append (log es : List Event) : heard a (log ++ es) = heard a log + heard a es := by
  rw [heard, senders_append, List.countP_append]
  rfl

theorem Since.of_log (ht : t.Sound) (es : List Event) (hlog : t.log = s.log ++ es)
    (howned : heard a es = 0 → NoPeer a s → NoPeer a t) : Since a s t := by
  have hsum := heard_append (a := a) s.log es
  refine ⟨ht, by rw [hlog]; omega, fun heq => howned ?_⟩
  rw [hlog] at heq
  omega

theorem NoPeer.mapped {f : UdpPeer → UdpPeer} (hf : ∀ p, (f p).remoteAddr = p.remoteAddr)
    (hn : NoPeer a s) (howned : t.owned = s.owned.map f) : NoPeer a t := by
  intro q hq
  rw [howned] at hq
  obtain ⟨p, hp, rfl⟩ := List.mem_map.mp hq
  rw [hf]
  exact hn p hp

theorem Since.base {f : UdpSocket → UdpSocket} {es : List Event} (hs : s.Sound)
    (hlog : (f s.toUdpSocket).log = s.log ++ es) :
    Since a s { s with toUdpSocket := f s.toUdpSocket } :=
  .of_log (hs.frame rfl rfl rfl) es hlog fun _ hn => hn

theorem Since.closeOwnedPeers (hs : s.Sound) : Since a s s.closeOwnedPeers.2 := by
  have hsound := hs.closeOwnedPeers
  unfold UdpServer.closeOwnedPeers at *
  split
  · exact .refl hs
  · rename_i hc
    rw [if_neg hc] at hsound
    exact .of_log hsound [] (List.append_nil _).symm fun _ hn =>
      hn.mapped (f := fun p => p.close.2) (fun _ => rfl) rfl

theorem Since.getPeer (hs : s.Sound) {remote : Sockaddr}
    (hremote : remote.sameUdpAddress a = false) : Since a s (s.getPeer remote).2 := by
  refine .of_log (hs.getPeer remote) [] (by rw [getPeer_base, List.append_nil]) ?_
  intro _ hn p hp
  rcases hs.getPeer_created remote p hp with hp | rfl
  · exact hn p hp
  · exact hremote

theorem Since.removeOwnedPeer (hs : s.Sound) (peer : Option ℕ) :
    Since a s (s.removeOwnedPeer peer).2 := by
  refine .of_log (hs.removeOwnedPeer peer) [] ?_ fun _ hn p hp => hn p ?_
  · rw [removeOwnedPeer_base, List.append_nil]
  · unfold UdpServer.removeOwnedPeer at hp
    split at hp
    · exact hp
    · exact List.mem_of_mem_eraseP hp

theorem Since.read (hs : s.Sound) {buffer : Bool} {size : Int}
    (hm : Meets h s (.buffer buffer size)) : Since a s (s.read h buffer size).2 := by
  have hread := (hs.read_iff (h := h) buffer size).mpr hm
  obtain ⟨es, hlog⟩ : ∃ es, (s.read h buffer size).2.log = s.log ++ es := by
    rw [s.read_base]
    rcases udpRead_cases (h := h) buffer size s.toUdpSocket with
      ⟨-, hlog⟩ | ⟨-, -, -, -, -, he⟩ | ⟨fd, sender, -, -, hlog⟩
    · exact ⟨[], by rw [hlog, List.append_nil]⟩
    · exact ⟨[], by rw [he, List.append_nil]; rfl⟩
    · exact ⟨_, hlog⟩
  refine .of_log (hs.read buffer size) es hlog fun hheard hn p hp => ?_
  rcases hread.created p hp with hp | hp
  · exact hn p hp
  · rw [hlog, List.drop_left] at hp
    rw [Bool.eq_false_iff]
    exact List.countP_eq_zero.mp hheard _ hp

/-- What an application may do so that only a datagram brings the endpoint back:
it does not ask for it, and its reads meet their condition. -/
def MayAsk (h : UdpHost) (a : Sockaddr) (s : UdpServer) : UdpOp → Prop
  | .getPeer remote => remote.sameUdpAddress a = false
  | .read buffer size => Meets h s (.buffer buffer size)
  | .readString size => Meets h s (.string size)
  | .readInternal => Meets h s .internal
  | _ => True

variable {cb : UdpNote → Code UdpServer Unit}

theorem udpListen_log (port : Int) (s : UdpSocket) :
    ∃ es, (s.udpListen h port).2.log = s.log ++ es := by
  have hspec := s.udpListenWith_spec (h := h) port (some (UdpSocket.nativeBind h))
  cases hr : (s.udpListen h port).1 with
  | false =>
    obtain ⟨es, hlog, -⟩ := (hspec.refused hr).gaveUp
    exact ⟨es, hlog⟩
  | true =>
    obtain ⟨family, -, hsel⟩ := (hspec.done hr).selected
    obtain ⟨es, hlog, -⟩ := hsel.handles
    exact ⟨es, hlog⟩

/-- Code keeps `Since` when each of its parts adds to the state it finds. -/
theorem since_run {f : UdpSocket → UdpSocket} (hf : ∀ u, ∃ es, (f u).log = u.log ++ es)
    (ht : Since a s t) : Since a s { t with toUdpSocket := f t.toUdpSocket } :=
  let ⟨_, hes⟩ := hf t.toUdpSocket
  ht.trans (.base ht.sound hes)

theorem since_listen (hcb : ∀ n, Keeps (Since a s) (cb n)) (port : Int) :
    Keeps (Since a s) (listen h c cb port) := by
  refine .bind (Part.run_keeps _ fun t ht => since_run (udpListen_log port) ht) fun ok =>
    .ite (fun _ => ?_) fun _ => .pure _
  refine .bind (.update fun t ht => ht.trans (.closeOwnedPeers ht.sound)) fun _ => ?_
  exact .bind (.whenever (hcb _)) fun _ => .pure _

theorem since_close (hcb : ∀ n, Keeps (Since a s) (cb n)) :
    Keeps (Since a s) (close h c cb) := by
  have hclose (u : UdpSocket) : ∃ es,
      ({ u with toSocket := (u.toSocket.close h.toHost).2 } : UdpSocket).log = u.log ++ es := by
    show ∃ es, (u.toSocket.close h.toHost).2.log = u.log ++ es
    unfold Socket.close
    cases u.sockfd with
    | none => exact ⟨[], (List.append_nil _).symm⟩
    | some fd =>
      dsimp only
      split <;> exact ⟨_, rfl⟩
  refine .bind (Part.run_keeps _ fun t ht =>
    since_run (f := fun u => { u with toSocket := (u.toSocket.close h.toHost).2 }) hclose ht)
      fun changed => .bind (.whenever (.whenever (hcb _))) fun _ => ?_
  exact .bind (.update fun t ht => ht.trans (.closeOwnedPeers ht.sound)) fun _ => .pure _

theorem since_report (hcb : ∀ n, Keeps (Since a s) (cb n)) (code : Int) :
    Keeps (Since a s) (reportError cb code) :=
  .bind (.modify fun _ ht => since_run (f := fun u => { u with errorCode := code, n := -1 })
    (fun u => ⟨[], (List.append_nil u.log).symm⟩) ht) fun _ => hcb _

/-- A datagram is heard before its sender is registered. -/
theorem since_received (ht : Since a s t) (fd : ℕ) (sender : Sockaddr) (n : Int) :
    Since a s (({ t.record (.received fd sender) with
      n := n, remoteAddr := sender } : UdpServer).getPeer sender).2 := by
  have hsound : ({ t.record (.received fd sender) with
    n := n, remoteAddr := sender } : UdpServer).Sound := ht.sound.frame rfl rfl rfl
  refine ht.trans (.of_log (hsound.getPeer sender) [.received fd sender] ?_ ?_)
  · rw [getPeer_base]
    rfl
  · intro hheard hn p hp
    rcases hsound.getPeer_created sender p hp with hp | hp
    · exact hn p hp
    · rw [hp]
      simpa [heard, senders] using hheard

theorem since_dispatch (hcb : ∀ n, Keeps (Since a s) (cb n)) (flags : Flags) :
    Keeps (Since a s) (dispatch h cb flags) := by
  have hticked : Keeps (Since a s) (Code.modify fun t : UdpServer =>
      { t with toSocket := t.ticked.toSocket }) :=
    .modify fun t ht => since_run (f := fun u => { u with toSocket := u.ticked.toSocket })
      (fun u => ⟨[], (List.append_nil u.log).symm⟩) ht
  have hreceived (answer : IoResult × List UInt8 × Sockaddr) : Keeps (Since a s) (do
      Code.modify fun t : UdpServer => { t.record (.received (t.sockfd.getD 0) answer.2.2) with
        n := answer.1.ret, remoteAddr := answer.2.2 }
      fireOnDatagram cb answer.2.1 answer.2.2) := by
    intro t ht
    exact hcb _ _ (since_received ht _ answer.2.2 answer.1.ret)
  refine .bind (.read _) fun t => .ite (fun _ => ?_) fun _ => .pure _
  refine .ite (fun _ => ?_) fun _ => .ite (fun _ => since_report hcb _) fun _ =>
    .ite (fun _ => .bind hticked fun _ => since_report hcb _) fun _ => .pure _
  exact .bind hticked fun _ => .ite (fun _ => hreceived _) fun _ =>
    .ite (fun _ => since_report hcb _) fun _ => .pure _

theorem since_exec (hcb : ∀ n, Keeps (Since a s) (cb n)) (o : UdpOp) (ht : Since a s t)
    (hok : MayAsk h a t o) : Since a s ((system h c).exec cb o t).2 := by
  have hwhole {α : Type} {m : Code UdpServer α} (hm : Keeps (Since a s) m) :
      Since a s ((do let _ ← m : Code UdpServer Unit) t).2 :=
    Keeps.bind hm (fun _ => .pure ()) t ht
  have hstep {u : UdpServer} (hu : Since a t u) : Since a s u := ht.trans hu
  cases o with
  | listen port => exact hwhole (since_listen hcb port)
  | listenStored => exact hwhole (.bind (.read _) fun port => since_listen hcb port)
  | close => exact hwhole (since_close hcb)
  | read buffer size => exact hstep (.read ht.sound hok)
  | readInternal => exact hstep (.read ht.sound hok)
  | readString size =>
    refine hstep ?_
    show Since a t (t.readString h size).2
    unfold UdpServer.readString
    split
    · exact .refl ht.sound
    · rename_i hargs
      refine .read ht.sound ?_
      simpa only [MayAsk, Meets, UdpRead.timesOut, UdpRead.arguments, if_neg hargs] using hok
  | getPeer remote => exact hstep (.getPeer ht.sound hok)
  | removePeer peer => exact hstep (.removeOwnedPeer ht.sound peer)
  | closePeer address =>
    refine hstep (.of_log (ht.sound.closePeer address) [] (List.append_nil _).symm fun _ hn =>
      hn.mapped (f := fun p => if p.address = address then p.close.2 else p) (fun p => ?_) rfl)
    split <;> rfl
  | writePeer address answer data size =>
    refine hstep (.of_log (ht.sound.writePeer address answer data size) [] (List.append_nil _).symm
      fun _ hn => hn.mapped (f := fun p => if p.address = address then
        (p.write t.toUdpSocket answer data size).2 else p) (fun p => ?_) rfl)
    split <;> rfl
  | write answer data size =>
    exact hstep (.of_log (ht.sound.frame rfl rfl rfl) [] (List.append_nil _).symm fun _ hn => hn)
  | setReadTimeout timeoutMs =>
    refine hstep (.of_log (ht.sound.frame rfl rfl rfl) [] ?_ fun _ hn => hn)
    show (t.toSocket.setReadTimeout timeoutMs).2.log = t.log ++ []
    unfold Socket.setReadTimeout
    split <;> exact (List.append_nil _).symm
  | setBlocking flag =>
    refine hstep (.of_log (ht.sound.frame rfl rfl rfl) [] ?_ fun _ hn => hn)
    show (t.toSocket.setBlocking h.toHost flag).2.log = t.log ++ []
    unfold Socket.setBlocking
    split
    · exact (List.append_nil _).symm
    · dsimp only
      split <;> exact (List.append_nil _).symm
  | dispatch flags => exact Keeps.whenever (since_dispatch hcb flags) t ht

/-- Every code that may ask brings a peer for the endpoint back only after a
datagram from it. -/
theorem Sound.since (hs : s.Sound)
    (hsteps : Steps (system h c) (MayAsk h a) (fun _ _ => True) s t) : Since a s t := by
  refine hsteps.within (R := fun s t => s.Sound → Since a s t) (fun _ => .refl)
    (fun _ _ _ hab hbc ha => (hab ha).trans (hbc (hab ha).sound)) (fun o cb _ hcb u hok hu => ?_) hs
  exact since_exec (fun n v hv => hv.trans (hcb n v hv.sound)) o (.refl hu) hok

end Return

/-- In every state that an application can bring a server to, a read registers
nobody but the sender it received from exactly when it meets its condition.
And as long as all reads meet it, a retired endpoint that nobody asks for stays
without a peer until a datagram comes from it. -/
theorem Reaches.reads_iff (hs : Reaches h c s) :
    (∀ r : UdpRead, ReadsReceived s (r.run h s) ↔ Meets h s r) ∧
    ∀ a t, Steps (system h c) (MayAsk h a) (fun _ _ => True) s t → NoPeer a s →
      heard a t.log = heard a s.log → NoPeer a t :=
  ⟨hs.sound.run_iff, fun _ _ hsteps hn heq => (hs.sound.since hsteps).absent heq hn⟩

/-- A host on which one datagram comes, and nothing after it. -/
def lateHost : UdpHost where
  toHost := { Host.steady with select := fun tick => if tick = 8 then ⟨1, 0⟩ else ⟨0, 0⟩ }
  getaddrinfoDgram _ := none
  recvfrom _ _ := (⟨1, 0⟩, [7], .inet 4000 (dotted 127 0 0 1))
  lastError _ := 0

/-- A server that has heard of one endpoint and retired its peer. -/
def retiredServer : UdpServer :=
  let step (o : UdpOp) (s : UdpServer) : UdpServer :=
    (exec lateHost .udpServerSocket (fun _ => pure ()) o s).2
  step (.removePeer (some 0)) (step (.read true 64) (step (.listen 5000)
    (step (.setReadTimeout 10) (construct lateHost .udpServerSocket 0))))

theorem retiredServer_reaches : Reaches lateHost .udpServerSocket retiredServer :=
  have hstart : Reaches lateHost .udpServerSocket (construct lateHost .udpServerSocket 0) :=
    ⟨0, .start⟩
  (((hstart.next (.setReadTimeout 10)).next (.listen 5000)).next (.read true 64)).next
    (.removePeer (some 0))

/-- A read that times out brings the retired peer back. -/
theorem read_revives_peer : ∃ h c s r, Reaches h c s ∧ s.owned = [] ∧
    (UdpRead.run h r s).owned ≠ [] ∧ senders ((UdpRead.run h r s).log.drop s.log.length) = [] ∧
    ¬ReadsReceived s (r.run h s) := by
  have hafter : (UdpRead.run lateHost (.buffer true 64) retiredServer).owned ≠ [] := by
    decide +kernel
  have hsilent : senders ((UdpRead.run lateHost (.buffer true 64) retiredServer).log.drop
      retiredServer.log.length) = [] := by decide +kernel
  have hbefore : retiredServer.owned = [] := by decide +kernel
  exact ⟨lateHost, .udpServerSocket, retiredServer, .buffer true 64, retiredServer_reaches,
    hbefore, hafter, hsilent, fun hr => hafter ((hr.unchanged hsilent).1.trans hbefore)⟩

theorem retiredServer_reads_iff :
    (∀ r : UdpRead, ReadsReceived retiredServer (r.run lateHost retiredServer) ↔
      Meets lateHost retiredServer r) ∧
    ∀ a t, Steps (system lateHost .udpServerSocket) (MayAsk lateHost a) (fun _ _ => True)
      retiredServer t → NoPeer a retiredServer →
      heard a t.log = heard a retiredServer.log → NoPeer a t :=
  retiredServer_reaches.reads_iff

end UdpServer

end Aeon
