import Aeon.StreamGaps
import Mathlib.Data.List.Nodup

/-!
# Servers with one record for each accepted client

What the chat server and the HTTP server have in common.  The listener owns the
accepted sockets, the event set refers to those that are registered, and the server
keeps a record of each client.  A client is retired at once and its socket destroyed
only after `poll`.  A socket and the record about it are known by one number, which
the listener gives out once.
-/

namespace Aeon

/-- The socket of a connection that `accept` has found. -/
abbrev Incoming := { peer : Socket // peer.isValidSocket = true }

/-- An accepted connection, with what its data handler has been given. -/
structure Connection extends Stream where
  received : List UInt8 := []

namespace Connection

/-- What `accept(false)` of the listener gives. -/
def ofAccepted (peer : Socket) : Connection := { sock := { toSocket := peer } }

def isOpen (c : Connection) : Bool := c.sock.isValidSocket

def queueWrite (data : List UInt8) (c : Connection) : Bool × Connection :=
  ((c.sock.queueWrite true (some data)).1, { c with
    sock := (c.sock.queueWrite true (some data)).2
    accepted := if (c.sock.queueWrite true (some data)).1 then c.accepted ++ data else c.accepted })

def setMaxQueuedBytes (limit : UInt64) (c : Connection) : Bool × Connection :=
  ((c.sock.setMaxQueuedBytes limit.toNat).1,
    { c with sock := (c.sock.setMaxQueuedBytes limit.toNat).2 })

def close (h : Host) (c : Connection) : Connection := { c with sock := (c.sock.close h).2 }

/-- The flush of `poll`, with its result. -/
def flush (h : Host) (c : Connection) : FlushResult × Connection :=
  ((c.sock.flushQueued (EventSocket.transport h) sendBudget c.sock.toSocket).result,
    { c with toStream := c.toStream.exec h .flush })

/-- The connection is open, every accepted byte is still queued or has been sent, and no
send has failed. -/
structure Steady (c : Connection) : Prop where
  opened : c.isOpen = true
  consistent : c.toStream.Consistent
  sound : ∀ call ∈ c.calls, ¬FatalSend call

/-- The transport has taken the first of the accepted bytes, without a gap. -/
def Delivers (c : Connection) : Prop := handed c.calls <+: c.accepted

/-- What writing does to a connection. -/
inductive Written (c : Connection) : Connection → Prop
  | refl : Written c c
  | step {c' : Connection} (data : List UInt8) : Written c c' → Written c (c'.queueWrite data).2

section Connections

variable {c c' : Connection}

theorem Steady.delivers (hc : c.Steady) : c.Delivers := by
  have hplaces := hc.consistent.sound hc.sound
  refine hc.consistent.handed_le ?_
  rw [Stream.Whole, hplaces, List.length_range]

theorem delivers_ofAccepted (peer : Socket) : (ofAccepted peer).Delivers := List.prefix_rfl

theorem steady_ofAccepted (peer : Incoming) : (ofAccepted peer).Steady :=
  ⟨peer.2, .start peer.1, nofun⟩

theorem isOpen_queueWrite (data : List UInt8) : (c.queueWrite data).2.isOpen = c.isOpen :=
  congrArg Socket.isValidSocket (c.sock.queueWrite_toSocket true (some data))

theorem isOpen_flush (h : Host) : (c.flush h).2.isOpen = c.isOpen := by
  refine flushQueued_keeps (t := EventSocket.transport h) (I := fun s => s.isValidSocket = c.isOpen)
    (fun _ s hs => ?_) sendBudget c.sock c.sock.toSocket rfl
  rw [← hs]
  show (s.nativeSend h).2.isValidSocket = s.isValidSocket
  unfold Socket.nativeSend
  split <;> rfl

theorem Steady.queueWrite (hc : c.Steady) (data : List UInt8) : (c.queueWrite data).2.Steady :=
  ⟨(isOpen_queueWrite data).trans hc.opened, hc.consistent.queueWrite .steady (some data), hc.sound⟩

theorem Steady.setMaxQueuedBytes (hc : c.Steady) (limit : UInt64) :
    (c.setMaxQueuedBytes limit).2.Steady :=
  ⟨hc.opened, hc.consistent.setMaxQueuedBytes .steady limit, hc.sound⟩

theorem Delivers.queueWrite (hc : c.Delivers) (data : List UInt8) : (c.queueWrite data).2.Delivers := by
  refine hc.trans ?_
  show c.accepted <+: if _ then _ else _
  split
  · exact List.prefix_append _ _
  · exact List.prefix_rfl

theorem Delivers.close (hc : c.Delivers) (h : Host) : (c.close h).Delivers := hc

theorem Written.trans {c'' : Connection} (h : Written c c') (h' : Written c' c'') : Written c c'' := by
  induction h' with
  | refl => exact h
  | step data _ ih => exact ih.step data

theorem Written.steady (h : Written c c') (hc : c.Steady) : c'.Steady := by
  induction h with
  | refl => exact hc
  | step data _ ih => exact ih.queueWrite data

theorem Written.delivers (h : Written c c') (hc : c.Delivers) : c'.Delivers := by
  induction h with
  | refl => exact hc
  | step data _ ih => exact ih.queueWrite data

@[simp] theorem isOpen_close (h : Host) (c : Connection) : (c.close h).isOpen = false := by
  show ((c.sock.toSocket.close h).2).sockfd.isSome = false
  unfold Socket.close
  split
  · rename_i hnone
    rw [hnone]
    rfl
  · dsimp only
    split <;> rfl

/-- A flush that succeeds keeps a connection steady. -/
theorem Steady.flush (hc : c.Steady) (h : Host) :
    (c.flush h).2.Delivers ∧ ((c.flush h).1.error = 0 → (c.flush h).2.Steady) := by
  have hconsistent := hc.consistent.flush h
  have hfault := flushQueued_fault (t := EventSocket.transport h) sendBudget c.sock c.sock.toSocket
    hc.consistent.valid
  have hstops : StopsAfterFault (c.flush h).2.calls :=
    List.pairwise_append.mpr ⟨List.pairwise_iff_forall_sublist.mpr fun hsub hfatal =>
      absurd hfatal (hc.sound _ (hsub.subset List.mem_cons_self)), hfault.stops,
      fun call hcall _ _ hfatal => absurd hfatal (hc.sound call hcall)⟩
  refine ⟨hconsistent.handed_le (hconsistent.handed_whole_iff.mpr hstops), fun herror => ?_⟩
  refine ⟨(isOpen_flush h).trans hc.opened, hconsistent, fun call hcall hfatal => ?_⟩
  rcases List.mem_append.mp hcall with hold | hnew
  · exact hc.sound call hold hfatal
  · exact hfault.fault.mpr ⟨call, hnew, hfatal⟩ herror

end Connections

end Connection

/-- What the server knows of a client, with the socket of it. -/
structure PeerRecord (ρ : Type) where
  conn : Connection := { sock := {} }
  retire : Bool := false
  data : ρ

structure ClientServer (ρ : Type) where
  record : ℕ → PeerRecord ρ
  made : ℕ := 0
  owned : List ℕ := []
  registered : List ℕ := []
  peers : List ℕ := []
  running : Bool := false
  polling : Bool := false

namespace ClientServer

variable {ρ : Type}

def idle (init : ρ) : ClientServer ρ := { record := fun _ => { data := init } }

def setRecord (id : ℕ) (t : PeerRecord ρ) (s : ClientServer ρ) : ClientServer ρ :=
  { s with record := Function.update s.record id t }

def setConn (id : ℕ) (c : Connection) (s : ClientServer ρ) : ClientServer ρ :=
  s.setRecord id { s.record id with conn := c }

/-- Code that works on the record that `lookup` finds and on the socket of it.  What
it retires is deregistered. -/
def turn (id : ℕ) (f : PeerRecord ρ → PeerRecord ρ) (s : ClientServer ρ) : ClientServer ρ :=
  if id ∈ s.peers then
    { s.setRecord id (f (s.record id)) with
      registered := if (f (s.record id)).retire then s.registered.erase id else s.registered }
  else s

def retire (id : ℕ) (s : ClientServer ρ) : ClientServer ρ := s.turn id fun t => { t with retire := true }

/-- A loop over `peers_` that works on those not retired. -/
def eachLive (f : PeerRecord ρ → PeerRecord ρ) (s : ClientServer ρ) : ClientServer ρ :=
  s.peers.foldl (fun s id => if (s.record id).retire then s else s.turn id f) s

def clientCount (s : ClientServer ρ) : ℕ := s.peers.countP fun id => !(s.record id).retire

/-- `sockets_.add`. -/
def add (id : ℕ) (s : ClientServer ρ) : Bool × ClientServer ρ :=
  if id ∈ s.registered then (false, s) else (true, { s with registered := s.registered ++ [id] })

/-- The listener makes the object of an accepted connection. -/
def adopt (peer : Socket) (init : ρ) (s : ClientServer ρ) : ClientServer ρ :=
  { s.setRecord s.made { conn := .ofAccepted peer, data := init } with
    made := s.made + 1
    owned := s.owned ++ [s.made] }

variable (h : ℕ → Host)

/-- One arrival of `accept_ready`, until the client is in `peers_`.  The result is that
of `sockets_.add`, if it comes to that. -/
def enroll (maxClients : ℕ) (maxQueuedBytes : UInt64) (peer : Socket) (init : ρ)
    (s : ClientServer ρ) : Option Bool × ClientServer ρ :=
  let id := s.made
  let s := s.adopt peer init
  let c := (s.record id).conn
  if maxClients ≤ s.clientCount then (none, s.setConn id (c.close (h id)))
  else if !(c.setMaxQueuedBytes maxQueuedBytes).1 then
    (none, s.setConn id ((c.setMaxQueuedBytes maxQueuedBytes).2.close (h id)))
  else
    let r := (s.setConn id (c.setMaxQueuedBytes maxQueuedBytes).2).add id
    (some r.1, if r.1 then { r.2 with peers := r.2.peers ++ [id] } else r.2)

/-- `poll` hands received bytes to the data handler. -/
def receive (id : ℕ) (data : List UInt8) (s : ClientServer ρ) : ClientServer ρ :=
  s.setConn id { (s.record id).conn with received := (s.record id).conn.received ++ data }

/-- `poll` finds the end of the stream. -/
def hangUp (id : ℕ) (s : ClientServer ρ) : ClientServer ρ :=
  (s.setConn id ((s.record id).conn.close (h id))).retire id

/-- `poll` flushes the queue, and an error retires the client. -/
def flush (id : ℕ) (drained : PeerRecord ρ → PeerRecord ρ) (s : ClientServer ρ) : ClientServer ρ :=
  let r := (s.record id).conn.flush (h id)
  let s := s.setConn id r.2
  if r.1.error ≠ 0 then s.retire id else if r.1.drained then s.turn id drained else s

/-- The sockets of retired clients are destroyed, and with them their descriptors. -/
def reap (s : ClientServer ρ) : ClientServer ρ :=
  let gone := s.peers.filter fun id => (s.record id).retire
  { s with
    record := fun id => if id ∈ gone then
      { s.record id with conn := (s.record id).conn.close (h id) } else s.record id
    owned := s.owned.filter (· ∉ gone)
    peers := s.peers.filter fun id => !(s.record id).retire }

/-- The listener closes the peers that it owns. -/
def closeOwnedPeers (s : ClientServer ρ) : ClientServer ρ :=
  { s with record := fun id => if id ∈ s.owned then
      { s.record id with conn := (s.record id).conn.close (h id) } else s.record id }

def stop (s : ClientServer ρ) : ClientServer ρ :=
  if s.polling then s
  else { s.closeOwnedPeers h with registered := [], peers := [], running := false }

/-- The invariant of the two lists, of the registrations and of the descriptors.  The
registered clients are those not retired, each of them is connected, and no descriptor
is open that is not a client's. -/
structure Sound (maxClients : ℕ) (s : ClientServer ρ) : Prop where
  distinct : s.owned.Nodup
  made : ∀ id ∈ s.owned, id < s.made
  peers : s.peers.Sublist s.owned
  registered : s.registered = s.peers.filter fun id => !(s.record id).retire
  room : s.registered.length ≤ maxClients
  opened : ∀ id, (s.record id).conn.isOpen → id ∈ s.peers
  steady : ∀ id ∈ s.registered, (s.record id).conn.Steady
  delivers : ∀ id, (s.record id).conn.Delivers
  stopped : s.running = false → s.peers = []

/-- What holds of a server between two polls: the clients are those that are registered,
they are those whose connections are open, and none of them is retired. -/
structure Orderly (maxClients : ℕ) (s : ClientServer ρ) : Prop where
  room : s.clientCount ≤ maxClients
  opened : ∀ id, id ∈ s.registered ↔ (s.record id).conn.isOpen
  registered : s.registered = s.peers
  owned : s.peers.Sublist s.owned ∧ s.owned.Nodup
  live : ∀ id ∈ s.peers, (s.record id).retire = false
  stopped : s.running = false → s.peers = []

/-- What a handler may do to a record. -/
structure Handler (f : PeerRecord ρ → PeerRecord ρ) : Prop where
  retired : ∀ t : PeerRecord ρ, t.retire = true → (f t).retire = true
  written : ∀ t : PeerRecord ρ, t.conn.Written (f t).conn

theorem handles_retire : Handler fun t : PeerRecord ρ => { t with retire := true } :=
  ⟨fun _ _ => rfl, fun _ => .refl⟩

section Soundness

variable {h} {maxClients : ℕ} {s : ClientServer ρ} {id : ℕ}

theorem sound_idle (init : ρ) : (idle init).Sound maxClients where
  distinct := List.nodup_nil
  made := nofun
  peers := List.Sublist.refl _
  registered := rfl
  room := Nat.zero_le _
  opened := nofun
  steady := nofun
  delivers _ := List.prefix_rfl
  stopped _ := rfl

@[simp] theorem setRecord_self (t : PeerRecord ρ) : (s.setRecord id t).record id = t :=
  Function.update_self ..

theorem setRecord_ne {other : ℕ} (t : PeerRecord ρ) (hne : other ≠ id) :
    (s.setRecord id t).record other = s.record other := Function.update_of_ne hne ..

theorem adopt_self (peer : Socket) (init : ρ) (c : Connection) :
    ((s.adopt peer init).setConn s.made c).record s.made = { conn := c, data := init } := by
  simp [setConn, setRecord, adopt]

theorem adopt_ne (peer : Socket) (init : ρ) (c : Connection) {other : ℕ} (hne : other ≠ s.made) :
    ((s.adopt peer init).setConn s.made c).record other = s.record other := by
  simp [setConn, setRecord, adopt, hne]

theorem reap_record (hlive : (!(s.record id).retire) = true) : (s.reap h).record id = s.record id := by
  show (if id ∈ s.peers.filter _ then _ else _) = _
  rw [if_neg]
  rw [Bool.not_eq_true'] at hlive
  simp [hlive]

namespace Sound

variable (hs : s.Sound maxClients)

include hs

theorem mem_registered : id ∈ s.registered ↔ id ∈ s.peers ∧ (s.record id).retire = false := by
  rw [hs.registered, List.mem_filter, Bool.not_eq_true']

theorem peers_nodup : s.peers.Nodup := hs.peers.nodup hs.distinct

theorem clientCount_eq : s.clientCount = s.registered.length := by
  rw [clientCount, List.countP_eq_length_filter, hs.registered]

/-- A record that only turns from live to retired. -/
theorem setRecord (hid : id ∈ s.peers) {t : PeerRecord ρ}
    (hretired : (s.record id).retire = true → t.retire = true)
    (hsteady : t.retire = false → t.conn.Steady) (hdelivers : t.conn.Delivers) :
    Sound maxClients { s.setRecord id t with
      registered := if t.retire then s.registered.erase id else s.registered } where
  distinct := hs.distinct
  made := hs.made
  peers := hs.peers
  registered := by
    show (if t.retire then s.registered.erase id else s.registered) =
      s.peers.filter fun other => !((s.setRecord id t).record other).retire
    have hother : ∀ other ∈ s.peers.filter fun other => !((s.setRecord id t).record other).retire,
        other = id → t.retire = false := by
      rintro other hmem rfl
      simpa using (List.mem_filter.mp hmem).2
    cases hretire : t.retire with
    | false =>
      rw [if_neg Bool.false_ne_true, hs.registered]
      refine List.filter_congr fun other _ => ?_
      rcases eq_or_ne other id with rfl | hne
      · rw [setRecord_self, hretire]
        cases hbefore : (s.record other).retire with
        | false => rfl
        | true => exact absurd (hretired hbefore) (by rw [hretire]; exact Bool.false_ne_true)
      · rw [setRecord_ne t hne]
    | true =>
      rw [if_pos rfl, hs.registered, (hs.peers_nodup.filter _).erase_eq_filter, List.filter_filter]
      refine List.filter_congr fun other _ => ?_
      rcases eq_or_ne other id with rfl | hne
      · simp [hretire]
      · simp [setRecord_ne t hne, hne]
  room := by
    refine Nat.le_trans ?_ hs.room
    show (if t.retire then _ else _ : List ℕ).length ≤ _
    split
    · exact (List.erase_sublist).length_le
    · exact Nat.le_refl _
  opened other hopen := by
    rcases eq_or_ne other id with rfl | hne
    · exact hid
    · refine hs.opened other ?_
      rwa [← setRecord_ne (s := s) t hne]
  steady other hother := by
    show (((s.setRecord id t).record other).conn).Steady
    have hnodup : s.registered.Nodup := hs.registered ▸ hs.peers_nodup.filter _
    dsimp only at hother
    rcases eq_or_ne other id with rfl | hne
    · rw [setRecord_self]
      refine hsteady (Bool.eq_false_iff.mpr fun hretire => ?_)
      rw [if_pos hretire] at hother
      exact hnodup.not_mem_erase hother
    · rw [setRecord_ne t hne]
      refine hs.steady other ?_
      split at hother
      · exact List.mem_of_mem_erase hother
      · exact hother
  delivers other := by
    show (((s.setRecord id t).record other).conn).Delivers
    rcases eq_or_ne other id with rfl | hne
    · rwa [setRecord_self]
    · rw [setRecord_ne t hne]
      exact hs.delivers other
  stopped := hs.stopped

theorem setConn (hid : id ∈ s.registered) {c : Connection} (hc : c.Steady) :
    (s.setConn id c).Sound maxClients := by
  obtain ⟨hpeer, hlive⟩ := hs.mem_registered.mp hid
  have hsound := hs.setRecord hpeer (t := { s.record id with conn := c }) (fun hretire => hretire)
    (fun _ => hc) hc.delivers
  rw [if_neg (by rw [hlive]; exact Bool.false_ne_true)] at hsound
  exact hsound

theorem turn {f : PeerRecord ρ → PeerRecord ρ} (hf : Handler f) : (s.turn id f).Sound maxClients := by
  unfold ClientServer.turn
  split
  · rename_i hid
    refine hs.setRecord hid (hf.retired _) (fun hlive => ?_) ((hf.written _).delivers (hs.delivers id))
    refine (hf.written _).steady (hs.steady id (hs.mem_registered.mpr ⟨hid, ?_⟩))
    exact Bool.eq_false_iff.mpr fun hretire => by
      rw [hf.retired _ hretire] at hlive
      cases hlive
  · exact hs

/-- The last thing that happens to a connection before its client is retired. -/
theorem setConn_retire (hid : id ∈ s.peers) {c : Connection} (hc : c.Delivers) :
    ((s.setConn id c).retire id).Sound maxClients := by
  have hsound := hs.setRecord hid (t := { s.record id with conn := c, retire := true })
    (fun _ => rfl) nofun hc
  have heq : (s.setConn id c).retire id =
      { s.setRecord id { s.record id with conn := c, retire := true } with
        registered := s.registered.erase id } := by
    unfold ClientServer.retire ClientServer.turn
    rw [if_pos (show id ∈ (s.setConn id c).peers from hid)]
    simp [ClientServer.setConn, ClientServer.setRecord]
  rw [heq]
  exact hsound

theorem receive (hid : id ∈ s.registered) (data : List UInt8) :
    (s.receive id data).Sound maxClients :=
  hs.setConn hid ⟨(hs.steady id hid).opened, (hs.steady id hid).consistent, (hs.steady id hid).sound⟩

theorem hangUp (hid : id ∈ s.registered) : (s.hangUp h id).Sound maxClients :=
  hs.setConn_retire (hs.mem_registered.mp hid).1 (hs.delivers id)

theorem flush (hid : id ∈ s.registered) {drained : PeerRecord ρ → PeerRecord ρ}
    (hdrained : Handler drained) : (s.flush h id drained).Sound maxClients := by
  obtain ⟨hdelivers, hsteady⟩ := (hs.steady id hid).flush (h id)
  unfold ClientServer.flush
  dsimp only
  split
  · exact hs.setConn_retire (hs.mem_registered.mp hid).1 hdelivers
  · rename_i herror
    have hkept := hs.setConn hid (hsteady (not_not.mp herror))
    split
    · exact hkept.turn hdrained
    · exact hkept

theorem made_notMem : s.made ∉ s.owned := fun hmem => Nat.lt_irrefl _ (hs.made _ hmem)

section Admission

variable (peer : Socket) (init : ρ) {c : Connection}

theorem adopt_filter : (s.peers.filter fun id =>
    !(((s.adopt peer init).setConn s.made c).record id).retire) = s.registered := by
  rw [hs.registered]
  refine List.filter_congr fun other hother => ?_
  rw [adopt_ne peer init c fun heq => hs.made_notMem (heq ▸ hs.peers.subset hother)]

theorem adopt_distinct : (s.owned ++ [s.made]).Nodup :=
  List.nodup_append.mpr ⟨hs.distinct, List.nodup_singleton _, fun _ ha _ hb hab =>
    hs.made_notMem (List.mem_singleton.mp hb ▸ hab ▸ ha)⟩

theorem adopt_made : ∀ id ∈ s.owned ++ [s.made], id < s.made + 1 := by
  intro other hother
  rcases List.mem_append.mp hother with hold | hnew
  · exact Nat.lt_succ_of_lt (hs.made other hold)
  · rw [List.mem_singleton.mp hnew]
    exact Nat.lt_succ_self _

theorem adopt_delivers (hc : c.Delivers) (other : ℕ) :
    (((s.adopt peer init).setConn s.made c).record other).conn.Delivers := by
  rcases eq_or_ne other s.made with rfl | hne
  · rwa [adopt_self]
  · rw [adopt_ne peer init c hne]
    exact hs.delivers other

theorem adopt_steady {other : ℕ} (hother : other ∈ s.registered) :
    (((s.adopt peer init).setConn s.made c).record other).conn.Steady := by
  have hne : other ≠ s.made := fun heq =>
    hs.made_notMem (heq ▸ hs.peers.subset (hs.mem_registered.mp hother).1)
  rw [adopt_ne peer init c hne]
  exact hs.steady other hother

/-- A refused client keeps its place in the collection of the listener. -/
theorem refuse (hopen : c.isOpen = false) (hc : c.Delivers) :
    ((s.adopt peer init).setConn s.made c).Sound maxClients where
  distinct := hs.adopt_distinct
  made := hs.adopt_made
  peers := hs.peers.trans (List.sublist_append_left _ _)
  registered := (hs.adopt_filter peer init).symm
  room := hs.room
  opened other hother := by
    rcases eq_or_ne other s.made with rfl | hne
    · rw [adopt_self, hopen] at hother
      cases hother
    · rw [adopt_ne peer init c hne] at hother
      exact hs.opened other hother
  steady other := hs.adopt_steady peer init
  delivers := hs.adopt_delivers peer init hc
  stopped := hs.stopped

theorem welcome (hc : c.Steady) (hroom : s.registered.length < maxClients) (hrun : s.running = true) :
    Sound maxClients { (s.adopt peer init).setConn s.made c with
      registered := s.registered ++ [s.made]
      peers := s.peers ++ [s.made] } where
  distinct := hs.adopt_distinct
  made := hs.adopt_made
  peers := hs.peers.append (List.Sublist.refl _)
  registered := by
    show s.registered ++ [s.made] = (s.peers ++ [s.made]).filter _
    rw [List.filter_append, hs.adopt_filter peer init]
    congr 1
    simp [adopt_self]
  room := by
    show (s.registered ++ [s.made]).length ≤ maxClients
    rw [List.length_append]
    exact hroom
  opened other hother := by
    rcases eq_or_ne other s.made with rfl | hne
    · exact List.mem_append_right _ (List.mem_singleton_self _)
    · rw [adopt_ne peer init c hne] at hother
      exact List.mem_append_left _ (hs.opened other hother)
  steady other hother := by
    rcases List.mem_append.mp hother with hold | hnew
    · exact hs.adopt_steady peer init hold
    · rw [List.mem_singleton.mp hnew, adopt_self]
      exact hc
  delivers := hs.adopt_delivers peer init hc.delivers
  stopped hstop := by
    rw [show s.running = false from hstop] at hrun
    cases hrun

/-- What `enroll` does, if the object has been made. -/
theorem enroll_cases (maxQueuedBytes : UInt64) :
    (∃ c, c.isOpen = false ∧ c.Delivers ∧ c.accepted = [] ∧ c.received = [] ∧
      s.enroll h maxClients maxQueuedBytes peer init = (none, (s.adopt peer init).setConn s.made c)) ∨
    (s.registered.length < maxClients ∧
      s.enroll h maxClients maxQueuedBytes peer init =
        (some true, { (s.adopt peer init).setConn s.made
            ((Connection.ofAccepted peer).setMaxQueuedBytes maxQueuedBytes).2 with
          registered := s.registered ++ [s.made]
          peers := s.peers ++ [s.made] })) := by
  have hcount : (s.adopt peer init).clientCount = s.registered.length := by
    rw [← hs.clientCount_eq]
    refine List.countP_congr fun other hother => ?_
    have hne : other ≠ s.made := fun heq => hs.made_notMem (heq ▸ hs.peers.subset hother)
    show _ = true ↔ _ = true
    rw [adopt, setRecord_ne _ hne]
  have hself : ((s.adopt peer init).record s.made).conn = .ofAccepted peer := by
    simp [adopt, ClientServer.setRecord]
  have hfresh : s.made ∉ s.registered := fun hmem =>
    hs.made_notMem (hs.peers.subset (hs.mem_registered.mp hmem).1)
  unfold ClientServer.enroll
  dsimp only
  rw [hcount, hself]
  split
  · exact .inl ⟨_, Connection.isOpen_close _ _, (Connection.delivers_ofAccepted peer).close _, rfl, rfl, rfl⟩
  · rename_i hroom
    split
    · have hkept : ((Connection.ofAccepted peer).setMaxQueuedBytes maxQueuedBytes).2.Delivers :=
        Connection.delivers_ofAccepted peer
      exact .inl ⟨_, Connection.isOpen_close _ _, hkept.close _, rfl, rfl, rfl⟩
    · refine .inr ⟨Nat.lt_of_not_le hroom, ?_⟩
      rw [ClientServer.add, if_neg (show s.made ∉ ((s.adopt peer init).setConn s.made _).registered from
        hfresh)]
      rfl

theorem enroll (peer : Incoming) (maxQueuedBytes : UInt64) (hrun : s.running = true) :
    (s.enroll h maxClients maxQueuedBytes peer init).2.Sound maxClients := by
  rcases hs.enroll_cases (h := h) peer.1 init maxQueuedBytes with
    ⟨c, hopen, hc, -, -, heq⟩ | ⟨hroom, heq⟩
  · rw [heq]
    exact hs.refuse peer.1 init hopen hc
  · rw [heq]
    exact hs.welcome peer.1 init ((Connection.steady_ofAccepted peer).setMaxQueuedBytes _) hroom hrun

end Admission

/-- What is left after `reap` is live. -/
theorem reap : (s.reap h).Sound maxClients ∧ (s.reap h).registered = (s.reap h).peers := by
  have hgone {id : ℕ} (hid : id ∈ s.peers) :
      id ∉ s.peers.filter (fun id => (s.record id).retire) ↔ (s.record id).retire = false := by
    simp [hid]
  have hkept {id : ℕ} (hid : (s.record id).retire = false) :
      (s.reap h).record id = s.record id := reap_record (by rw [hid]; rfl)
  have hretire (id : ℕ) : ((s.reap h).record id).retire = (s.record id).retire := by
    show (if id ∈ s.peers.filter _ then _ else _ : PeerRecord ρ).retire = _
    split <;> rfl
  refine ⟨⟨hs.distinct.filter _, fun id hid => hs.made id (List.mem_filter.mp hid).1, ?_, ?_, hs.room,
    fun id hopen => ?_, fun id hid => ?_, fun id => ?_, fun hstop => ?_⟩, hs.registered⟩
  · have hfilter : (s.reap h).peers =
        s.peers.filter (· ∉ s.peers.filter fun id => (s.record id).retire) :=
      List.filter_congr fun id hid => by
        rw [Bool.eq_iff_iff, decide_eq_true_eq, hgone hid, Bool.not_eq_true']
    rw [hfilter]
    exact hs.peers.filter _
  · show s.registered = (s.peers.filter _).filter _
    rw [List.filter_filter, hs.registered]
    exact List.filter_congr fun id _ => by rw [hretire, Bool.and_self]
  · show id ∈ s.peers.filter _
    have hlive : (s.record id).retire = false := by
      by_contra htrue
      have htrue := eq_true_of_ne_false htrue
      by_cases hid : id ∈ s.peers
      · have hclosed : (s.reap h).record id =
            { s.record id with conn := (s.record id).conn.close (h id) } :=
          if_pos (List.mem_filter.mpr ⟨hid, htrue⟩)
        rw [hclosed, Connection.isOpen_close] at hopen
        cases hopen
      · have hsame : (s.reap h).record id = s.record id :=
          if_neg fun hmem => hid (List.mem_filter.mp hmem).1
        rw [hsame] at hopen
        exact hid (hs.opened id hopen)
    rw [hkept hlive] at hopen
    exact List.mem_filter.mpr ⟨hs.opened id hopen, by rw [hlive]; rfl⟩
  · rw [hkept (hs.mem_registered.mp hid).2]
    exact hs.steady id hid
  · show (if id ∈ s.peers.filter _ then _ else _ : PeerRecord ρ).conn.Delivers
    split
    · exact hs.delivers id
    · exact hs.delivers id
  · show s.peers.filter _ = []
    rw [hs.stopped hstop]
    rfl

theorem orderly (hlive : s.registered = s.peers) : Orderly maxClients s where
  room := hs.clientCount_eq ▸ hs.room
  opened id := ⟨fun hid => (hs.steady id hid).opened, fun hopen => hlive ▸ hs.opened id hopen⟩
  registered := hlive
  owned := ⟨hs.peers, hs.distinct⟩
  live _ hid := (hs.mem_registered.mp (hlive ▸ hid)).2
  stopped := hs.stopped

theorem closeOwnedPeers_closed (id : ℕ) : ((s.closeOwnedPeers h).record id).conn.isOpen = false := by
  show (if id ∈ s.owned then _ else _ : PeerRecord ρ).conn.isOpen = false
  split
  · exact Connection.isOpen_close _ _
  · rename_i hid
    exact Bool.eq_false_iff.mpr fun hopen => hid (hs.peers.subset (hs.opened id hopen))

theorem closeOwnedPeers_delivers (id : ℕ) : ((s.closeOwnedPeers h).record id).conn.Delivers := by
  show (if id ∈ s.owned then _ else _ : PeerRecord ρ).conn.Delivers
  split <;> exact hs.delivers id

theorem stop : (s.stop h).Sound maxClients := by
  unfold ClientServer.stop
  split
  · exact hs
  · refine ⟨hs.distinct, hs.made, List.nil_sublist _, rfl, Nat.zero_le _, fun id hopen => ?_, nofun,
      hs.closeOwnedPeers_delivers, fun _ => rfl⟩
    rw [show _ = false from hs.closeOwnedPeers_closed id] at hopen
    cases hopen

/-- Registered clients that `poll` retires one after the other. -/
theorem retireWhere (ids : List ℕ) (late : PeerRecord ρ → Bool) : (ids.foldl (fun s id =>
    if late (s.record id) then s.retire id else s) s).Sound maxClients := by
  refine List.foldlRecOn ids _ hs fun s hs id _ => ?_
  split
  · exact hs.turn handles_retire
  · exact hs

theorem eachLive {f : PeerRecord ρ → PeerRecord ρ} (hf : Handler f) : (s.eachLive f).Sound maxClients := by
  refine List.foldlRecOn s.peers _ hs fun s hs id _ => ?_
  split
  · exact hs
  · exact hs.turn hf

theorem polling (b : Bool) : Sound maxClients { s with polling := b } :=
  ⟨hs.distinct, hs.made, hs.peers, hs.registered, hs.room, hs.opened, hs.steady, hs.delivers, hs.stopped⟩

/-- The listener of a server that is started closes what is left of an earlier time. -/
theorem restart (hstop : s.running = false) :
    Sound maxClients { s.closeOwnedPeers h with running := true } where
  distinct := hs.distinct
  made := hs.made
  peers := hs.peers
  registered := by
    show s.registered = s.peers.filter _
    rw [hs.registered, hs.stopped hstop]
    rfl
  room := hs.room
  opened id hopen := by
    rw [show _ = false from hs.closeOwnedPeers_closed id] at hopen
    cases hopen
  steady id hid := by
    have hpeer := (hs.mem_registered.mp hid).1
    rw [hs.stopped hstop] at hpeer
    cases hpeer
  delivers := hs.closeOwnedPeers_delivers
  stopped := nofun

end Sound

end Soundness

section Running

variable {h} (s : ClientServer ρ) (id : ℕ)

@[simp] theorem turn_running (f : PeerRecord ρ → PeerRecord ρ) : (s.turn id f).running = s.running := by
  unfold turn
  split <;> rfl

@[simp] theorem turn_peers (f : PeerRecord ρ → PeerRecord ρ) : (s.turn id f).peers = s.peers := by
  unfold turn
  split <;> rfl

@[simp] theorem turn_made (f : PeerRecord ρ → PeerRecord ρ) : (s.turn id f).made = s.made := by
  unfold turn
  split <;> rfl

@[simp] theorem turn_polling (f : PeerRecord ρ → PeerRecord ρ) : (s.turn id f).polling = s.polling := by
  unfold turn
  split <;> rfl

theorem turn_registered (f : PeerRecord ρ → PeerRecord ρ) {other : ℕ}
    (hother : other ∈ (s.turn id f).registered) : other ∈ s.registered := by
  unfold turn at hother
  split at hother
  · dsimp only at hother
    split at hother
    · exact List.mem_of_mem_erase hother
    · exact hother
  · exact hother

theorem stop_registered {s : ClientServer ρ} (hlive : s.registered = s.peers) :
    (s.stop h).registered = (s.stop h).peers := by
  unfold ClientServer.stop
  split
  · exact hlive
  · rfl

theorem setRecord_keeps {α : Type} (g : PeerRecord ρ → α) {t : PeerRecord ρ} (ht : g t = g (s.record id))
    (other : ℕ) : g ((s.setRecord id t).record other) = g (s.record other) := by
  rcases eq_or_ne other id with rfl | hne
  · rw [setRecord_self, ht]
  · rw [setRecord_ne t hne]

/-- What a handler leaves alone. -/
theorem turn_keeps {α : Type} (g : PeerRecord ρ → α) {f : PeerRecord ρ → PeerRecord ρ}
    (hg : ∀ t, g (f t) = g t) (other : ℕ) : g ((s.turn id f).record other) = g (s.record other) := by
  unfold turn
  split
  · exact setRecord_keeps s id g (hg _) other
  · rfl

@[simp] theorem retire_running : (s.retire id).running = s.running := s.turn_running id _

@[simp] theorem hangUp_running : (s.hangUp h id).running = s.running := turn_running _ id _

@[simp] theorem flush_running (drained : PeerRecord ρ → PeerRecord ρ) :
    (s.flush h id drained).running = s.running := by
  unfold flush
  dsimp only
  split
  · exact turn_running _ id _
  · split
    · exact turn_running _ id _
    · rfl

@[simp] theorem enroll_running (maxClients : ℕ) (maxQueuedBytes : UInt64) (peer : Socket) (init : ρ) :
    (s.enroll h maxClients maxQueuedBytes peer init).2.running = s.running := by
  unfold enroll add
  dsimp only
  split
  · rfl
  · split
    · rfl
    · split <;> rfl

end Running

section Loops

variable {s : ClientServer ρ} {f : PeerRecord ρ → PeerRecord ρ}

theorem eachLive_frame (s : ClientServer ρ) (f : PeerRecord ρ → PeerRecord ρ) :
    (s.eachLive f).peers = s.peers ∧ (s.eachLive f).running = s.running ∧ (s.eachLive f).made = s.made := by
  refine List.foldlRecOn (motive := fun t : ClientServer ρ => t.peers = s.peers ∧
    t.running = s.running ∧ t.made = s.made) s.peers _ ⟨rfl, rfl, rfl⟩ fun t ht id _ => ?_
  split
  · exact ht
  · exact ⟨(t.turn_peers id f).trans ht.1, (t.turn_running id f).trans ht.2.1, (t.turn_made id f).trans ht.2.2⟩

theorem turn_record_ne {id other : ℕ} (hne : other ≠ id) : (s.turn id f).record other = s.record other := by
  unfold turn
  split
  · exact setRecord_ne _ hne
  · rfl

theorem turn_record_self {id : ℕ} (hid : id ∈ s.peers) : (s.turn id f).record id = f (s.record id) := by
  rw [turn, if_pos hid]
  exact setRecord_self _

/-- The loop does its work once for each client that is not retired. -/
theorem foldl_turn_record (ids : List ℕ) (hnodup : ids.Nodup) (hids : ∀ id ∈ ids, id ∈ s.peers) (other : ℕ) :
    (ids.foldl (fun s id => if (s.record id).retire then s else s.turn id f) s).record other =
      if other ∈ ids ∧ (s.record other).retire = false then f (s.record other) else s.record other := by
  induction ids generalizing s with
  | nil => rw [if_neg (fun h => List.not_mem_nil h.1)]; rfl
  | cons id ids ih =>
    obtain ⟨hid, hnodup⟩ := List.nodup_cons.mp hnodup
    have hmember := hids id List.mem_cons_self
    rw [List.foldl_cons]
    have hpeers : (if (s.record id).retire = true then s else s.turn id f).peers = s.peers := by
      split
      · rfl
      · exact s.turn_peers id f
    rw [ih hnodup fun k hk => hpeers ▸ hids k (List.mem_cons_of_mem _ hk)]
    rcases eq_or_ne other id with rfl | hne
    · rw [if_neg fun h => hid h.1]
      by_cases hretire : (s.record other).retire = true
      · rw [if_pos hretire, if_neg (by simp [hretire])]
      · rw [if_neg hretire, if_pos ⟨List.mem_cons_self, Bool.eq_false_iff.mpr hretire⟩,
          turn_record_self hmember]
    · have hsame : (if (s.record id).retire = true then s else s.turn id f).record other = s.record other := by
        split
        · rfl
        · exact turn_record_ne hne
      rw [hsame]
      simp [hne]

theorem eachLive_record (hpeers : s.peers.Nodup) (id : ℕ) : (s.eachLive f).record id =
    if id ∈ s.peers ∧ (s.record id).retire = false then f (s.record id) else s.record id :=
  foldl_turn_record s.peers hpeers (fun _ hid => hid) id

end Loops

section Retiring

variable {s : ClientServer ρ} {late : PeerRecord ρ → Bool}
  (hlate : ∀ t : PeerRecord ρ, late { t with retire := true } = false)

include hlate

theorem retire_late (id other : ℕ) (hother : late (s.record other) = false) :
    late ((s.retire id).record other) = false := by
  unfold retire turn
  split
  · show late ((s.setRecord id _).record other) = false
    rcases eq_or_ne other id with rfl | hne
    · rw [setRecord_self]
      exact hlate _
    · rwa [setRecord_ne _ hne]
  · exact hother

/-- Nobody whom `poll` has looked at is late afterwards. -/
theorem retireWhere_late (ids : List ℕ) : ∀ id ∈ s.peers, id ∈ ids ∨ late (s.record id) = false →
    late ((ids.foldl (fun s id => if late (s.record id) then s.retire id else s) s).record id) = false := by
  induction ids generalizing s with
  | nil => exact fun id _ hid => hid.resolve_left List.not_mem_nil
  | cons first ids ih =>
    intro id hpeer hid
    rw [List.foldl_cons]
    have hpeers : (if late (s.record first) then s.retire first else s).peers = s.peers := by
      split
      · exact s.turn_peers first _
      · rfl
    refine ih id (hpeers ▸ hpeer) (or_iff_not_imp_left.mpr fun hlater => ?_)
    by_cases hfirst : id = first
    · subst hfirst
      by_cases hnow : late (s.record id) = true
      · rw [if_pos hnow]
        unfold retire turn
        rw [if_pos hpeer]
        show late ((s.setRecord id _).record id) = false
        rw [setRecord_self]
        exact hlate _
      · rw [if_neg hnow]
        exact Bool.eq_false_iff.mpr hnow
    · have hbefore : late (s.record id) = false :=
        hid.resolve_left fun hmem => (List.mem_cons.mp hmem).elim hfirst hlater
      split
      · exact retire_late hlate first id hbefore
      · exact hbefore

end Retiring

/-- Some sockets have been worked on, and some clients are no longer registered. -/
structure Quiet (s s' : ClientServer ρ) : Prop where
  accepted : ∀ id, (s'.record id).conn.accepted = (s.record id).conn.accepted
  received : ∀ id, (s'.record id).conn.received = (s.record id).conn.received
  data : ∀ id, (s'.record id).data = (s.record id).data
  registered : ∀ id ∈ s'.registered, id ∈ s.registered
  made : s'.made = s.made

namespace Quiet

variable {h} {s s' s'' : ClientServer ρ} {id : ℕ}

theorem refl (s : ClientServer ρ) : s.Quiet s :=
  ⟨fun _ => rfl, fun _ => rfl, fun _ => rfl, fun _ hid => hid, rfl⟩

theorem trans (h : s.Quiet s') (h' : s'.Quiet s'') : s.Quiet s'' :=
  ⟨fun id => (h'.accepted id).trans (h.accepted id), fun id => (h'.received id).trans (h.received id),
    fun id => (h'.data id).trans (h.data id), fun id hid => h.registered id (h'.registered id hid),
    h'.made.trans h.made⟩

theorem setRecord {t : PeerRecord ρ} (haccepted : t.conn.accepted = (s.record id).conn.accepted)
    (hreceived : t.conn.received = (s.record id).conn.received) (hdata : t.data = (s.record id).data) :
    s.Quiet (s.setRecord id t) :=
  ⟨setRecord_keeps s id (·.conn.accepted) haccepted, setRecord_keeps s id (·.conn.received) hreceived,
    setRecord_keeps s id (·.data) hdata, fun _ hid => hid, rfl⟩

theorem turn (s : ClientServer ρ) (id : ℕ) {f : PeerRecord ρ → PeerRecord ρ}
    (haccepted : ∀ t, (f t).conn.accepted = t.conn.accepted)
    (hreceived : ∀ t, (f t).conn.received = t.conn.received) (hdata : ∀ t, (f t).data = t.data) :
    s.Quiet (s.turn id f) :=
  ⟨turn_keeps s id (·.conn.accepted) haccepted, turn_keeps s id (·.conn.received) hreceived,
    turn_keeps s id (·.data) hdata, fun _ => turn_registered s id f, turn_made s id f⟩

theorem retire (s : ClientServer ρ) (id : ℕ) : s.Quiet (s.retire id) :=
  turn s id (fun _ => rfl) (fun _ => rfl) fun _ => rfl

theorem hangUp (s : ClientServer ρ) (id : ℕ) : s.Quiet (s.hangUp h id) := by
  have hclosed : s.Quiet (s.setConn id ((s.record id).conn.close (h id))) := setRecord rfl rfl rfl
  exact hclosed.trans (retire _ id)

theorem flush (s : ClientServer ρ) (id : ℕ) {drained : PeerRecord ρ → PeerRecord ρ}
    (haccepted : ∀ t, (drained t).conn.accepted = t.conn.accepted)
    (hreceived : ∀ t, (drained t).conn.received = t.conn.received)
    (hdata : ∀ t, (drained t).data = t.data) : s.Quiet (s.flush h id drained) := by
  have hflushed : s.Quiet (s.setConn id ((s.record id).conn.flush (h id)).2) := setRecord rfl rfl rfl
  unfold ClientServer.flush
  dsimp only
  split
  · exact hflushed.trans (retire _ id)
  · split
    · exact hflushed.trans (turn _ id haccepted hreceived hdata)
    · exact hflushed

theorem retireWhere (s : ClientServer ρ) (ids : List ℕ) (late : PeerRecord ρ → Bool) :
    s.Quiet (ids.foldl (fun s id => if late (s.record id) then s.retire id else s) s) := by
  refine List.foldlRecOn ids _ (refl s) fun t ht id _ => ?_
  split
  · exact ht.trans (retire t id)
  · exact ht

theorem closing (s : ClientServer ρ) (p : ℕ → Prop) [DecidablePred p] (registered owned peers : List ℕ)
    (running : Bool) (hregistered : ∀ id ∈ registered, id ∈ s.registered) :
    s.Quiet { s with
      record := fun id => if p id then { s.record id with conn := (s.record id).conn.close (h id) }
        else s.record id
      registered, owned, peers, running } := by
  have hrecord {α : Type} (f : PeerRecord ρ → α)
      (hf : ∀ id, f { s.record id with conn := (s.record id).conn.close (h id) } = f (s.record id)) (id : ℕ) :
      f (if p id then { s.record id with conn := (s.record id).conn.close (h id) } else s.record id) =
        f (s.record id) := by
    split
    · exact hf id
    · rfl
  exact ⟨hrecord (·.conn.accepted) fun _ => rfl, hrecord (·.conn.received) fun _ => rfl,
    hrecord (·.data) fun _ => rfl, hregistered, rfl⟩

theorem reap (s : ClientServer ρ) : s.Quiet (s.reap h) :=
  closing s _ s.registered _ _ s.running fun _ hid => hid

theorem restart (s : ClientServer ρ) : s.Quiet { s.closeOwnedPeers h with running := true } :=
  closing s _ s.registered s.owned s.peers true fun _ hid => hid

theorem stop (s : ClientServer ρ) : s.Quiet (s.stop h) := by
  unfold ClientServer.stop
  split
  · exact .refl s
  · exact closing s _ [] s.owned [] false fun _ hid => absurd hid List.not_mem_nil

end Quiet

/-- What stays true of a record whatever becomes of its socket, and when it is retired. -/
structure Lasting (P : PeerRecord ρ → Prop) : Prop where
  conn : ∀ t c, c.accepted = t.conn.accepted → c.received = t.conn.received → P t → P { t with conn := c }
  retire : ∀ t, P t → P { t with retire := true }

/-- The property holds of every record, also of those whose socket is gone. -/
def Every (P : PeerRecord ρ → Prop) (s : ClientServer ρ) : Prop := ∀ id, P (s.record id)

section Records

variable {h} {P : PeerRecord ρ → Prop} {s : ClientServer ρ} {id : ℕ} (hs : s.Every P) (hP : Lasting P)

include hs

namespace Every

theorem setRecord (id : ℕ) {t : PeerRecord ρ} (ht : P t) : (s.setRecord id t).Every P := by
  intro other
  rcases eq_or_ne other id with rfl | hne
  · rwa [setRecord_self]
  · rw [setRecord_ne t hne]
    exact hs other

theorem turn (id : ℕ) {f : PeerRecord ρ → PeerRecord ρ} (hf : ∀ t, P t → P (f t)) :
    (s.turn id f).Every P := by
  unfold ClientServer.turn
  split
  · exact hs.setRecord id (hf _ (hs id))
  · exact hs

/-- The data handler is given what has been received. -/
theorem receive_turn (hid : id ∈ s.peers) {data : List UInt8} {f : PeerRecord ρ → PeerRecord ρ}
    (hf : ∀ t, P t → P (f { t with conn := { t.conn with received := t.conn.received ++ data } })) :
    ((s.receive id data).turn id f).Every P := by
  intro other
  unfold ClientServer.turn
  rw [if_pos (show id ∈ (s.receive id data).peers from hid)]
  rcases eq_or_ne other id with rfl | hne
  · simpa [ClientServer.receive, ClientServer.setConn, ClientServer.setRecord] using hf _ (hs other)
  · simpa [ClientServer.receive, ClientServer.setConn, ClientServer.setRecord, hne] using hs other

include hP

theorem setConn (id : ℕ) {c : Connection} (haccepted : c.accepted = (s.record id).conn.accepted)
    (hreceived : c.received = (s.record id).conn.received) : (s.setConn id c).Every P :=
  hs.setRecord id (hP.conn _ c haccepted hreceived (hs id))

theorem retire (id : ℕ) : (s.retire id).Every P := hs.turn id hP.retire

theorem hangUp (id : ℕ) : (s.hangUp h id).Every P := by
  have hclosed : (s.setConn id ((s.record id).conn.close (h id))).Every P := hs.setConn hP id rfl rfl
  exact hclosed.retire hP id

theorem flush (id : ℕ) {drained : PeerRecord ρ → PeerRecord ρ} (hdrained : ∀ t, P t → P (drained t)) :
    (s.flush h id drained).Every P := by
  have hflushed : (s.setConn id ((s.record id).conn.flush (h id)).2).Every P := hs.setConn hP id rfl rfl
  unfold ClientServer.flush
  dsimp only
  split
  · exact hflushed.retire hP id
  · split
    · exact hflushed.turn id hdrained
    · exact hflushed

theorem closing (p : ℕ → Prop) [DecidablePred p] (id : ℕ) :
    P (if p id then { s.record id with conn := (s.record id).conn.close (h id) } else s.record id) := by
  split
  · exact hP.conn _ _ rfl rfl (hs id)
  · exact hs id

theorem reap : (s.reap h).Every P := hs.closing hP _

theorem closeOwnedPeers : (s.closeOwnedPeers h).Every P := hs.closing hP _

theorem stop : (s.stop h).Every P := by
  unfold ClientServer.stop
  split
  · exact hs
  · exact hs.closeOwnedPeers hP

theorem enroll (maxClients : ℕ) (maxQueuedBytes : UInt64) (peer : Socket) {init : ρ}
    (hfresh : P { conn := .ofAccepted peer, data := init }) :
    (s.enroll h maxClients maxQueuedBytes peer init).2.Every P := by
  have hadopt : (s.adopt peer init).Every P := hs.setRecord s.made hfresh
  unfold ClientServer.enroll
  dsimp only
  split
  · exact hadopt.setConn hP _ rfl rfl
  · split
    · exact hadopt.setConn hP _ rfl rfl
    · have hset : ((s.adopt peer init).setConn s.made
          (((s.adopt peer init).record s.made).conn.setMaxQueuedBytes maxQueuedBytes).2).Every P :=
        hadopt.setConn hP _ rfl rfl
      unfold ClientServer.add
      split
      · exact hset
      · exact hset

theorem retireWhere (ids : List ℕ) (late : PeerRecord ρ → Bool) : (ids.foldl (fun s id =>
    if late (s.record id) then s.retire id else s) s).Every P := by
  refine List.foldlRecOn ids _ hs fun s hs id _ => ?_
  split
  · exact Every.retire hs hP id
  · exact hs

end Every

end Records

end ClientServer

end Aeon
