import Aeon.SeparatePrograms
import Aeon.SessionFailure

/-!
# Programs and sessions that have failed

The life of a TLS object is a sequence of entries, whatever the program is.  A
session that is marked as failed is left alone exactly when no entry tries it.
-/

namespace Aeon

open Program Reentrant EventWorld EventLoop

namespace SslEventSocket

/-- What runs on a TLS object: its functions, those of its base object, and the
parts of a connect. -/
inductive Entry
  | base (f : Socket → Socket) (hf : Socket.Aside f)
  | dial (f : Socket → Socket) (hf : Socket.Plain f) (hoff : ∀ b, (f b).connected = false)
  | start (f : Socket → Socket) (hf : Socket.Plain f) (identity : String)
  | closeBase
  | close
  | pollHasBufferedInput
  | pollTimeoutMs
  | pollStep (flags : Flags)
  | pollReceive
  | flushQueued
  | fail (code : Int)
  | exec (c : EventCall)
  | directWrite (data : List UInt8)
  | notifyWrite (data : List UInt8) (n : Int)

/-- The `read` functions call `SSL_read` on a session that is ready. -/
def asks : ReadCall → Prop
  | .buffer given size => given = true ∧ size > 0
  | .line given size | .until given size => given = true ∧ size > 1
  | .internal | .shift => True
  | .string size => size > 0

namespace Entry

def run (e : NetHost) (s : SslEventSocket) : Entry → EventObject
  | base f _ | dial f _ _ => .tls { s with toSocket := f s.toSocket }
  | start f _ identity => .tls (startClient e.tls identity { s with toSocket := f s.toSocket }).2
  | closeBase => ((EventObject.tls s).onSocket (Socket.close e.tls.toHost)).2
  | close => ((EventObject.tls s).close e).2
  | pollHasBufferedInput => ((EventObject.tls s).pollHasBufferedInput e).2
  | pollTimeoutMs => ((EventObject.tls s).pollTimeoutMs e).2
  | pollStep flags => ((EventObject.tls s).pollStep e flags).2
  | pollReceive => ((EventObject.tls s).pollReceive e).2
  | flushQueued => ((EventObject.tls s).flushQueued e).2
  | fail code => (EventObject.tls s).fail code
  | exec c => (EventObject.tls s).exec e c
  | directWrite data => ((EventObject.tls s).directWrite e data).2
  | notifyWrite data n => (EventObject.tls s).notify (.write data n)

/-- The entry gets as far as OpenSSL when the session is ready. -/
def Tries (e : NetHost) (s : SslEventSocket) : Entry → Prop
  | pollStep flags => s.callsShutdown e.tls flags
  | pollReceive => True
  | flushQueued => s.sendsQueued
  | exec (.read c) => asks c
  | directWrite data => s.sends data false
  | _ => False

end Entry

variable {e : NetHost} {s t : SslEventSocket}

/-- What a function adds to the history when a handler is called after it. -/
theorem Issues.noticed {u : SslEventSocket} {d : Prop} (c : Prop) [Decidable c] (n : Notice)
    (h : Issues s u d) :
    ∃ t, (if c then (EventObject.tls u).notify n else .tls u) = .tls t ∧ Issues s t d := by
  split
  · exact ⟨_, rfl, h.followed [.notify u.session n] rfl (by simp [Event.drives])⟩
  · exact ⟨_, rfl, h⟩

theorem read_issues (c : ReadCall) (s : SslEventSocket) :
    ∃ t, (EventObject.tls s).exec e (.read c) = .tls t ∧ Issues s t (asks c) := by
  cases c with
  | buffer given size => exact ⟨_, rfl, s.readBuffer_issues given size⟩
  | line given size => exact ⟨_, rfl, s.readLine_issues given size⟩
  | «until» given size => exact ⟨_, rfl, s.readLine_issues given size⟩
  | internal =>
    exact ⟨_, rfl, (s.readBuffer_issues true _).iff fun _ =>
      ⟨fun _ => trivial, fun _ => ⟨rfl, by decide⟩⟩⟩
  | string size => exact ⟨_, rfl, s.readString_issues size⟩
  | shift =>
    exact ⟨_, rfl, (s.readString_issues _).iff fun _ => ⟨fun _ => trivial, fun _ => by decide⟩⟩

theorem directWrite_issues (data : List UInt8) (s : SslEventSocket) :
    ∃ t, ((EventObject.tls s).directWrite e data).2 = .tls t ∧ Issues s t (s.sends data false) := by
  have hsend := (s.sendTls_issues (e := e.tls) data false).1
  unfold EventObject.directWrite
  dsimp only
  split
  · exact ⟨_, rfl, hsend.followed [.notify _ _] rfl (by simp [Event.drives])⟩
  · exact ⟨_, rfl, hsend.same rfl⟩

/-- A base function that adds only native events. -/
theorem Calm.plain {f : Socket → Socket} (hf : Socket.Plain f) (s : SslEventSocket) :
    Calm s { s with toSocket := f s.toSocket } := by
  obtain ⟨es, hes, hlog⟩ := hf s.toSocket
  exact (Calm.refl s).next es hlog (fun ev hev => Event.drives_native (hes ev hev)) fun h => ⟨h, rfl⟩

/-- An entry makes a call on a marked session exactly when it tries. -/
theorem Entry.issues (a : Entry) (s : SslEventSocket) :
    ∃ t, a.run e s = .tls t ∧ Issues s t (a.Tries e s) := by
  have hnone {t : SslEventSocket} (hlog : t.log = s.log) : Issues s t False := .none hlog
  have hnotice {n : Notice} {t : SslEventSocket} (hlog : t.log = s.log ++ [.notify s.session n]) :
      Issues s t False := .quiet _ hlog (by simp [Event.drives]) fun _ h => h
  have hnative {f : Socket → Socket} (hf : Socket.Plain f) :
      Issues s { s with toSocket := f s.toSocket } False := by
    obtain ⟨es, hes, hlog⟩ := hf s.toSocket
    exact .quiet es hlog (fun ev hev => Event.drives_native (hes ev hev)) fun _ h => h
  cases a with
  | base f hf => exact ⟨_, rfl, hnone (hf s.toSocket).log⟩
  | dial f hf hoff => exact ⟨_, rfl, hnative hf⟩
  | start f hf identity => exact ⟨_, rfl, startClient_issues identity (.plain hf s)⟩
  | closeBase => exact ⟨_, rfl, hnative (Socket.silent_close e.tls.toHost)⟩
  | close => exact ⟨_, rfl, close_issues (.refl s)⟩
  | pollHasBufferedInput => exact ⟨_, rfl, hnone s.pollHasBufferedInput_log⟩
  | pollTimeoutMs => exact ⟨_, rfl, hnone s.pollTimeoutMs_log⟩
  | pollStep flags => exact ⟨_, rfl, s.pollStep_issues flags⟩
  | pollReceive => exact (s.pollReceive_issues _).noticed ((s.pollReceive e.tls Socket.maxBufferSize).1.1.ret > 0) _
  | flushQueued => exact s.flushQueued_issues.noticed ((s.flushQueued e.tls sendBudget).1.drained = true) _
  | fail code => exact ⟨_, rfl, hnotice rfl⟩
  | directWrite data => exact s.directWrite_issues data
  | notifyWrite data n => exact ⟨_, rfl, hnotice rfl⟩
  | exec c =>
    cases c with
    | set setter => exact ⟨_, rfl, hnone (Socket.aside_run e.tls.toHost setter s.toSocket).log⟩
    | read c => exact s.read_issues c
    | queueWrite data => exact ⟨_, rfl, s.queueWrite_issues data⟩
    | setMaxQueuedBytes limit => exact ⟨_, rfl, hnone rfl⟩
    | setCaFile path => exact ⟨_, rfl, hnone (s.setCaFile_log path)⟩
    | setPeerVerification mode =>
      exact ⟨_, rfl, .quiet [.verifyMode s.session (mode == .strict)] rfl (by simp [Event.drives])
        fun _ h => h⟩
    | setAllowSelfSigned enabled => exact ⟨_, rfl, hnone rfl⟩
    | setHandshakeTimeout ms => exact ⟨_, rfl, hnone (s.setHandshakeTimeout_log ms)⟩
    | beginGracefulShutdown ms => exact ⟨_, rfl, hnone (s.beginGracefulShutdown_log ms)⟩

/-- What happens to a TLS object in any program is an entry. -/
theorem Entry.of_part {o : EventObject} (h : Part e Socket.Aside (.tls s) o) :
    ∃ a : Entry, o = a.run e s := by
  cases h with
  | same | datagramFrom | closeOwnedPeers | onUdp =>
    exact ⟨.base id fun _ => ⟨rfl, rfl, rfl, le_rfl⟩, rfl⟩
  | base f hf => exact ⟨.base f hf, rfl⟩
  | closeBase => exact ⟨.closeBase, rfl⟩
  | close => exact ⟨.close, rfl⟩
  | pollHasBufferedInput => exact ⟨.pollHasBufferedInput, rfl⟩
  | pollTimeoutMs => exact ⟨.pollTimeoutMs, rfl⟩
  | pollStep flags => exact ⟨.pollStep flags, rfl⟩
  | pollReceive => exact ⟨.pollReceive, rfl⟩
  | flushQueued => exact ⟨.flushQueued, rfl⟩
  | fail code => exact ⟨.fail code, rfl⟩
  | exec c => exact ⟨.exec c, rfl⟩
  | directWrite data => exact ⟨.directWrite data, rfl⟩
  | notifyWrite data n => exact ⟨.notifyWrite data n, rfl⟩
  | startClient identity => exact ⟨.start id (fun s => ⟨[], by simp, by simp⟩) identity, rfl⟩

/-- An entry that is not a part of a connect. -/
theorem Entry.cases (a : Entry) (s : SslEventSocket) :
    Part e Socket.Aside (.tls s) (a.run e s) ∨
      (∃ f, Socket.Plain f ∧ (∀ b, (f b).connected = false) ∧
        a.run e s = .tls { s with toSocket := f s.toSocket }) ∨
      ∃ f identity, Socket.Plain f ∧
        a.run e s = .tls (startClient e.tls identity { s with toSocket := f s.toSocket }).2 := by
  cases a with
  | base f hf => exact .inl (.base f hf _)
  | dial f hf hoff => exact .inr (.inl ⟨f, hf, hoff, rfl⟩)
  | start f hf identity => exact .inr (.inr ⟨f, identity, hf, rfl⟩)
  | closeBase => exact .inl (.closeBase _)
  | close => exact .inl (.close _)
  | pollHasBufferedInput => exact .inl (.pollHasBufferedInput _)
  | pollTimeoutMs => exact .inl (.pollTimeoutMs _)
  | pollStep flags => exact .inl (.pollStep flags _)
  | pollReceive => exact .inl (.pollReceive _)
  | flushQueued => exact .inl (.flushQueued _)
  | fail code => exact .inl (.fail code _)
  | exec c => exact .inl (.exec c _)
  | directWrite data => exact .inl (.directWrite data _)
  | notifyWrite data n => exact .inl (.notifyWrite data n _)

/-- The object after an entry. -/
def Entry.next (e : NetHost) (s : SslEventSocket) (a : Entry) : SslEventSocket :=
  match a.run e s with
  | .tls t => t
  | _ => s

theorem Entry.next_eq {a : Entry} (h : a.run e s = .tls t) : a.next e s = t := by
  rw [next, h]

theorem Entry.settled (a : Entry) (hs : s.Settled) : (a.next e s).Settled := by
  rcases a.cases (e := e) s with hpart | ⟨f, hf, hoff, heq⟩ | ⟨f, identity, hf, heq⟩
  · obtain ⟨t, ht, hsettled⟩ := hpart.upheld Settled.upheld
      (fun _ hf s hs => (Settled.upheld (e := e.tls)).base s _ (hf _) hs)
      (fun s hs => ⟨hs.toKept.base (Socket.silent_close e.tls.toHost s.toSocket), fun _ =>
        .inl (Socket.close_sockfd e.tls.toHost s.toSocket)⟩) hs.reachable hs
    exact Entry.next_eq ht ▸ hsettled
  · rw [Entry.next_eq heq]
    exact ⟨hs.toKept.base (hf s.toSocket), fun _ => .inr (hoff _)⟩
  · rw [Entry.next_eq heq]
    exact (hs.toKept.base (hf s.toSocket)).startClient identity

theorem Entry.marked {id : ℕ} (a : Entry) (hs : s.Settled) (h : Marked id s) :
    Marked id (a.next e s) := by
  have hbase (f : Socket → Socket) {s : SslEventSocket} (h : Marked id s) :
      Marked id { s with toSocket := f s.toSocket } := h.onward ⟨rfl, rfl, fun h => h⟩
  rcases a.cases (e := e) s with hpart | ⟨f, -, -, heq⟩ | ⟨f, identity, hf, heq⟩
  · obtain ⟨t, ht, hmarked⟩ := hpart.upheld Marked.upheld (fun f _ _ => hbase f)
      (fun _ => hbase fun s => (s.close e.tls.toHost).2) hs.reachable h
    exact Entry.next_eq ht ▸ hmarked
  · exact Entry.next_eq heq ▸ hbase f h
  · exact Entry.next_eq heq ▸ (Marked.upheld (e := e.tls)).startClient identity _
      (hs.toKept.base (hf s.toSocket)).reachable (hbase f h)

/-- From `s` to `t` no call follows one that failed, none is made on a session that
was marked before, and the mark lasts as long as the session. -/
structure Heeds (s t : SslEventSocket) : Prop where
  calls : ∃ es, t.log = s.log ++ es ∧ SettlesDown es ∧ (s.sslFailed = true → ¬s.Driven es)
  mark : s.sslFailed = true → t.session = s.session → t.sslFailed = true

/-- An entry leaves a marked session alone exactly when it does not try it. -/
theorem Entry.heeds_iff (a : Entry) (hs : s.Settled) :
    Heeds s (a.next e s) ↔ (s.sslFailed = true → ¬a.Tries e s) := by
  obtain ⟨t, ht, es, hlog, hsettles, hdriven⟩ := a.issues (e := e) s
  have hmark (hmarked : s.sslFailed = true) (hsame : t.session = s.session) : t.sslFailed = true := by
    obtain ⟨id, hid⟩ := Option.ne_none_iff_exists'.mp (hs.toKept.failed hmarked).live
    have hmade : Marked id s := ⟨hs.reachable.numbered.live id hid, fun _ => hmarked⟩
    exact (Entry.next_eq ht ▸ a.marked (e := e) hs hmade).marked (hsame.trans hid)
  rw [Entry.next_eq ht]
  refine ⟨fun ⟨⟨es', hlog', _, hquiet⟩, _⟩ hmarked htry => ?_, fun hnot => ⟨⟨es, hlog, hsettles, ?_⟩, hmark⟩⟩
  · refine hquiet hmarked ?_
    rw [← List.append_cancel_left (hlog.symm.trans hlog')]
    exact (hdriven (hs.toKept.failed hmarked)).mpr htry
  · intro hmarked hdrives
    exact hnot hmarked ((hdriven (hs.toKept.failed hmarked)).mp hdrives)

/-- The object after a sequence of entries. -/
def life (e : NetHost) (s : SslEventSocket) (entries : List Entry) : SslEventSocket :=
  entries.foldl (Entry.next e) s

theorem life_concat (entries : List Entry) (a : Entry) :
    life e s (entries ++ [a]) = a.next e (life e s entries) := List.foldl_append ..

theorem life_settled (hs : s.Settled) (entries : List Entry) : (life e s entries).Settled := by
  induction entries generalizing s with
  | nil => exact hs
  | cons a entries ih => exact ih (a.settled hs)

/-- No entry uses a session that is marked as failed. -/
def LeftAlone (e : NetHost) (s : SslEventSocket) (entries : List Entry) : Prop :=
  ∀ done a rest, entries = done ++ a :: rest → Heeds (life e s done) (life e s (done ++ [a]))

/-- No entry tries a session that is marked as failed. -/
def Untried (e : NetHost) (s : SslEventSocket) (entries : List Entry) : Prop :=
  ∀ done a rest, entries = done ++ a :: rest →
    (life e s done).sslFailed = true → ¬a.Tries e (life e s done)

/-- In the life of a TLS object, every session that is marked as failed is left alone
until it is freed exactly when no entry tries it before. -/
theorem left_alone_iff (hnew : NewObject e (.tls s)) (entries : List Entry) :
    LeftAlone e s entries ↔ Untried e s entries := by
  refine forall_congr' fun done => forall_congr' fun a => forall_congr' fun rest =>
    forall_congr' fun _ => ?_
  rw [life_concat]
  exact a.heeds_iff (life_settled hnew.settled done)

/-- Every read fails. -/
def broken : NetHost := ⟨{ TlsHost.steady with sslRead := fun _ _ => { ret := -1, code := .other } }, .steady⟩

/-- A client that connects, fails to read, and is closed. -/
theorem left_alone_closed : ∃ s, newTls true broken = .tls s ∧
    (LeftAlone broken s [.start id (fun _ => ⟨[], by simp, by simp⟩) "peer",
        .pollStep { pollout := true }, .exec (.read (.string 1)), .close] ↔
      Untried broken s [.start id (fun _ => ⟨[], by simp, by simp⟩) "peer",
        .pollStep { pollout := true }, .exec (.read (.string 1)), .close]) :=
  ⟨_, rfl, left_alone_iff (.tls true) _⟩

end SslEventSocket

open SslEventSocket in
/-- A TLS object of a program has led such a life. -/
theorem lived_carried (h : LoopHost) : Carried h 0
    (fun i s => ∃ s₀ entries, NewObject (h.objects i) (.tls s₀) ∧ s = life (h.objects i) s₀ entries)
    fun i s => ∃ s₀ entries f, NewObject (h.objects i) (.tls s₀) ∧ Socket.Plain f ∧
      s = { life (h.objects i) s₀ entries with toSocket := f (life (h.objects i) s₀ entries).toSocket } where
  weaken i s := by
    rintro ⟨s₀, entries, hnew, rfl⟩
    exact ⟨s₀, entries, id, hnew, fun _ => ⟨[], by simp, by simp⟩, rfl⟩
  made i s _ hnew := ⟨s, [], hnew, rfl⟩
  part i s o hpart := by
    rintro ⟨s₀, entries, hnew, rfl⟩
    obtain ⟨a, rfl⟩ := Entry.of_part hpart
    obtain ⟨t, ht, -⟩ := a.issues (e := h.objects i) (life (h.objects i) s₀ entries)
    exact ⟨t, ht, s₀, entries ++ [a], hnew, by rw [life_concat, Entry.next_eq ht]⟩
  create i s family := by
    rintro ⟨s₀, entries, hnew, rfl⟩
    refine ⟨s₀, entries ++ [.dial (fun b => { (b.create (h.objects i).tls.toHost family).2 with
      connected := false }) (Socket.silent_create _ family) fun _ => rfl], hnew, ?_⟩
    rw [life_concat]
    rfl
  failed i s := by
    rintro ⟨s₀, entries, hnew, rfl⟩
    refine ⟨s₀, entries ++ [.dial (fun b => { b with connected := false })
      (fun _ => ⟨[], by simp, by simp⟩) fun _ => rfl], hnew, ?_⟩
    rw [life_concat]
    rfl
  done i s := by
    rintro ⟨s₀, entries, hnew, rfl⟩
    exact ⟨s₀, entries, Socket.connectDone, hnew, fun _ => ⟨[], by simp, by simp [Socket.connectDone]⟩, rfl⟩
  connected i s := by
    rintro ⟨s₀, entries, f, hnew, hf, rfl⟩
    exact ⟨s₀, entries, fun b => { f b with connected := true }, hnew, fun b => hf b, rfl⟩
  start i s identity := by
    rintro ⟨s₀, entries, f, hnew, hf, rfl⟩
    refine ⟨s₀, entries ++ [.start f hf identity], hnew, ?_⟩
    rw [life_concat]
    rfl

open SslEventSocket in
/-- In every program, each TLS object is what some entries have made of a new one. -/
theorem lived {h : LoopHost} {fuel id : ℕ} {w : EventWorld} {s : SslEventSocket}
    (hw : Reaches h fuel w) (hs : w.find id = some (.tls s)) : ∃ s₀ entries,
      NewObject (h.objects id) (.tls s₀) ∧ s = life (h.objects id) s₀ entries :=
  hw.carried (lived_carried h) hs

/-- An `SSL_read` or an `SSL_write` has failed for good, so that its session is marked. -/
def Event.fatal : Event → Bool
  | .sslShutdown .. => false
  | ev => ev.mayFail

/-- `later` is a call on the session on which `ev` has failed. -/
def Event.misuses (ev later : Event) : Bool :=
  ev.fatal && later.drives && later.session == ev.session

/-- A client whose direct read has failed writes, and OpenSSL is called again. -/
theorem failed_session_used : ¬∀ (h : LoopHost) (fuel id : ℕ) (w : EventWorld)
    (s : SslEventSocket), Reaches h fuel w → w.find id = some (.tls s) →
      s.log.Pairwise fun ev later => ev.misuses later = false := by
  intro hall
  obtain ⟨s, hs, hp⟩ := exists_of_tlsIs 0
    (w := after (.same SslEventSocket.broken { pollout := true }) 1 [.createTls true, dial,
      .add (some 0), .poll 0, .call 0 (.read (.string 1)), .write 0 (.sized (some [1]))])
    (p := fun s => !decide (s.log.Pairwise fun ev later => Event.misuses ev later = false))
    (by decide +kernel)
  rw [Bool.not_eq_true', decide_eq_false_iff_not] at hp
  exact hp (hall _ _ _ _ s (reaches_after _ _ _) hs)

end Aeon
