import Aeon.SessionStart

/-!
# Properties that every function of a TLS object keeps

`Upheld` asks for one fact about each function that does something of its own.
From these the property follows for everything that a program or `poll` does
with the object.
-/

namespace Aeon

namespace Socket

/-- A function of the base object that adds only native events to the history. -/
def Plain (f : Socket → Socket) : Prop := Silent fun s => ((), f s)

end Socket

/-- Everything that can happen to an object is a part, if any function of the
base object that opens and closes descriptors may be run by itself. -/
theorem ObjectStep.part {e : NetHost} {o o' : EventObject} (h : ObjectStep e o o') :
    Part e Socket.Plain o o' := by
  cases h with
  | same => exact .same o
  | socket f hf => exact .base (fun s => (f s).2) (fun s => hf.silent s) o
  | create family f hf =>
    refine .base (fun s => (f s).2) (fun s => ?_) o
    obtain ⟨es, hes, hlog⟩ := Socket.silent_create e.tls.toHost family s
    exact ⟨es, hes, (hf s).1.trans hlog⟩
  | closeBase => exact .closeBase o
  | close => exact .close o
  | pollHasBufferedInput => exact .pollHasBufferedInput o
  | pollTimeoutMs => exact .pollTimeoutMs o
  | pollStep flags => exact .pollStep flags o
  | pollReceive => exact .pollReceive o
  | flushQueued => exact .flushQueued o
  | fail code => exact .fail code o
  | datagramFrom n sender => exact .datagramFrom n sender o
  | exec c => exact .exec c o
  | directWrite data => exact .directWrite data o
  | notifyWrite data n => exact .notifyWrite data n o
  | startClient identity => exact .startClient identity o
  | closeOwnedPeers => exact .closeOwnedPeers o
  | onUdp f other => exact .onUdp f other o

/-- A handler may be told: news of application data is about a session that is ready. -/
def SslEventSocket.Tells (s : SslEventSocket) (n : Notice) : Prop :=
  (Event.notify s.session n).native = true ∨
    s.session ≠ none ∧ s.tlsReady = true ∧ ((∃ bytes, n = .data bytes) ∨ n = .drain)

theorem SslEventSocket.Tells.steps {s : SslEventSocket} {n : Notice} (h : s.Tells n) :
    Session.Steps s.view (s.record (.notify s.session n)).view := by
  rcases h with hnative | ⟨hlive, hready, hn⟩
  · exact notify_steps hnative
  · exact notify_ready hlive hready hn

/-- The functions that do something of their own keep the property, in states of
which `A` may be assumed. -/
structure Upheld (e : TlsHost) (A P : SslEventSocket → Prop) : Prop where
  base : ∀ s (b : Socket), s.toSocket.Beside b → P s → P { s with toSocket := b }
  notice : ∀ s n, s.Tells n → P s → P (s.record (.notify s.session n))
  settings : ∀ (s : SslEventSocket) mode allow timeoutMs deadline, P s → P { s with
    verifyMode := mode
    allowSelfSigned := allow
    handshakeTimeoutMs := timeoutMs
    handshakeDeadline := deadline }
  modeChanged : ∀ s : SslEventSocket, P s →
    P (s.record (.verifyMode s.session (s.verifyMode == .strict)))
  setMaxQueuedBytes : ∀ s (limit : UInt64), P s → P (s.setMaxQueuedBytes limit.toNat).2
  close : ∀ s : SslEventSocket, P s → P (s.close e).2
  pollStep : ∀ flags s, P s → P (s.pollStep e flags).2
  pollReceive : ∀ (s : SslEventSocket) (room : ℕ), P s → P (s.pollReceive e room).2
  sendTls : ∀ data s, P s → P (s.sendTls e data false).2
  queueWrite : ∀ data s, A s → P s → P (s.queueWrite data).2
  flushQueued : ∀ s, A s → P s → P (s.flushQueued e sendBudget).2
  beginGracefulShutdown : ∀ timeoutMs s, P s → P (s.beginGracefulShutdown e timeoutMs).2
  startClient : ∀ identity s, A s → P s → P (s.startClient e identity).2

/-- The same for the calls that an application may make at any time. -/
structure Called (e : TlsHost) (A P : SslEventSocket → Prop) : Prop where
  base : ∀ s (b : Socket), s.toSocket.Beside b → P s → P { s with toSocket := b }
  settings : ∀ (s : SslEventSocket) mode allow timeoutMs deadline, P s → P { s with
    verifyMode := mode
    allowSelfSigned := allow
    handshakeTimeoutMs := timeoutMs
    handshakeDeadline := deadline }
  modeChanged : ∀ s : SslEventSocket, P s →
    P (s.record (.verifyMode s.session (s.verifyMode == .strict)))
  setMaxQueuedBytes : ∀ s (limit : UInt64), P s → P (s.setMaxQueuedBytes limit.toNat).2
  pollReceive : ∀ (s : SslEventSocket) (room : ℕ), P s → P (s.pollReceive e room).2
  queueWrite : ∀ data s, A s → P s → P (s.queueWrite data).2
  beginGracefulShutdown : ∀ timeoutMs s, P s → P (s.beginGracefulShutdown e timeoutMs).2

namespace Called

variable {e : TlsHost} {A P : SslEventSocket → Prop} {s : SslEventSocket} (hP : Called e A P)

include hP

theorem setError (code : Int) (hs : P s) : P (s.setError code) := hP.base s _ ⟨rfl, rfl, rfl, le_rfl⟩ hs

theorem ticked (hs : P s) : P s.ticked := hP.base s _ ⟨rfl, rfl, rfl, Nat.le_succ _⟩ hs

theorem readBuffer (buffer : Bool) (size : Int) (hs : P s) : P (s.readBuffer e buffer size).2 := by
  unfold SslEventSocket.readBuffer
  split
  · exact hP.setError _ hs
  · exact hP.base _ _ ⟨rfl, rfl, rfl, le_rfl⟩ (hP.pollReceive s _ hs)

theorem readLine (buffer : Bool) (size : Int) (hs : P s) : P (s.readLine e buffer size).2 := by
  have hloop (room : ℕ) (line : List UInt8) {s : SslEventSocket} (hs : P s) :
      P (s.readLineLoop e room line).2 := by
    induction room generalizing line s with
    | zero => exact hs
    | succ room ih =>
      unfold SslEventSocket.readLineLoop
      dsimp only
      have hread := hP.readBuffer true 1 hs
      split
      · exact hread
      · split
        · exact hread
        · exact ih _ hread
  unfold SslEventSocket.readLine
  split
  · exact hP.setError _ hs
  · exact hloop _ _ hs

theorem readString (size : Int) (hs : P s) : P (s.readString e size).2 := by
  unfold SslEventSocket.readString
  split
  · exact hs
  · exact hP.readBuffer true size hs

theorem pollTimeoutMs (hs : P s) : P (s.pollTimeoutMs e).2 := by
  unfold SslEventSocket.pollTimeoutMs
  split
  · exact hs
  · split
    · exact hP.ticked hs
    · split
      · exact hs
      · exact hP.ticked hs

theorem pollHasBufferedInput (hs : P s) : P (s.pollHasBufferedInput e).2 := by
  unfold SslEventSocket.pollHasBufferedInput
  split
  · exact hP.ticked hs
  · exact hs

theorem setCaFile (path : Option String) (hs : P s) : P (s.setCaFile e path).2 := by
  unfold SslEventSocket.setCaFile
  split
  · exact hP.setError _ hs
  · dsimp only
    split
    · exact hP.setError _ (hP.ticked hs)
    · exact hP.setError _ (hP.ticked hs)

theorem setHandshakeTimeout (milliseconds : Int) (hs : P s) :
    P (s.setHandshakeTimeout e milliseconds).2 := by
  unfold SslEventSocket.setHandshakeTimeout
  split
  · exact hP.setError _ hs
  · dsimp only
    split
    · exact hP.settings _ s.verifyMode s.allowSelfSigned milliseconds.toNat _
        (hP.setError errNone (hP.ticked hs))
    · exact hP.settings _ s.verifyMode s.allowSelfSigned milliseconds.toNat s.handshakeDeadline
        (hP.setError errNone hs)

omit hP in
theorem exec {e : NetHost} (hP : Called e.tls A P) (c : EventCall) (hr : A s) (hs : P s) :
    ∃ t, (EventObject.tls s).exec e c = .tls t ∧ P t := by
  cases c with
  | set setter =>
    exact ⟨_, rfl, hP.base s _ (Socket.aside_run e.tls.toHost setter s.toSocket) hs⟩
  | read c =>
    cases c with
    | buffer given size => exact ⟨_, rfl, hP.readBuffer given size hs⟩
    | line given size => exact ⟨_, rfl, hP.readLine given size hs⟩
    | «until» given size => exact ⟨_, rfl, hP.readLine given size hs⟩
    | internal => exact ⟨_, rfl, hP.readBuffer true _ hs⟩
    | string size => exact ⟨_, rfl, hP.readString size hs⟩
    | shift => exact ⟨_, rfl, hP.readString _ hs⟩
  | queueWrite data => exact ⟨_, rfl, hP.queueWrite data s hr hs⟩
  | setMaxQueuedBytes limit => exact ⟨_, rfl, hP.setMaxQueuedBytes s limit hs⟩
  | setCaFile path => exact ⟨_, rfl, hP.setCaFile path hs⟩
  | setPeerVerification mode =>
    exact ⟨_, rfl, hP.modeChanged _ (hP.settings s mode s.allowSelfSigned s.handshakeTimeoutMs
      s.handshakeDeadline hs)⟩
  | setAllowSelfSigned enabled =>
    exact ⟨_, rfl, hP.settings s s.verifyMode enabled s.handshakeTimeoutMs s.handshakeDeadline hs⟩
  | setHandshakeTimeout ms => exact ⟨_, rfl, hP.setHandshakeTimeout ms hs⟩
  | beginGracefulShutdown ms => exact ⟨_, rfl, hP.beginGracefulShutdown ms s hs⟩

end Called

theorem Upheld.called {e : TlsHost} {A P : SslEventSocket → Prop} (hP : Upheld e A P) :
    Called e A P where
  base := hP.base
  settings := hP.settings
  modeChanged := hP.modeChanged
  setMaxQueuedBytes := hP.setMaxQueuedBytes
  pollReceive := hP.pollReceive
  queueWrite := hP.queueWrite
  beginGracefulShutdown := hP.beginGracefulShutdown

namespace Upheld

variable {e : TlsHost} {A P : SslEventSocket → Prop} {s : SslEventSocket} (hP : Upheld e A P)

include hP

/-- The notice for a handler that a function may leave. -/
theorem noticed {c : Prop} [Decidable c] (n : Notice) (hn : c → s.Tells n) (hs : P s) :
    ∃ t, (if c then (EventObject.tls s).notify n else .tls s) = .tls t ∧ P t := by
  split
  · exact ⟨_, rfl, hP.notice s n (hn ‹c›) hs⟩
  · exact ⟨_, rfl, hs⟩

end Upheld

section Objects

variable {e : NetHost} {A P : SslEventSocket → Prop} {s : SslEventSocket}

theorem Upheld.polledReceive (hP : Upheld e.tls A P) (hs : P s) :
    ∃ t, ((EventObject.tls s).pollReceive e).2 = .tls t ∧ P t := by
  have hspec := s.pollReceive_spec (e := e.tls) Socket.maxBufferSize
  refine hP.noticed _ (fun hpos => .inr ?_) (hP.pollReceive s _ hs)
  obtain ⟨hlive, hready⟩ := hspec.received hpos
  exact ⟨hspec.session ▸ hlive, hspec.tlsReady.trans hready, .inl ⟨_, rfl⟩⟩

theorem Upheld.polledFlush (hP : Upheld e.tls A P) (hr : A s) (hs : P s) :
    ∃ t, ((EventObject.tls s).flushQueued e).2 = .tls t ∧ P t := by
  refine hP.noticed _ (fun hdrained => .inr ?_) (hP.flushQueued s hr hs)
  obtain ⟨hlive, hready⟩ := SslEventSocket.flushQueued_drained hdrained
  exact ⟨hlive, hready, .inr rfl⟩

theorem Upheld.fail (hP : Upheld e.tls A P) (code : Int) (hs : P s) :
    ∃ t, (EventObject.tls s).fail code = .tls t ∧ P t :=
  ⟨_, rfl, hP.notice _ _ (.inl rfl)
    (hP.base s { s.toSocket with n := -1 } ⟨rfl, rfl, rfl, le_rfl⟩ hs)⟩

theorem Upheld.directWrite (hP : Upheld e.tls A P) (data : List UInt8) (hs : P s) :
    ∃ t, ((EventObject.tls s).directWrite e data).2 = .tls t ∧ P t := by
  have hsend := hP.sendTls data s hs
  unfold EventObject.directWrite
  dsimp only
  split
  · exact ⟨_, rfl, hP.notice _ _ (.inl rfl) (hP.called.setError _ hsend)⟩
  · exact ⟨_, rfl, hP.called.setError _ hsend⟩

/-- What every function keeps, everything that happens to a TLS object keeps. -/
theorem Part.upheld {F : (Socket → Socket) → Prop} {o : EventObject} (h : Part e F (.tls s) o)
    (hP : Upheld e.tls A P)
    (hbase : ∀ f, F f → ∀ s : SslEventSocket, P s → P { s with toSocket := f s.toSocket })
    (hclose : ∀ s : SslEventSocket, P s →
      P { s with toSocket := (s.toSocket.close e.tls.toHost).2 })
    (hr : A s) (hs : P s) : ∃ t, o = .tls t ∧ P t := by
  cases h with
  | same | datagramFrom | closeOwnedPeers | onUdp => exact ⟨s, rfl, hs⟩
  | base f hf => exact ⟨_, rfl, hbase f hf s hs⟩
  | closeBase => exact ⟨_, rfl, hclose s hs⟩
  | close => exact ⟨_, rfl, hP.close s hs⟩
  | pollHasBufferedInput => exact ⟨_, rfl, hP.called.pollHasBufferedInput hs⟩
  | pollTimeoutMs => exact ⟨_, rfl, hP.called.pollTimeoutMs hs⟩
  | pollStep flags => exact ⟨_, rfl, hP.pollStep flags s hs⟩
  | pollReceive => exact hP.polledReceive hs
  | flushQueued => exact hP.polledFlush hr hs
  | fail code => exact hP.fail code hs
  | exec c => exact hP.called.exec c hr hs
  | directWrite data => exact hP.directWrite data hs
  | notifyWrite data n => exact ⟨_, rfl, hP.notice s _ (.inl rfl) hs⟩
  | startClient identity => exact ⟨_, rfl, hP.startClient identity s hr hs⟩

end Objects

end Aeon
