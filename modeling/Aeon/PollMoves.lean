import Aeon.ErrorCodes
import Aeon.Library.Moves
import Aeon.PollRegistry

/-!
# The moves of `poll`

What `poll` does to the world, one move after the other: it asks, it waits, it acts
on the object of a token, it receives a datagram for one, and it tells a handler.
Every native answer that it takes itself belongs to one of the moves, and every
move that takes bytes is recorded with its token.  The rules below say which moves
each function of the dispatch makes.
-/

namespace Aeon

open Program EventWorld EventLoop

/-- What `poll` does to an object. -/
inductive ObjectMove
  | step (flags : Flags)
  | receive
  | count (n : Int)
  | datagram (n : Int) (sender : Sockaddr)
  | setError (code : Int)
  | fail (code : Int)
  | flush
  | close

/-- What the history says of a move. -/
def ObjectMove.action : ObjectMove → PollAction
  | .step _ => .step
  | .receive => .receive
  | .count _ | .datagram .. => .count
  | .setError _ => .setError
  | .fail _ => .fail
  | .flush => .flush
  | .close => .close

/-- The bytes that a move takes from the transport or hands to it, and its effect. -/
def ObjectMove.run (e : NetHost) : ObjectMove → EventObject → ℕ × EventObject
  | .step flags, o => (0, (o.pollStep e flags).2)
  | .receive, o => ((o.pollReceive e).1.1.ret.toNat, (o.pollReceive e).2)
  | .count n, o => (0, o.withBase { o.base with n := n })
  | .datagram n sender, o => (0, (datagramFrom n sender o).2)
  | .setError code, o => (0, o.setError code)
  | .fail code, o => (0, o.fail code)
  | .flush, o => ((o.flushQueued e).1.bytes, (o.flushQueued e).2)
  | .close, o => (0, (o.close e).2)

/-- A move about a token names its object.  `wait` is a wait for readiness, and
`getsockopt` the question why a descriptor has failed. -/
inductive PollMove
  | ask
  | wait
  | getsockopt
  | act (token id : ℕ) (m : ObjectMove) (bytes : ℕ)
  | recvfrom (token id bytes : ℕ)
  | tell (n : EventNote)

namespace PollMove

def subject : PollMove → Option (ℕ × ℕ)
  | .act t id _ _ | .recvfrom t id _ => some (t, id)
  | _ => none

def bytes : PollMove → ℕ
  | .act _ _ _ n | .recvfrom _ _ n => n
  | _ => 0

def asks : PollMove → Bool
  | .ask | .wait | .getsockopt => true
  | _ => false

def tells : PollMove → Bool
  | .tell _ => true
  | _ => false

/-- A call of `recv`, `SSL_read` or `recvfrom`, even one that fails. -/
def receives : PollMove → Bool
  | .act _ _ .receive _ | .recvfrom .. => true
  | _ => false

def flushes : PollMove → Bool
  | .act _ _ .flush _ => true
  | _ => false

def about (t : ℕ) (m : PollMove) : Bool := m.subject.any (·.1 == t)

/-- A question is about no socket and does nothing to one. -/
theorem asks_idle {m : PollMove} (h : m.asks = true) : m.subject = none ∧
    (m.tells = false ∧ m.bytes = 0) ∧ m.receives = false ∧ m.flushes = false := by
  cases m with
  | ask | wait | getsockopt => exact ⟨rfl, ⟨rfl, rfl⟩, rfl, rfl⟩
  | _ => cases h

end PollMove

/-- A native call that takes input, even one that fails. -/
def Event.inputs : Event → Bool
  | .recv _ | .sslRead .. => true
  | _ => false

/-- How often an object has called `recv` or `SSL_read`. -/
def EventObject.inputs (o : EventObject) : ℕ := o.base.log.countP Event.inputs

/-- The token for which a record of the history takes or hands over bytes. -/
def PollEvent.moves : PollEvent → Option ℕ
  | .did t .receive _ _ | .did t .flush _ _ | .received t => some t
  | _ => none

/-- The object after more native answers have been used up. -/
def EventObject.atTick (tick : ℕ) (o : EventObject) : EventObject :=
  o.withBase { o.base with tick := tick }

/-- No socket and no registration has changed, and no bytes have been moved. -/
structure Asked (w w' : EventWorld) : Prop where
  objects : ∀ i, ∃ tick, w'.find i = (w.find i).map (EventObject.atTick tick)
  registrations : w'.registrations = w.registrations
  sockets : w'.sockets = w.sockets
  udpSockets : w'.udpSockets = w.udpSockets
  log : ∃ es, w'.log = w.log ++ es ∧ ∀ e ∈ es, e.moves = none

namespace EventObject

@[simp] theorem atTick_atTick (k l : ℕ) (o : EventObject) : (o.atTick k).atTick l = o.atTick l := by
  cases o <;> rfl

theorem exists_atTick (o : EventObject) : ∃ tick, o = o.atTick tick := by
  refine ⟨o.base.tick, ?_⟩
  cases o <;> rfl

theorem onTls_atTick {α : Type} {f : SslEventSocket → α × SslEventSocket} {other : α}
    (hf : ∀ s, ∃ tick, EventObject.tls (f s).2 = (EventObject.tls s).atTick tick) (o : EventObject) :
    ∃ tick, (o.onTls f other).2 = o.atTick tick := by
  cases o with
  | tls s => exact hf s
  | _ => exact exists_atTick _

theorem pollTimeoutMs_atTick (e : NetHost) (o : EventObject) :
    ∃ tick, (o.pollTimeoutMs e).2 = o.atTick tick := by
  refine onTls_atTick (fun s => ?_) o
  unfold SslEventSocket.pollTimeoutMs
  split
  · exact exists_atTick _
  · split
    · exact ⟨s.tick + 1, rfl⟩
    · split
      · exact exists_atTick _
      · exact ⟨s.tick + 1, rfl⟩

theorem pollHasBufferedInput_atTick (e : NetHost) (o : EventObject) :
    ∃ tick, (o.pollHasBufferedInput e).2 = o.atTick tick := by
  refine onTls_atTick (fun s => ?_) o
  unfold SslEventSocket.pollHasBufferedInput
  split
  · exact ⟨s.tick + 1, rfl⟩
  · exact exists_atTick _

@[simp] theorem notify_inputs (n : Notice) (o : EventObject) : (o.notify n).inputs = o.inputs := by
  cases o with
  | tls s => exact (List.countP_append ..).trans (Nat.add_zero _)
  | _ => rfl

/-- `poll_receive` makes one native call at most. -/
theorem pollReceive_once (e : NetHost) (o : EventObject) :
    (o.pollReceive e).2.inputs ≤ o.inputs + 1 := by
  have hone {s t : Socket} {es : List Event} (hlog : t.log = s.log ++ es) (hes : es.length ≤ 1) :
      t.log.countP Event.inputs ≤ s.log.countP Event.inputs + 1 := by
    rw [hlog, List.countP_append]
    exact Nat.add_le_add_left (List.countP_le_length.trans hes) _
  have hplain (s : Socket) : (s.nativeRecv e.tls.toHost Socket.maxBufferSize).2.log.countP
      Event.inputs ≤ s.log.countP Event.inputs + 1 := by
    unfold Socket.nativeRecv
    split
    · exact Nat.le_succ _
    · refine hone rfl ?_
      exact (List.length_singleton).le
  have htls (s : SslEventSocket) : (s.pollReceive e.tls Socket.maxBufferSize).2.log.countP
      Event.inputs ≤ s.log.countP Event.inputs + 1 := by
    have hread {t : SslEventSocket} {ev : Event} (hlog : t.log = s.log ++ [ev]) :
        t.log.countP Event.inputs ≤ s.log.countP Event.inputs + 1 :=
      hone (s := s.toSocket) (t := t.toSocket) hlog le_rfl
    unfold SslEventSocket.pollReceive
    dsimp only
    split
    · exact Nat.le_succ _
    · split
      · exact Nat.le_succ _
      · split
        · exact hread rfl
        · split
          · split <;> exact hread rfl
          · split <;> exact hread rfl
  have hnotified {c : Prop} [Decidable c] (n : Notice) (o : EventObject) :
      (if c then o.notify n else o).inputs = o.inputs := by
    split
    · exact notify_inputs n o
    · rfl
  unfold pollReceive
  dsimp only
  rw [hnotified]
  cases o with
  | tls s => exact htls s
  | tcp s | listener s | udp _ s => exact hplain s.toSocket

end EventObject

namespace Asked

variable {w w' w'' : EventWorld} {id : ℕ} {o o' : EventObject}

theorem of_objects (ho : w'.objects = w.objects) (hr : w'.registrations = w.registrations)
    (hs : w'.sockets = w.sockets) (hu : w'.udpSockets = w.udpSockets) (es : List PollEvent)
    (hlog : w'.log = w.log ++ es) (hes : ∀ e ∈ es, e.moves = none) : Asked w w' := by
  refine ⟨fun i => ?_, hr, hs, hu, es, hlog, hes⟩
  rw [EventWorld.find, ho]
  show ∃ tick, w.find i = (w.find i).map (EventObject.atTick tick)
  cases hi : w.find i with
  | none => exact ⟨0, rfl⟩
  | some o =>
    obtain ⟨tick, ht⟩ := o.exists_atTick
    exact ⟨tick, congr_arg some ht⟩

/-- Nothing but the native answers of `poll` and the lock. -/
theorem same (ho : w'.objects = w.objects) (hr : w'.registrations = w.registrations)
    (hs : w'.sockets = w.sockets) (hu : w'.udpSockets = w.udpSockets) (hlog : w'.log = w.log) :
    Asked w w' :=
  of_objects ho hr hs hu [] (hlog.trans (List.append_nil _).symm) fun _ he => nomatch he

theorem refl (w : EventWorld) : Asked w w := same rfl rfl rfl rfl rfl

theorem logged (w : EventWorld) {e : PollEvent} (he : e.moves = none) :
    Asked w { w with log := w.log ++ [e] } :=
  of_objects rfl rfl rfl rfl [e] rfl fun _ hmem => List.mem_singleton.mp hmem ▸ he

theorem trans (h : Asked w w') (h' : Asked w' w'') : Asked w w'' := by
  refine ⟨fun i => ?_, h'.registrations.trans h.registrations, h'.sockets.trans h.sockets,
    h'.udpSockets.trans h.udpSockets, ?_⟩
  · obtain ⟨k, hk⟩ := h.objects i
    obtain ⟨l, hl⟩ := h'.objects i
    refine ⟨l, ?_⟩
    rw [hl, hk]
    cases w.find i with
    | none => rfl
    | some o => exact congr_arg some (EventObject.atTick_atTick k l o)
  · obtain ⟨es, hlog, hes⟩ := h.log
    obtain ⟨es', hlog', hes'⟩ := h'.log
    refine ⟨es ++ es', by rw [hlog', hlog, List.append_assoc], fun e he => ?_⟩
    exact (List.mem_append.mp he).elim (hes e) (hes' e)

/-- An object is asked something. -/
theorem store (ho : w.find id = some o) (hask : ∃ tick, o' = o.atTick tick) {e : PollEvent}
    (he : e.moves = none) : Asked w { w.store id o' with log := w.log ++ [e] } := by
  refine ⟨fun i => ?_, rfl, rfl, rfl, [e], rfl, fun _ hmem => List.mem_singleton.mp hmem ▸ he⟩
  show ∃ tick, (w.store id o').find i = (w.find i).map (EventObject.atTick tick)
  by_cases hi : i = id
  · subst hi
    obtain ⟨tick, rfl⟩ := hask
    rw [find_store_same ho, ho]
    exact ⟨tick, rfl⟩
  · rw [find_store_ne hi]
    exact (refl w).objects i

end Asked

/-- An error that is told comes from the library, and the handler of the object
finds it to be the error of the object. -/
def Explained (w : EventWorld) (n : EventNote) : Prop :=
  ∀ code, n.notice = .error code → code ∈ libraryCodes ∧
    (n.level = .socket → ∃ o, w.find n.socket = some o ∧ o.base.errorCode = code)

/-- One move, in which handlers are only called as `G` allows.  A question uses up no
native answer of `poll` itself, and the other moves those that they name. -/
inductive Does (h : LoopHost) (cb : EventNote → Code EventWorld Unit)
    (G : EventWorld → EventNote → Prop) : EventWorld → PollMove → EventWorld → Prop
  | ask {w w' : EventWorld} (asked : Asked w w') (tick : w'.tick = w.tick) : Does h cb G w .ask w'
  | wait (ps : List Watch) (timeoutMs : Int) (fuel : ℕ) (w : EventWorld) :
      Does h cb G w .wait (EventLoop.pollReadable h ps timeoutMs fuel w).2
  | getsockopt (w : EventWorld) : Does h cb G w .getsockopt { w with tick := w.tick + 1 }
  | act {w : EventWorld} {id : ℕ} {o : EventObject} (t : ℕ) (m : ObjectMove) (watched : ℕ)
      (object : w.find id = some o)
      (once : m = .receive → (m.run (h.objects id) o).2.inputs ≤ o.inputs + 1) :
      Does h cb G w (.act t id m (m.run (h.objects id) o).1)
        { w.store id (m.run (h.objects id) o).2 with
          log := w.log ++ [.did t m.action watched o.connection] }
  | recvfrom (t id : ℕ) (w : EventWorld) :
      Does h cb G w (.recvfrom t id (h.recvfrom w.tick Socket.maxBufferSize).1.ret.toNat)
        { w with tick := w.tick + 1, log := w.log ++ [.received t] }
  | tell {w : EventWorld} (n : EventNote) (allowed : G w n) : Does h cb G w (.tell n) (cb n w).2

def Questions (ms : List PollMove) : Prop := ∀ m ∈ ms, m.asks = true

/-- No handler is called, and no byte is received or sent. -/
def Silent (ms : List PollMove) : Prop := ∀ m ∈ ms, m.tells = false ∧ m.bytes = 0

/-- The moves are about one watch, with so many receives and flushes at most. -/
structure Around (p : Watch) (receives flushes : ℕ) (ms : List PollMove) : Prop where
  subject : ∀ m ∈ ms, ∀ x, m.subject = some x → x = (p.token, p.socket)
  receives : ms.countP PollMove.receives ≤ receives
  flushes : ms.countP PollMove.flushes ≤ flushes

section Lists

variable {p : Watch} {r r' f f' : ℕ} {ms ms' : List PollMove}

theorem Questions.nil : Questions [] := fun _ hm => nomatch hm

theorem Questions.one {m : PollMove} (h : m.asks = true) : Questions [m] :=
  fun _ hm => List.mem_singleton.mp hm ▸ h

theorem Questions.append (h : Questions ms) (h' : Questions ms') : Questions (ms ++ ms') :=
  fun m hm => (List.mem_append.mp hm).elim (h m) (h' m)

theorem Questions.silent (h : Questions ms) : Silent ms :=
  fun m hm => (PollMove.asks_idle (h m hm)).2.1

/-- None of them is of another kind. -/
theorem Questions.countP (h : Questions ms) {c : PollMove → Bool}
    (hc : ∀ m, m.asks = true → c m = false) : ms.countP c = 0 :=
  List.countP_eq_zero.mpr fun m hm => Bool.eq_false_iff.mp (hc m (h m hm))

theorem Silent.append (h : Silent ms) (h' : Silent ms') : Silent (ms ++ ms') :=
  fun m hm => (List.mem_append.mp hm).elim (h m) (h' m)

theorem Questions.around (h : Questions ms) : Around p 0 0 ms := by
  refine ⟨fun m hm x hx => ?_, (h.countP fun m hm => ?_).le, (h.countP fun m hm => ?_).le⟩
  · rw [(PollMove.asks_idle (h m hm)).1] at hx
    cases hx
  · exact (PollMove.asks_idle hm).2.2.1
  · exact (PollMove.asks_idle hm).2.2.2

theorem Around.append (h : Around p r f ms) (h' : Around p r' f' ms') :
    Around p (r + r') (f + f') (ms ++ ms') := by
  refine ⟨fun m hm => (List.mem_append.mp hm).elim (h.subject m) (h'.subject m), ?_, ?_⟩
  · rw [List.countP_append]
    exact Nat.add_le_add h.receives h'.receives
  · rw [List.countP_append]
    exact Nat.add_le_add h.flushes h'.flushes

theorem Around.mono (h : Around p r f ms) (hr : r ≤ r') (hf : f ≤ f') : Around p r' f' ms :=
  ⟨h.subject, h.receives.trans hr, h.flushes.trans hf⟩

theorem Around.tell (n : EventNote) : Around p 0 0 [.tell n] := by
  refine ⟨fun m hm x hx => ?_, le_rfl, le_rfl⟩
  rw [List.mem_singleton.mp hm] at hx
  cases hx

theorem Around.act {m : ObjectMove} {n : ℕ}
    (hr : PollMove.receives (.act p.token p.socket m n) = true → 1 ≤ r)
    (hf : PollMove.flushes (.act p.token p.socket m n) = true → 1 ≤ f) :
    Around p r f [.act p.token p.socket m n] := by
  refine ⟨fun m hm x hx => ?_, ?_, ?_⟩
  · obtain rfl := List.mem_singleton.mp hm
    exact (Option.some.inj hx).symm
  · rw [List.countP_singleton]
    split
    · exact hr ‹_›
    · exact Nat.zero_le _
  · rw [List.countP_singleton]
    split
    · exact hf ‹_›
    · exact Nat.zero_le _

end Lists

/-- What the dispatch of one socket answers: how many events, with none only if
nothing has happened. -/
structure Counts (p : Watch) (receives flushes bound n : ℕ) (ms : List PollMove) : Prop where
  around : Around p receives flushes ms
  count : n ≤ bound
  idle : n = 0 → Silent ms

theorem Counts.nothing {p : Watch} {r f b : ℕ} {ms : List PollMove} (h : Questions ms) :
    Counts p r f b 0 ms :=
  ⟨h.around.mono (Nat.zero_le _) (Nat.zero_le _), Nat.zero_le _, fun _ => h.silent⟩

theorem Counts.after {p : Watch} {r r' f f' b n : ℕ} {ms ms' : List PollMove} (h : Around p r f ms)
    (hs : n = 0 → Silent ms) (h' : Counts p r' f' b n ms') :
    Counts p (r + r') (f + f') b n (ms ++ ms') :=
  ⟨h.append h'.around, h'.count, fun hn => (hs hn).append (h'.idle hn)⟩

theorem Counts.asked {p : Watch} {r f b n : ℕ} {ms ms' : List PollMove} (h : Questions ms)
    (h' : Counts p r f b n ms') : Counts p r f b n (ms ++ ms') := by
  have hafter := h'.after h.around fun _ => h.silent
  rwa [Nat.zero_add, Nat.zero_add] at hafter

theorem Counts.mono {p : Watch} {r r' f f' b b' n : ℕ} {ms : List PollMove}
    (h : Counts p r f b n ms) (hr : r ≤ r') (hf : f ≤ f') (hb : b ≤ b') : Counts p r' f' b' n ms :=
  ⟨h.around.mono hr hf, h.count.trans hb, h.idle⟩

theorem Counts.told {p : Watch} {b n : ℕ} {ms : List PollMove} (h : Around p 0 0 ms ∧ n = 1)
    (hb : 1 ≤ b) : Counts p 0 0 b n ms :=
  ⟨h.1, h.2.trans_le hb, fun hn => absurd (h.2.symm.trans hn) Nat.one_ne_zero⟩

/-- A function of `poll`, by the moves that it makes. -/
abbrev Plays {α : Type} (h : LoopHost) (cb : EventNote → Code EventWorld Unit)
    (G : EventWorld → EventNote → Prop) (P : EventWorld → Prop) (m : Code EventWorld α)
    (Q : α → List PollMove → EventWorld → Prop) : Prop :=
  Makes (Does h cb G) P m Q fun _ _ => True

namespace Plays

variable {α β : Type} {h : LoopHost} {cb : EventNote → Code EventWorld Unit}
variable {G : EventWorld → EventNote → Prop} {P : EventWorld → Prop} {p : Watch} {t id : ℕ}
variable {S : EventObject → Prop} {pending : Pending} {ps : List Watch} {flags : Flags}

/-- Every object that there is under this number satisfies `S`. -/
def Finds (id : ℕ) (S : EventObject → Prop) (w : EventWorld) : Prop := ∀ o, w.find id = some o → S o

theorem Finds.any (id : ℕ) (w : EventWorld) : Finds id (fun _ => True) w := fun _ _ => trivial

section Rules

variable {m : Code EventWorld α} {g : α → Code EventWorld β} {A : α → EventWorld → Prop}

/-- Questions come before. -/
theorem asking {Q : β → List PollMove → EventWorld → Prop}
    (hm : Plays h cb G P m fun a ms w => Questions ms ∧ A a w)
    (hg : ∀ a ms, Questions ms → Plays h cb G (A a) (g a) fun b ms' => Q b (ms ++ ms')) :
    Plays h cb G P (m >>= g) Q :=
  Makes.bind hm fun a ms w hw => hg a ms hw.1 w hw.2

/-- Both parts neither receive nor flush. -/
theorem aside (hm : Plays h cb G P m fun a ms w => Around p 0 0 ms ∧ A a w)
    (hg : ∀ a, Plays h cb G (A a) (g a) fun _ ms _ => Around p 0 0 ms) :
    Plays h cb G P (m >>= g) fun _ ms _ => Around p 0 0 ms := by
  refine Makes.bind hm fun a ms => .assume fun w hw => ?_
  exact (hg a).mono (fun _ ht => ht ▸ hw.2) (fun _ _ _ hms' => hw.1.append hms') fun _ _ _ => trivial

/-- The same where the first part leaves nothing to be known. -/
theorem next (hm : Plays h cb G P m fun _ ms _ => Around p 0 0 ms)
    (hg : ∀ a, Plays h cb G (fun _ => True) (g a) fun _ ms _ => Around p 0 0 ms) :
    Plays h cb G P (m >>= g) fun _ ms _ => Around p 0 0 ms :=
  aside (A := fun _ _ => True) (hm.post fun _ _ _ hms => ⟨hms, trivial⟩) hg

theorem ret {a : α} : Plays h cb G P (pure a) fun _ ms _ => Around p 0 0 ms :=
  Makes.ret fun _ _ => Questions.nil.around

theorem whenever {c : Bool} {m : Code EventWorld Unit}
    (hm : Plays h cb G P m fun _ ms _ => Around p 0 0 ms) :
    Plays h cb G P (Code.whenever c m) fun _ ms _ => Around p 0 0 ms :=
  Makes.whenever (fun _ => hm) fun _ _ _ => Questions.nil.around

end Rules

theorem note {e : PollEvent} (he : e.moves = none)
    (hP : ∀ w, P w → P { w with log := w.log ++ [e] }) :
    Plays h cb G P (note e) fun _ ms w => Questions ms ∧ P w :=
  Makes.one (fun w _ => .ask (.logged w he) rfl)
    (fun _ hw _ _ => ⟨.one rfl, hP _ hw⟩) fun _ _ _ _ => trivial

/-- An object is asked something. -/
theorem look {f : EventObject → α × EventObject} (hf : ∀ o, ∃ tick, (f o).2 = o.atTick tick) :
    Plays h cb G (Finds id S) (look t id f) fun a ms w => Questions ms ∧
      ∃ o, S o ∧ a = (f o).1 ∧ w.find id = some (f o).2 := by
  intro w hw
  rw [EventWorld.look, EventWorld.use]
  cases ho : w.find id with
  | none => exact ⟨[.ask], .one (.ask (.logged w rfl) rfl), nofun, fun _ _ => trivial⟩
  | some o =>
    refine ⟨[.ask], .one (.ask (.store ho (hf o) rfl) rfl), fun a ha => ?_, nofun⟩
    obtain rfl := Except.ok.inj ha
    exact ⟨.one rfl, o, hw o ho, rfl, find_store_same ho⟩

/-- The same where nothing is to be known of the object. -/
theorem look_any {f : EventObject → α × EventObject} (hf : ∀ o, ∃ tick, (f o).2 = o.atTick tick) :
    Plays h cb G (fun _ => True) (EventWorld.look t id f) fun _ ms _ => Questions ms :=
  (look (S := fun _ => True) hf).mono (fun _ _ => .any _ _) (fun _ _ _ hw => hw.1) fun _ _ _ => trivial

/-- An object is acted on. -/
theorem act {f : EventObject → α × EventObject} (m : ObjectMove)
    (hf : ∀ o, (f o).2 = (m.run (h.objects p.socket) o).2) :
    Plays h cb G (Finds p.socket S) (act p m.action f) fun x ms w =>
      ∃ o, S o ∧ x = (f o).1 ∧ w.find p.socket = some (f o).2 ∧
        ms = [.act p.token p.socket m (m.run (h.objects p.socket) o).1] := by
  intro w hw
  rw [EventWorld.act, EventWorld.use]
  cases ho : w.find p.socket with
  | none => exact ⟨[.ask], .one (.ask (.logged w rfl) rfl), nofun, fun _ _ => trivial⟩
  | some o =>
    refine ⟨[.act p.token p.socket m (m.run (h.objects p.socket) o).1], .one ?_, fun x hx => ?_,
      nofun⟩
    · dsimp only
      rw [hf o]
      exact .act p.token m p.connection ho fun hreceive => hreceive ▸ o.pollReceive_once _
    · obtain rfl := Except.ok.inj hx
      exact ⟨o, hw o ho, rfl, find_store_same ho, rfl⟩

/-- An action that neither receives nor flushes. -/
theorem act_aside {f : EventObject → α × EventObject} (m : ObjectMove)
    (hf : ∀ o, (f o).2 = (m.run (h.objects p.socket) o).2)
    (hm : ∀ n, PollMove.receives (.act p.token p.socket m n) = false ∧
      PollMove.flushes (.act p.token p.socket m n) = false) :
    Plays h cb G (Finds p.socket S) (EventWorld.act p m.action f) fun x ms w => Around p 0 0 ms ∧
      ∃ o, S o ∧ x = (f o).1 ∧ w.find p.socket = some (f o).2 := by
  refine (act m hf).post fun x ms w hw => ?_
  obtain ⟨o, ho, hx, hfind, rfl⟩ := hw
  refine ⟨.act (fun hr => ?_) fun hf => ?_, o, ho, hx, hfind⟩
  · rw [(hm _).1] at hr
    cases hr
  · rw [(hm _).2] at hf
    cases hf

/-- The same where nothing is to be known of the object before. -/
theorem act_any {f : EventObject → α × EventObject} (m : ObjectMove)
    (hf : ∀ o, (f o).2 = (m.run (h.objects p.socket) o).2)
    (hm : ∀ n, PollMove.receives (.act p.token p.socket m n) = false ∧
      PollMove.flushes (.act p.token p.socket m n) = false) :
    Plays h cb G (fun _ => True) (EventWorld.act p m.action f) fun x ms w => Around p 0 0 ms ∧
      ∃ o, x = (f o).1 ∧ w.find p.socket = some (f o).2 := by
  refine (act_aside (S := fun _ => True) m hf hm).mono (fun _ _ => .any _ _) ?_ fun _ _ _ => trivial
  rintro x ms w ⟨hms, o, -, hx, hfind⟩
  exact ⟨hms, o, hx, hfind⟩

theorem getIfActive : Plays h cb G P (getIfActive t) fun _ ms w => Questions ms ∧ P w :=
  Makes.read fun _ hw => ⟨Questions.nil, hw⟩

/-- A question about the socket, if it is still the one that is watched. -/
theorem currentAnd {x : α} {f : EventObject → α × EventObject}
    (hf : ∀ o, ∃ tick, (f o).2 = o.atTick tick) :
    Plays h cb G (fun _ => True) (currentAnd p x f) fun _ ms _ => Questions ms := by
  refine asking (A := fun _ _ => True) (getIfActive.post fun _ _ _ hw => hw) fun active ms hms => ?_
  refine .ite (fun _ => Makes.ret fun _ _ => hms.append .nil) fun _ => ?_
  refine asking (A := fun _ _ => True) ((look_any fun o => o.exists_atTick).post
    fun _ _ _ hw => ⟨hw, trivial⟩) fun same ms' hms' => ?_
  refine .ite (fun _ => Makes.ret fun _ _ => hms.append (hms'.append .nil)) fun _ => ?_
  exact (look_any hf).post fun _ _ _ hw => hms.append (hms'.append hw)

theorem current : Plays h cb G (fun _ => True) (current p) fun _ ms _ => Questions ms :=
  currentAnd fun o => o.exists_atTick

/-- Why a descriptor is reported as failed. -/
theorem descriptorError :
    Plays h cb G (fun _ => True) (descriptorError h flags) fun code ms _ => Questions ms ∧
      (h.Reports → code ∈ libraryCodes) := by
  refine .ite (fun _ => Makes.ret fun _ _ => ⟨.nil, fun _ => by decide⟩) fun _ => ?_
  refine Makes.one (k := fun _ => .getsockopt) (fun w _ => .getsockopt w)
    (fun w _ code hcode => ⟨.one rfl, fun hrep => ?_⟩) fun _ _ _ _ => trivial
  obtain rfl := Except.ok.inj hcode
  exact socketPendingError_mem (hrep.getsockopt w.tick)

/-- An event is counted after what its handlers are told. -/
theorem telling {m : Code EventWorld α} {g : α → Code EventWorld ℕ} {A : α → EventWorld → Prop}
    (hm : Plays h cb G P m fun a ms w => Around p 0 0 ms ∧ A a w)
    (hg : ∀ a, Plays h cb G (A a) (g a) fun n ms _ => Around p 0 0 ms ∧ n = 1) :
    Plays h cb G P (m >>= g) fun n ms _ => Around p 0 0 ms ∧ n = 1 := by
  refine Makes.bind hm fun a ms => .assume fun w hw => ?_
  exact (hg a).mono (fun _ ht => ht ▸ hw.2) (fun _ _ _ hg => ⟨hw.1.append hg.1, hg.2⟩)
    fun _ _ _ => trivial

theorem counted {m : Code EventWorld α} (hm : Plays h cb G P m fun _ ms _ => Around p 0 0 ms) :
    Plays h cb G P (m >>= fun _ => (pure 1 : Code EventWorld ℕ)) fun n ms _ =>
      Around p 0 0 ms ∧ n = 1 :=
  telling (A := fun _ _ => True) (hm.post fun _ _ _ hms => ⟨hms, trivial⟩) fun _ =>
    Makes.ret fun _ _ => ⟨Questions.nil.around, rfl⟩

/-- A socket is asked something before. -/
theorem askingThen {m : Code EventWorld α} {g : α → Code EventWorld ℕ} {A : α → EventWorld → Prop}
    {r f b : ℕ} (hm : Plays h cb G P m fun a ms w => Questions ms ∧ A a w)
    (hg : ∀ a, Plays h cb G (A a) (g a) fun n ms _ => Counts p r f b n ms) :
    Plays h cb G P (m >>= g) fun n ms _ => Counts p r f b n ms :=
  asking hm fun a _ hms => (hg a).post fun _ _ _ h => h.asked hms

section Handlers

variable (hG : ∀ w n, (h.Reports → Explained w n) → G w n)

include hG

/-- A handler is told something that `Explained` allows. -/
theorem callback (level : CallbackLevel) (n : Notice) :
    Plays h cb G (fun w => h.Reports → Explained w ⟨level, p.socket, n⟩)
      (callback cb pending p level n) fun _ ms _ => Around p 0 0 ms := by
  refine aside ((note rfl fun _ hw => hw).post fun _ _ _ hw => ⟨hw.1.around, hw.2⟩) fun _ => ?_
  have htell : Plays h cb G (fun w => h.Reports → Explained w ⟨level, p.socket, n⟩)
      (cb ⟨level, p.socket, n⟩) fun _ ms _ => Around p 0 0 ms :=
    Makes.one (fun w hw => .tell _ (hG w _ hw)) (fun _ _ _ _ => .tell _) fun _ _ _ _ => trivial
  refine next htell fun _ => ?_
  have hcompare : Plays h cb G (fun _ => True) (Code.modify fun w => { w with
      log := w.log ++ (pending.filter fun q => w.replaces q.1 q.2).map fun q => .replaced q.1.token })
      fun _ ms _ => Around p 0 0 ms :=
    Makes.one (k := fun _ => .ask)
      (fun w _ => .ask (.of_objects rfl rfl rfl rfl _ rfl fun e he => by
        obtain ⟨q, -, rfl⟩ := List.mem_map.mp he
        rfl) rfl)
      (fun _ _ _ _ => (Questions.one rfl).around) fun _ _ _ _ => trivial
  exact next hcompare fun _ => (note rfl fun _ hw => hw).post fun _ _ _ hw => hw.1.around

/-- A handler is told something other than an error. -/
theorem callback_free {level : CallbackLevel} {n : Notice} (hn : ∀ code, n ≠ .error code) :
    Plays h cb G (fun _ => True) (EventLoop.callback cb pending p level n)
      fun _ ms _ => Around p 0 0 ms :=
  (callback hG level n).pre fun _ _ _ code hcode => absurd hcode (hn code)

/-- The handler of the set is told what the library knows. -/
theorem setCallback {n : Notice} (hn : h.Reports → ∀ code, n = .error code → code ∈ libraryCodes) :
    Plays h cb G (fun _ => True) (setCallback cb pending p n) fun _ ms _ => Around p 0 0 ms := by
  refine next (getIfActive.post fun _ _ _ hw => hw.1.around) fun active => whenever ?_
  exact (callback hG .set n).pre fun _ _ hrep code hcode => ⟨hn hrep code hcode, nofun⟩

/-- Both handlers are told. -/
theorem bothCallbacks {n : Notice} (hn : h.Reports → ∀ code, n = .error code → code ∈ libraryCodes) :
    Plays h cb G (fun w => h.Reports → ∀ code, n = .error code →
        ∃ o, w.find p.socket = some o ∧ o.base.errorCode = code)
      (bothCallbacks cb pending p n) fun _ ms _ => Around p 0 0 ms := by
  refine next ((callback hG .socket n).pre fun w hw hrep code hcode => ?_) fun _ => setCallback hG hn
  exact ⟨hn hrep code hcode, fun _ => hw hrep code hcode⟩

theorem bothCallbacks_free {n : Notice} (hn : ∀ code, n ≠ .error code) :
    Plays h cb G (fun _ => True) (EventLoop.bothCallbacks cb pending p n)
      fun _ ms _ => Around p 0 0 ms :=
  (bothCallbacks hG fun _ code hcode => absurd hcode (hn code)).pre
    fun _ _ _ code hcode => absurd hcode (hn code)

theorem closeSocket :
    Plays h cb G (fun _ => True) (closeSocket h cb pending p) fun _ ms _ => Around p 0 0 ms := by
  refine aside (act_any .close (fun _ => rfl) fun _ => ⟨rfl, rfl⟩) fun closed => ?_
  exact (whenever (callback_free (n := .close) hG fun _ => nofun)).pre fun _ _ => trivial

theorem reportClose :
    Plays h cb G (fun _ => True) (reportClose h cb pending p) fun _ ms _ => Around p 0 0 ms := by
  refine next ((note rfl fun _ hw => hw).post fun _ _ _ hw => hw.1.around) fun _ => ?_
  exact next (closeSocket hG) fun _ => setCallback hG fun _ _ hc => Notice.noConfusion hc

/-- An error that the object holds. -/
theorem reportError {code : Int} (hcode : h.Reports → code ∈ libraryCodes) :
    Plays h cb G (Finds p.socket fun o => h.Reports → o.base.errorCode = code)
      (reportError cb pending p code) fun _ ms _ => Around p 0 0 ms := by
  refine aside ((note rfl fun _ hw => hw).post fun _ _ _ hw => ⟨hw.1.around, hw.2⟩) fun _ => ?_
  refine aside ((act_aside (.fail code) (fun _ => rfl) fun _ => ⟨rfl, rfl⟩)) fun _ => ?_
  refine (bothCallbacks hG fun hrep c hc => ?_).pre ?_
  · exact Notice.error.inj hc ▸ hcode hrep
  · rintro w ⟨o, ho, -, hfind⟩ hrep c hc
    obtain rfl := Notice.error.inj hc
    refine ⟨_, hfind, ?_⟩
    rw [← ho hrep]
    cases o <;> rfl

/-- An error that is set first. -/
theorem setAndReportError {code : Int} (hcode : h.Reports → code ∈ libraryCodes) :
    Plays h cb G (fun _ => True) (setAndReportError cb pending p code)
      fun _ ms _ => Around p 0 0 ms := by
  refine aside (act_any (.setError code) (fun _ => rfl) fun _ => ⟨rfl, rfl⟩) fun _ => ?_
  refine (reportError hG hcode).pre ?_
  rintro w ⟨o, -, hfind⟩ o' ho' -
  obtain rfl := Option.some.inj (hfind.symm.trans ho')
  cases o <;> rfl

theorem closeTerminal :
    Plays h cb G (fun _ => True) (closeTerminal h cb pending p) fun _ ms _ => Around p 0 0 ms :=
  next ((currentAnd fun o => o.exists_atTick).post fun _ _ _ hw => hw.around) fun _ =>
    whenever (closeSocket hG)

/-- The error of a failed `poll_step`, which it has left on the object. -/
theorem failStep :
    Plays h cb G (Finds p.socket fun o => o.base.errorCode ∈ libraryCodes) (failStep h cb ps p)
      fun _ ms _ => Around p 0 0 ms := by
  refine aside ((look fun o => o.exists_atTick).post fun _ _ _ hw => ⟨hw.1.around, hw.2⟩)
    fun code w hw => ?_
  obtain ⟨o, hknown, rfl, hfind⟩ := hw
  refine next (P := Finds p.socket fun o' => h.Reports → o'.base.errorCode = o.base.errorCode)
    (reportError hG fun _ => hknown) (fun _ => ?_) w ?_
  · refine next (getIfActive.post fun _ _ _ hw => hw.1.around) fun active => .ite (fun _ => ?_) fun _ => ret
    refine next ((look_any fun o => o.exists_atTick).post fun _ _ _ hw => hw.around) fun valid => ?_
    exact whenever (closeSocket hG)
  · intro o' ho' _
    rw [← Option.some.inj (hfind.symm.trans ho')]

/-- What is told of a failed descriptor. -/
theorem reportDescriptor :
    Plays h cb G (fun _ => True) (do
        let code ← EventLoop.descriptorError h flags
        EventLoop.setAndReportError cb pending p code
        return 1) fun n ms _ => Counts p 0 0 1 n ms :=
  askingThen descriptorError fun _ => .assume fun _ hcode =>
    (counted (setAndReportError hG hcode)).mono (fun _ _ => trivial) (fun _ _ _ ht => .told ht le_rfl)
      fun _ _ _ => trivial

theorem dispatchListener :
    Plays h cb G (fun _ => True) (dispatchListener h cb ps p flags) fun n ms _ => Counts p 0 0 1 n ms := by
  refine .ite (fun _ => ?_) fun _ => .ite (fun _ => reportDescriptor hG) fun _ =>
    Makes.ret fun _ _ => .nothing .nil
  exact (counted (callback_free (n := .listen) hG fun _ => nofun)).post fun _ _ _ ht => .told ht le_rfl

/-- The dispatch of a receive that has been made. -/
theorem afterReceive (o : EventObject) : Plays h cb G
    (fun w => w.find p.socket = some (o.pollReceive (h.objects p.socket)).2) (do
      let received := (o.pollReceive (h.objects p.socket)).1
      if received.1.ret > 0 then
        EventWorld.note (.event p.token (.data received.2))
        EventWorld.act p .count fun o => ((), o.withBase { o.base with n := received.1.ret })
        EventLoop.bothCallbacks cb pending p (.data received.2)
        return 1
      else if received.1.ret = 0 then
        EventLoop.reportClose h cb pending p
        return 1
      else if wouldBlockError received.1.errno then return 0
      else
        let code ← EventWorld.look p.token p.socket fun o => (o.reported received.1.errno, o)
        EventLoop.setAndReportError cb pending p code
        EventLoop.closeTerminal h cb pending p
        return 1) fun n ms _ => Around p 0 0 ms ∧ n = 1 ∨
          (Questions ms ∧ n = 0 ∧ (o.pollReceive (h.objects p.socket)).1.1.ret ≤ 0) := by
  generalize hr : o.pollReceive (h.objects p.socket) = r
  dsimp only
  refine .ite (fun _ => ?_) fun hpos => .ite (fun _ => ?_) fun hzero => .ite (fun _ => ?_) fun hblocked => ?_
  · refine Makes.post (telling (A := fun _ _ => True) ((note (P := fun _ => True) rfl fun _ _ => trivial).mono
      (fun _ _ => trivial) (fun _ _ _ hw => ⟨hw.1.around, trivial⟩) fun _ _ _ => trivial) fun _ => ?_)
      fun _ _ _ ht => .inl ht
    refine telling (act_any (.count r.1.1.ret) (fun _ => rfl) fun _ => ⟨rfl, rfl⟩) fun _ => ?_
    exact (counted (bothCallbacks_free (n := .data r.1.2) hG fun _ => nofun)).pre fun _ _ => trivial
  · exact (counted (reportClose hG)).mono (fun _ _ => trivial) (fun _ _ _ ht => .inl ht) fun _ _ _ => trivial
  · exact Makes.ret fun _ _ => .inr ⟨.nil, rfl, Int.not_lt.mp hpos⟩
  · refine Makes.post (telling (A := fun code _ => h.Reports → code ∈ libraryCodes) ((look
      (S := fun o' => o' = r.2) (f := fun o => (o.reported r.1.1.errno, o)) fun o => o.exists_atTick).mono
      (fun w hw o' ho' => Option.some.inj (ho'.symm.trans hw)) ?_ fun _ _ _ => trivial) fun code =>
      .assume fun w hcode => ?_) fun _ _ _ ht => .inl ht
    · rintro code ms w ⟨hms, o', rfl, rfl, -⟩
      refine ⟨hms.around, fun hrep => ?_⟩
      subst hr
      refine EventObject.pollReceive_coded (hrep.objects p.socket) o ?_ (by simpa using hblocked)
      omega
    · refine telling (A := fun _ _ => True) ((setAndReportError hG hcode).mono (fun _ _ => trivial)
        (fun _ _ _ hw => ⟨hw, trivial⟩) fun _ _ _ => trivial) fun _ => ?_
      exact counted (closeTerminal hG)

theorem dispatchRead :
    Plays h cb G (fun _ => True) (dispatchRead h cb pending p flags) fun n ms _ =>
      Counts p 1 0 1 n ms := by
  refine askingThen (A := fun _ _ => True) ((look_any fun o => o.exists_atTick).post
    fun _ _ _ hw => ⟨hw, trivial⟩) fun ready => .ite (fun _ => ?_) fun _ => ?_
  · refine Makes.bind ((act (S := fun _ => True) (f := EventObject.pollReceive (h.objects p.socket))
      .receive fun _ => rfl).pre fun w _ => .any _ w) fun received ms => .assume ?_
    rintro w ⟨o, -, rfl, hfind, rfl⟩
    refine (afterReceive hG o).mono (fun _ ht => ht ▸ hfind) (fun n ms _ hn => ?_) fun _ _ _ => trivial
    have hrest : Counts p 0 0 1 n ms := by
      obtain htold | ⟨hasks, rfl, -⟩ := hn
      · exact .told htold le_rfl
      · exact .nothing hasks
    refine Counts.after (.act (m := .receive) (r := 1) (f := 0) (fun _ => le_rfl) nofun) (fun hzero m hm => ?_) hrest
    obtain ⟨-, hone⟩ | ⟨-, -, hle⟩ := hn
    · exact absurd (hone.symm.trans hzero) Nat.one_ne_zero
    · rw [List.mem_singleton.mp hm]
      exact ⟨rfl, Int.toNat_of_nonpos hle⟩
  · refine .ite (fun _ => (reportDescriptor hG).post fun _ _ _ h => ?_) fun _ => Makes.ret fun _ _ => ?_
    · exact h.mono (Nat.zero_le _) le_rfl le_rfl
    · exact .nothing .nil

/-- The dispatch of a flush that has been made. -/
theorem afterFlush (o : EventObject) : Plays h cb G (fun _ => True) (do
      let flushed := (o.flushQueued (h.objects p.socket)).1
      if flushed.error ≠ 0 then
        EventLoop.setAndReportError cb ((p, false) :: later ps) p flushed.error
        EventLoop.closeTerminal h cb (later ps) p
        return 1
      else if flushed.drained then
        EventWorld.note (.event p.token .drain)
        EventLoop.bothCallbacks cb (later ps) p .drain
        return 1
      else return if flushed.bytes ≠ 0 then 1 else 0) fun n ms _ => Around p 0 0 ms ∧ n = 1 ∨
        (Questions ms ∧ n = 0 ∧ (o.flushQueued (h.objects p.socket)).1.bytes = 0) := by
  have hcode := (o.flushQueued_reports (e := h.objects p.socket)).1
  generalize (o.flushQueued (h.objects p.socket)).1 = r at hcode ⊢
  dsimp only
  refine .ite (fun herror => ?_) fun _ => .ite (fun _ => ?_) fun _ => ?_
  · refine Makes.post (telling (A := fun _ _ => True) ((setAndReportError hG fun _ => hcode herror).post
      fun _ _ _ hw => ⟨hw, trivial⟩) fun _ => ?_) fun _ _ _ ht => .inl ht
    exact counted (closeTerminal hG)
  · refine Makes.post (telling (A := fun _ _ => True) ((note rfl fun _ hw => hw).post
      fun _ _ _ hw => ⟨hw.1.around, trivial⟩) fun _ => ?_) fun _ _ _ ht => .inl ht
    exact counted (bothCallbacks_free (n := .drain) hG fun _ => nofun)
  · refine Makes.ret fun _ _ => ?_
    by_cases hbytes : r.bytes = 0
    · exact .inr ⟨.nil, by simp [hbytes], hbytes⟩
    · exact .inl ⟨Questions.nil.around, by simp [hbytes]⟩

theorem dispatchQueue :
    Plays h cb G (fun _ => True) (dispatchQueue h cb ps p flags) fun n ms _ => Counts p 0 1 1 n ms := by
  refine askingThen (A := fun _ _ => True) ((currentAnd fun o => o.exists_atTick).post
    fun _ _ _ hw => ⟨hw, trivial⟩) fun ready => .ite (fun _ => Makes.ret fun _ _ => .nothing .nil) fun _ => ?_
  refine Makes.bind ((act (S := fun _ => True) (f := EventObject.flushQueued (h.objects p.socket))
    .flush fun _ => rfl).pre fun w _ => .any _ w) fun flushed ms => .assume ?_
  rintro w ⟨o, -, rfl, -, rfl⟩
  refine (afterFlush hG o).mono (fun _ _ => trivial) (fun n ms _ hn => ?_) fun _ _ _ => trivial
  have hrest : Counts p 0 0 1 n ms := by
    obtain htold | ⟨hasks, rfl, -⟩ := hn
    · exact .told htold le_rfl
    · exact .nothing hasks
  refine Counts.after (.act (m := .flush) (r := 0) (f := 1) nofun fun _ => le_rfl) (fun hzero m hm => ?_) hrest
  obtain ⟨-, hone⟩ | ⟨-, -, hbytes⟩ := hn
  · exact absurd (hone.symm.trans hzero) Nat.one_ne_zero
  · rw [List.mem_singleton.mp hm]
    exact ⟨rfl, hbytes⟩

/-- A step is silent, unless the connect handler is called. -/
theorem pollStep :
    Plays h cb G (fun _ => True) (pollStep h cb ps p flags) fun progress ms w => Around p 0 0 ms ∧
      (progress ≠ 2 → Silent ms) ∧
      (progress < 0 → Finds p.socket (fun o => o.base.errorCode ∈ libraryCodes) w) := by
  refine Makes.bind ((act (S := fun _ => True) (f := EventObject.pollStep (h.objects p.socket) flags)
    (.step flags) fun _ => rfl).pre fun w _ => .any _ w) fun progress ms => .assume ?_
  rintro w ⟨o, -, rfl, hfind, rfl⟩
  generalize hr : o.pollStep (h.objects p.socket) flags = r at hfind ⊢
  refine Makes.bind (Q := fun _ ms' w' => Around p 0 0 ms' ∧ (r.1 ≠ 2 → ms' = [] ∧ w' = w)) ?_
    fun _ ms' => ?_
  · refine Makes.whenever (fun hdone => ?_) fun _ t ht => ⟨Questions.nil.around, fun _ => ⟨rfl, ht⟩⟩
    refine (callback_free (n := .connect) hG fun _ => nofun).mono (fun _ _ => trivial)
      (fun _ _ _ hms' => ⟨hms', fun hne => absurd (of_decide_eq_true hdone) hne⟩) fun _ _ _ => trivial
  · refine Makes.ret fun w' hw' => ⟨?_, fun hne m hm => ?_, fun hlt o' ho' => ?_⟩
    · exact (Around.act (r := 0) (f := 0) (m := .step flags) (n := 0) nofun nofun).append (hw'.1.append Questions.nil.around)
    · rw [(hw'.2 hne).1, List.append_nil, List.append_nil, List.mem_singleton] at hm
      exact hm ▸ ⟨rfl, rfl⟩
    · rw [(hw'.2 (by omega)).2, hfind] at ho'
      obtain rfl := Option.some.inj ho'
      subst hr
      cases o with
      | tls s => exact s.pollStep_coded hlt
      | _ => exact absurd hlt (Int.not_lt.mpr Int.one_nonneg)

theorem dispatchStream :
    Plays h cb G (fun _ => True) (dispatchStream h cb ps p flags) fun n ms _ => Counts p 1 1 2 n ms := by
  have hone {m : Code EventWorld ℕ} {P : EventWorld → Prop} {before : List PollMove}
      (hbefore : Around p 0 0 before) (hm : Plays h cb G P m fun n ms _ => Around p 0 0 ms ∧ n = 1) :
      Plays h cb G P m fun n ms _ => Counts p 1 1 2 n (before ++ ms) :=
    hm.post fun n ms _ ht => (Counts.told ⟨hbefore.append ht.1, ht.2⟩ le_rfl).mono
      (Nat.zero_le _) (Nat.zero_le _) (by decide)
  refine Makes.bind (pollStep hG) fun progress ms => .assume fun w hw => ?_
  refine .ite (fun hlt => ?_) fun _ => .ite (fun _ => ?_) fun _ => .ite (fun _ => ?_) fun _ =>
    .ite (fun _ => ?_) fun _ => ?_
  · exact hone hw.1 ((counted (failStep hG)).pre fun _ ht => ht ▸ hw.2.2 hlt)
  · exact hone hw.1 (Makes.ret fun _ _ => ⟨Questions.nil.around, rfl⟩)
  · exact hone hw.1 ((counted (reportClose hG)).pre fun _ _ => trivial)
  · refine hone hw.1 ((telling (A := fun _ _ => True) (current.post fun _ _ _ hms => ⟨hms.around, trivial⟩)
      fun here => ?_).pre fun _ _ => trivial)
    exact counted (whenever (callback_free (n := .connect) hG fun _ => nofun))
  · rename_i hready
    refine Makes.bind ((dispatchRead hG).pre fun _ _ => trivial) fun read ms' => .assume fun _ hread => ?_
    refine Makes.bind ((dispatchQueue hG).pre fun _ _ => trivial) fun flushed ms'' => ?_
    refine Makes.ret fun _ hflushed => ⟨?_, Nat.add_le_add hread.count hflushed.count, fun hzero => ?_⟩
    · exact hw.1.append (hread.around.append (hflushed.around.append Questions.nil.around))
    · obtain ⟨rfl, rfl⟩ := Nat.add_eq_zero_iff.mp hzero
      refine (hw.2.1 hready).append ((hread.idle rfl).append ?_)
      exact (hflushed.idle rfl).append Questions.nil.silent

theorem dispatchTcp :
    Plays h cb G (fun _ => True) (dispatchTcp h cb ps p flags) fun n ms _ => Counts p 1 1 2 n ms := by
  refine askingThen (A := fun _ _ => True) (current.post fun _ _ _ hms => ⟨hms, trivial⟩) fun here => ?_
  refine .ite (fun _ => Makes.ret fun _ _ => .nothing .nil) fun _ => ?_
  refine askingThen (A := fun _ _ => True) ((look_any fun o => o.exists_atTick).post
    fun _ _ _ hms => ⟨hms, trivial⟩) fun listening => .ite (fun _ => ?_) fun _ => dispatchStream hG
  exact (dispatchListener hG).post fun _ _ _ hn => hn.mono (Nat.zero_le _) (Nat.zero_le _) (by decide)

omit hG in
theorem recvfrom :
    Plays h cb G (fun _ => True) (recvfrom h p) fun received ms _ =>
      ms = [.recvfrom p.token p.socket received.1.ret.toNat] ∧
        (h.Reports → received.1.ret < 0 → received.1.errno ≠ 0) := by
  refine Makes.one
    (k := fun w => .recvfrom p.token p.socket
      (h.recvfrom w.tick Socket.maxBufferSize).1.ret.toNat)
    (fun w _ => .recvfrom p.token p.socket w) (fun w _ received hr => ?_) fun _ _ _ _ => trivial
  obtain rfl := Except.ok.inj hr
  exact ⟨rfl, fun hrep => hrep.recvfrom w.tick _⟩

/-- The dispatch of a `recvfrom` that has been made. -/
theorem afterRecvfrom (received : IoResult × List UInt8 × Sockaddr)
    (herrno : h.Reports → received.1.ret < 0 → received.1.errno ≠ 0) : Plays h cb G (fun _ => True) (do
      if received.1.ret ≥ 0 then
        EventWorld.note (.event p.token (.datagram received.2.1 received.2.2))
        EventWorld.act p .count (datagramFrom received.1.ret received.2.2)
        EventLoop.bothCallbacks cb pending p (.datagram received.2.1 received.2.2)
        return 1
      else if wouldBlockError received.1.errno then return 0
      else
        EventLoop.setAndReportError cb pending p (translateNativeError received.1.errno)
        return 1) fun n ms _ => Around p 0 0 ms ∧ n = 1 ∨
          (Questions ms ∧ n = 0 ∧ received.1.ret ≤ 0) := by
  refine .ite (fun _ => ?_) fun hneg => .ite (fun _ => Makes.ret fun _ _ => .inr ⟨.nil, rfl, by omega⟩)
    fun _ => ?_
  · refine Makes.post (telling (A := fun _ _ => True) ((note rfl fun _ hw => hw).post
      fun _ _ _ hw => ⟨hw.1.around, trivial⟩) fun _ => ?_) fun _ _ _ ht => .inl ht
    refine telling (act_any (.datagram received.1.ret received.2.2) (fun _ => rfl)
      fun _ => ⟨rfl, rfl⟩) fun _ => ?_
    exact (counted (bothCallbacks_free (n := .datagram received.2.1 received.2.2) hG
      fun _ => nofun)).pre fun _ _ => trivial
  · refine (counted (setAndReportError hG fun hrep => ?_)).post fun _ _ _ ht => .inl ht
    exact translateNativeError_mem (herrno hrep (by omega))

theorem dispatchUdp :
    Plays h cb G (fun _ => True) (dispatchUdp h cb ps p flags) fun n ms _ => Counts p 1 0 1 n ms := by
  refine askingThen (A := fun _ _ => True) (current.post fun _ _ _ hms => ⟨hms, trivial⟩) fun here => ?_
  refine .ite (fun _ => Makes.ret fun _ _ => .nothing .nil) fun _ => .ite (fun _ => ?_) fun _ =>
    .ite (fun _ => ?_) fun _ => Makes.ret fun _ _ => .nothing .nil
  · refine Makes.bind recvfrom fun received ms => .assume ?_
    rintro w ⟨rfl, herrno⟩
    refine (afterRecvfrom hG received herrno).mono (fun _ _ => trivial) (fun n ms _ hn => ?_)
      fun _ _ _ => trivial
    have hreceive : Around p 1 0 [.recvfrom p.token p.socket received.1.ret.toNat] := by
      refine ⟨fun m hm x hx => ?_, le_rfl, le_rfl⟩
      rw [List.mem_singleton.mp hm] at hx
      exact (Option.some.inj hx).symm
    have hrest : Counts p 0 0 1 n ms := by
      obtain htold | ⟨hasks, rfl, -⟩ := hn
      · exact .told htold le_rfl
      · exact .nothing hasks
    refine Counts.after hreceive (fun hzero m hm => ?_) hrest
    obtain ⟨-, hone⟩ | ⟨-, -, hle⟩ := hn
    · exact absurd (hone.symm.trans hzero) Nat.one_ne_zero
    · rw [List.mem_singleton.mp hm]
      exact ⟨rfl, Int.toNat_of_nonpos hle⟩
  · exact (reportDescriptor hG).post fun _ _ _ hn => hn.mono (Nat.zero_le _) le_rfl le_rfl

omit hG in
theorem isDue : Plays h cb G (fun _ => True) (isDue h p flags) fun _ ms _ => Questions ms := by
  refine .ite (fun _ => Makes.ret fun _ _ => .nil) fun _ => ?_
  refine asking (A := fun _ _ => True) (getIfActive.post fun _ _ _ hw => hw) fun active ms hms => ?_
  refine .ite (fun _ => Makes.ret fun _ _ => hms.append .nil) fun _ => ?_
  refine asking (A := fun _ _ => True) ((look_any fun o => o.pollTimeoutMs_atTick _).post
    fun _ _ _ hw => ⟨hw, trivial⟩) fun due ms' hms' => Makes.ret fun _ _ => ?_
  exact hms.append (hms'.append .nil)

theorem dispatch :
    Plays h cb G (fun _ => True) (dispatch h cb ps p flags) fun n ms _ => Counts p 1 1 2 n ms := by
  refine askingThen (A := fun _ _ => True) (isDue.post fun _ _ _ hms => ⟨hms, trivial⟩) fun due => ?_
  refine .ite (fun _ => Makes.ret fun _ _ => .nothing .nil) fun _ => .ite (fun _ => ?_) fun _ =>
    dispatchTcp hG
  exact (dispatchUdp hG).post fun _ _ _ hn => hn.mono le_rfl (Nat.zero_le _) (by decide)

end Handlers

end Plays

end Aeon
