import Aeon.PollWait
import Aeon.SessionLifetimes
import Aeon.TlsPrograms

/-!
# Deadlines until the turn of the socket

Between the wait of `poll` and the turn of a socket, handlers may do anything.
The clock of the socket goes on all the same, so that a deadline which has passed
has still passed, if it is still the deadline of the socket.
-/

namespace Aeon

open Program Reentrant History EventWorld EventLoop

theorem Socket.tick_le_close (h : Host) (s : Socket) : s.tick ≤ (s.close h).2.tick := by
  unfold Socket.close
  split
  · exact le_rfl
  · dsimp only
    split <;> exact Nat.le_succ _

theorem Socket.tick_le_create (h : Host) (family : Family) (s : Socket) :
    s.tick ≤ (s.create h family).2.tick := by
  have hnoted : s.noteReopened.tick = s.tick := by
    unfold Socket.noteReopened
    cases s.sockfd <;> rfl
  unfold Socket.create
  dsimp only
  cases h.socket s.tick with
  | none | some fd => exact Nat.le_succ_of_le hnoted.ge

namespace SslEventSocket

variable {e : TlsHost} {s t u : SslEventSocket}

theorem tick_le_sendAlert (s : SslEventSocket) : s.tick ≤ s.sendAlert.tick := by
  unfold sendAlert
  split
  · exact le_rfl
  · split
    · exact Nat.le_succ _
    · exact le_rfl

theorem freeSession_tick (s : SslEventSocket) : s.freeSession.tick = s.tick := by
  unfold freeSession
  cases s.session <;> rfl

theorem tick_le_close (s : SslEventSocket) : s.tick ≤ (s.close e).2.tick := by
  have hfreed : s.tick ≤ s.sendAlert.freeSession.tick :=
    (tick_le_sendAlert s).trans (freeSession_tick _).ge
  have hclosed : s.tick ≤ (s.sendAlert.freeSession.toSocket.close e.toHost).2.tick :=
    hfreed.trans (Socket.tick_le_close e.toHost _)
  unfold close
  dsimp only
  split <;> exact hclosed

theorem tick_le_initSession (server : Bool) (s : SslEventSocket) :
    s.tick ≤ (s.initSession e server).2.tick := by
  have hfreed := (freeSession_tick s).ge
  unfold initSession
  split
  · exact le_rfl
  · dsimp only
    split
    · exact Nat.le_succ_of_le hfreed
    · split
      · exact hfreed.trans (Nat.le_add_right _ 2)
      · exact hfreed.trans (Nat.le_add_right _ 3)

theorem tick_le_startClient (identity : String) (s : SslEventSocket) :
    s.tick ≤ (s.startClient e identity).2.tick := by
  have hrefused (code : Int) {t : SslEventSocket} (ht : s.tick ≤ t.tick) :
      s.tick ≤ (t.refuseClient e code).2.tick := ht.trans (tick_le_close (e := e) (t.setError code))
  have hmode : s.tick ≤ (s.toSocket.setBlocking e.toHost false).2.tick :=
    (Socket.aside_setBlocking e.toHost false s.toSocket).tick
  unfold startClient
  dsimp only
  split
  · exact hrefused _ le_rfl
  · split
    · exact hrefused _ hmode
    · generalize hasked : ({ s with
        expectedIdentity := identity
        toSocket := (s.toSocket.setBlocking e.toHost false).2 } : SslEventSocket) = t
      have hmade : s.tick ≤ (t.initSession e false).2.tick := by
        refine le_trans ?_ (tick_le_initSession false t)
        rw [← hasked]
        exact hmode
      generalize t.initSession e false = made at hmade
      split
      · exact hrefused _ hmade
      · have hnamed : s.tick ≤ (made.2.requireIdentity e).2.tick := by
          unfold requireIdentity
          split
          · dsimp only
            split <;> exact Nat.le_succ_of_le hmade
          · exact hmade
        generalize made.2.requireIdentity e = named at hnamed
        split
        · exact hrefused _ hnamed
        · have hsni : s.tick ≤ (named.2.requestServerName e identity).2.tick := by
            unfold requestServerName
            split
            · exact hnamed
            · exact Nat.le_succ_of_le hnamed
          split
          · exact hrefused _ hsni
          · exact hsni

theorem tick_le_callShutdown (id : ℕ) (flags : Flags) (s : SslEventSocket) :
    s.tick ≤ (s.callShutdown e id flags).2.tick := by
  unfold callShutdown
  dsimp only
  split
  · exact Nat.le_succ _
  · split
    · exact Nat.le_succ _
    · split
      · split <;> exact Nat.le_add_right _ 2
      · split <;> exact Nat.le_succ _

theorem tick_le_handshakeStep (id : ℕ) (flags : Flags) (s : SslEventSocket) :
    s.tick ≤ (s.handshakeStep e id flags).2.tick := by
  unfold handshakeStep
  split
  · exact le_rfl
  · split
    · exact le_rfl
    · dsimp only
      split
      · split <;> exact Nat.le_succ _
      · split
        · exact Nat.le_succ _
        · split
          · exact Nat.le_succ _
          · split <;> exact Nat.le_succ _

theorem tick_le_pollStep (flags : Flags) (s : SslEventSocket) :
    s.tick ≤ (s.pollStep e flags).2.tick := by
  unfold pollStep
  split
  · exact le_rfl
  · rename_i id _
    split
    · split
      · unfold shutdownStep
        dsimp only
        split
        · exact Nat.le_succ _
        · split
          · split <;> exact Nat.le_succ _
          · split
            · exact Nat.le_succ _
            · split
              · exact Nat.le_succ _
              · split
                · exact Nat.le_succ _
                · exact (Nat.le_succ _).trans (tick_le_callShutdown id flags (s.clock e).2)
      · split <;> exact le_rfl
    · dsimp only
      split
      · exact Nat.le_succ _
      · exact (Nat.le_succ _).trans (tick_le_handshakeStep id flags (s.clock e).2)

theorem tick_le_pollReceive (room : ℕ) (s : SslEventSocket) :
    s.tick ≤ (s.pollReceive e room).2.tick := by
  unfold pollReceive
  dsimp only
  split
  · exact le_rfl
  · split
    · exact le_rfl
    · split
      · exact Nat.le_succ _
      · split
        · split
          · exact Nat.le_succ _
          · exact Nat.le_add_right _ 2
        · split <;> exact Nat.le_succ _

theorem afterWrite_tick (data : List UInt8) (queued : Bool) (answer : SslResult)
    (s : SslEventSocket) : (s.afterWrite data queued answer).2.tick = s.tick := by
  unfold afterWrite
  split
  · rfl
  · split
    · dsimp only
      split <;> rfl
    · rfl

theorem tick_le_sendTls (data : List UInt8) (queued : Bool) (s : SslEventSocket) :
    s.tick ≤ (s.sendTls e data queued).2.tick := by
  rcases s.sendTls_cases (e := e) data queued with
    ⟨he, -⟩ | ⟨he, -⟩ | ⟨he, -⟩ | ⟨id, requested, -, -, -, -, -, -, -, he⟩
  · exact he ▸ le_rfl
  · exact he ▸ le_rfl
  · exact he ▸ le_rfl
  · rw [he, afterWrite_tick]
    exact Nat.le_succ _

theorem tick_le_queueWrite (data : Option (List UInt8)) (s : SslEventSocket) :
    s.tick ≤ (s.queueWrite data).2.tick := by
  have hqueue := EventSocket.queueWrite_toSocket (!s.shutdownRequested) data s.toEventSocket
  have htick := (congr_arg Socket.tick hqueue).ge
  unfold queueWrite
  dsimp only
  split <;> exact htick

theorem tick_le_flushQueued (budget : ℕ) (s : SslEventSocket) :
    s.tick ≤ (s.flushQueued e budget).2.tick := by
  have hsent := flushQueued_keeps (t := transport e) (I := fun t => s.tick ≤ t.tick)
    (fun data t ht => ht.trans (tick_le_sendTls data true t)) budget s.toEventSocket s le_rfl
  unfold flushQueued flushed
  dsimp only
  split <;> exact hsent

/-- The clock of a TLS object goes on, whatever is done with it. -/
theorem ticks (k : ℕ) : Upheld e (fun _ => True) fun s => k ≤ s.tick where
  base _ _ hb hk := hk.trans hb.tick
  notice _ _ _ hk := hk
  settings _ _ _ _ _ hk := hk
  modeChanged _ hk := hk
  setMaxQueuedBytes _ _ hk := hk
  close s hk := hk.trans (tick_le_close s)
  pollStep flags s hk := hk.trans (tick_le_pollStep flags s)
  pollReceive s room hk := hk.trans (tick_le_pollReceive room s)
  sendTls data s hk := hk.trans (tick_le_sendTls data false s)
  queueWrite data s _ hk := hk.trans (tick_le_queueWrite data s)
  flushQueued s _ hk := hk.trans (tick_le_flushQueued sendBudget s)
  beginGracefulShutdown timeoutMs s hk := by
    unfold beginGracefulShutdown
    split
    · exact hk
    · split
      · exact hk
      · exact Nat.le_succ_of_le hk
  startClient identity s _ hk := hk.trans (tick_le_startClient identity s)

end SslEventSocket

open SslEventSocket in
/-- From some moment on, the TLS object `id` is `k` native answers along at least. -/
theorem aged_carried (h : LoopHost) (id k : ℕ) : Carried h (id + 1)
    (fun i s => i = id → k ≤ s.tick) fun i s => i = id → k ≤ s.tick where
  weaken _ _ hs := hs
  made i s hle _ hi := absurd hi (Nat.ne_of_gt hle)
  part i s o hpart hs := by
    by_cases hi : i = id
    · obtain ⟨t, rfl, ht⟩ := hpart.upheld (ticks k) (fun f hf s hk => hk.trans (hf s.toSocket).tick)
        (fun s hk => hk.trans (Socket.tick_le_close _ s.toSocket)) trivial (hs hi)
      exact ⟨t, rfl, fun _ => ht⟩
    · obtain ⟨t, rfl, -⟩ := hpart.upheld (e := h.objects i) (ticks 0)
        (fun f hf s hk => Nat.zero_le _) (fun s hk => Nat.zero_le _) trivial (Nat.zero_le _)
      exact ⟨t, rfl, fun heq => absurd heq hi⟩
  create i s family hs hi := (hs hi).trans (Socket.tick_le_create _ family s.toSocket)
  failed _ _ hs := hs
  done _ _ hs := hs
  connected _ _ hs := hs
  start i s identity hs hi := (hs hi).trans (tick_le_startClient identity s)

namespace EventLoop

variable (h : LoopHost) (cb : EventNote → Code EventWorld Unit)

/-- What `poll` does after a terminal error of `poll_step` that it has looked up. -/
def failed (ps : List Watch) (p : Watch) (code : Int) : Code EventWorld Unit := do
  reportError cb ((p, true) :: later ps) p code
  let active ← getIfActive p.token
  if active then
    let valid ← look p.token p.socket fun o => (o.base.isValidSocket, o)
    Code.whenever valid (closeSocket h cb (later ps) p)

theorem failStep_eq (ps : List Watch) (p : Watch) : failStep h cb ps p = (do
    let code ← look p.token p.socket fun o => (o.base.errorCode, o)
    failed h cb ps p code) := rfl

/-- `poll` up to its wait: the watched sockets, and whether one has buffered input. -/
def watching : Code EventWorld (List Watch × Bool) := do
  let tokens ← Code.read fun w => (w.sockets, w.udpSockets)
  note (.began (tokens.1 ++ tokens.2))
  let streams ← watchAll false tokens.1
  let datagrams ← watchAll true tokens.2
  let buffered ← askAny h EventObject.pollHasBufferedInput (streams ++ datagrams)
  return (streams ++ datagrams, buffered)

/-- `poll` after its wait. -/
def settle (ps : List Watch) (buffered : Bool) (ready : Int × List Flags × Bool) :
    Code EventWorld Int :=
  if ready.1 < 0 then return ready.1
  else do
    let watched ← readiness h ps buffered ready.2.1
    if ready.1 = 0 && !buffered && !ready.2.2 then return 0
    else
      let handled ← dispatchAll h cb watched
      return handled

theorem pollOwned_eq (fuel : ℕ) (timeoutMs : Int) : pollOwned h cb fuel timeoutMs = (do
    let seen ← watching h
    let ready ← waitReady h seen.1 seen.2 timeoutMs fuel
    settle h cb seen.1 seen.2 ready) := by
  unfold watching
  simp only [bind_assoc, pure_bind]
  rfl

end EventLoop

/-- The dispatch of `watched` comes to `p` in `u`: the sockets before it have been
dispatched, and `ps` come after it. -/
inductive ComesTo (h : LoopHost) (cb : EventNote → Code EventWorld Unit) (p : Watch) (flags : Flags)
    (ps : List Watch) : List (Watch × Flags) → EventWorld → EventWorld → Prop
  | here {rest w} (hps : rest.map (·.1) = ps) : ComesTo h cb p flags ps ((p, flags) :: rest) w w
  | later {q rest w w' handled u}
      (ran : dispatch h cb (rest.map (·.1)) q.1 q.2 w = (.ok handled, w'))
      (comes : ComesTo h cb p flags ps rest w' u) : ComesTo h cb p flags ps (q :: rest) w u

/-- The dispatch of `p` from `w` on reports that the deadline of `s` has passed:
it counts one event, which is an error of the object that its handlers and those
of the set are told of before the object is closed. -/
def Reports (h : LoopHost) (cb : EventNote → Code EventWorld Unit) (p : Watch) (flags : Flags)
    (ps : List Watch) (s : SslEventSocket) (w : EventWorld) : Prop :=
  ∃ t u, At p t u ∧ t.log = s.log ∧ t.session = s.session ∧ t.errorCode = s.deadlineError ∧
    dispatch h cb ps p flags w = (do
      failed h cb ps p s.deadlineError
      return 1) u

namespace At

open SslEventSocket

variable {h : LoopHost} {cb : EventNote → Code EventWorld Unit} {p : Watch} {ps : List Watch}
variable {s t : SslEventSocket} {flags : Flags} {d : ℕ} {E : Halt → EventWorld → Prop}
variable {w : EventWorld}

/-- A passed deadline needs no readiness. -/
theorem isDue_overdue (hudp : p.udp = false) (hd : s.deadline = some d)
    (hnow : d ≤ (h.objects p.socket).tls.now s.tick) : ∃ t, (t = s ∨ t = s.ticked) ∧
      ∀ E, Triple (At p s) (isDue h p flags) (fun b w => b = true ∧ At p t w) E := by
  by_cases hany : flags.any = true
  · refine ⟨s, .inl rfl, fun E => ?_⟩
    rw [isDue, if_pos hany]
    exact .ret fun _ hw => ⟨rfl, hw⟩
  · have hasked : EventObject.pollTimeoutMs (h.objects p.socket) (.tls s) = (0, .tls s.ticked) := by
      show EventObject.ofTls (s.pollTimeoutMs (h.objects p.socket).tls) = _
      rw [pollTimeoutMs_eq, hd, Option.elim_some, remainingMs_eq_zero.mpr hnow]
      rfl
    refine ⟨s.ticked, .inr rfl, fun E => ?_⟩
    rw [isDue, if_neg hany]
    have hon : Triple (At p s) (getIfActive p.token) (fun b w => b = true ∧ At p s w) E :=
      fun w hw => ⟨hw.active, hw⟩
    refine Triple.bind_value hon ?_
    rw [hudp]
    refine Triple.bind_value (use hasked) ?_
    exact .ret fun _ hw => ⟨rfl, hw⟩

/-- A `poll_step` that finds the deadline passed. -/
theorem stream_overdue {Q : ℕ → EventWorld → Prop} (hd : t.deadline = some d)
    (hnow : d ≤ (h.objects p.socket).tls.now t.tick)
    (hrest : Triple (At p (t.ticked.setError t.deadlineError)) (do
      failed h cb ps p t.deadlineError
      return 1) Q E) : Triple (At p t) (dispatchStream h cb ps p flags) Q E := by
  have hact : (EventObject.tls t).pollStep (h.objects p.socket) flags =
      (-1, .tls (t.ticked.setError t.deadlineError)) := by
    show EventObject.ofTls (t.pollStep (h.objects p.socket).tls flags) = _
    rw [pollStep_overdue hd hnow]
    rfl
  have hstep : Triple (At p t) (EventLoop.pollStep h cb ps p flags)
      (fun b w => b = -1 ∧ At p (t.ticked.setError t.deadlineError) w) E := by
    refine Triple.bind_value (use hact) ?_
    exact Triple.bind (Q := fun _ => At p (t.ticked.setError t.deadlineError))
      (.ret fun _ hw => hw) fun _ => .ret fun _ hw => ⟨rfl, hw⟩
  refine Triple.bind_value hstep ?_
  refine .ite (fun _ => ?_) fun hno => absurd (by decide) hno
  rw [failStep_eq, bind_assoc]
  exact Triple.bind_value (look fun o => o.base.errorCode) hrest

/-- The turn of a watched socket whose deadline has passed. -/
theorem reports (hclock : Monotone (h.objects p.socket).tls.now) (hs : Watching p s w)
    (hd : s.deadline = some d) (hnow : d ≤ (h.objects p.socket).tls.now s.tick) :
    Reports h cb p flags ps s w := by
  obtain ⟨t, ht, hdue⟩ : ∃ t, (t = s ∨ t = s.ticked) ∧
      ∀ E, Triple (At p s) (isDue h p flags) (fun b w => b = true ∧ At p t w) E :=
    isDue_overdue hs.stream hd hnow
  have hlate : t.deadline = some d ∧ d ≤ (h.objects p.socket).tls.now t.tick ∧
      t.sockfd = some p.fd ∧ t.deadlineError = s.deadlineError := by
    rcases ht with rfl | rfl
    · exact ⟨hd, hnow, hs.sockfd, rfl⟩
    · exact ⟨hd, hnow.trans (hclock (Nat.le_succ _)), hs.sockfd, rfl⟩
  obtain ⟨hd', hnow', hfd, herror⟩ := hlate
  have hruns : ∃ u, At p (t.ticked.setError t.deadlineError) u ∧
      EventLoop.dispatch h cb ps p flags w = (do
        failed h cb ps p t.deadlineError
        return 1) u :=
    Triple.runs (fun Q E hrest => dispatch_due hs.stream hfd (hdue E)
      (stream_overdue hd' hnow' hrest)) hs.toAt
  obtain ⟨u, hu, hrun⟩ := hruns
  refine ⟨_, u, hu, ?_, ?_, herror, herror ▸ hrun⟩
  · rcases ht with rfl | rfl <;> rfl
  · rcases ht with rfl | rfl <;> rfl

end At

section Turns

variable {h : LoopHost} {cb : EventNote → Code EventWorld Unit} {p : Watch} {ps : List Watch}
variable {s t : SslEventSocket} {flags : Flags} {fuel d : ℕ} {w v : EventWorld} {buffered : Bool}
variable {reported : List Flags} {watched : List (Watch × Flags)}

/-- What the dispatch of a socket keeps, holds when the turn of another one comes. -/
theorem ComesTo.keeps {I : EventWorld → Prop} (hcomes : ComesTo h cb p flags ps watched w v)
    (hI : ∀ ps q flags, Keeps I (dispatch h cb ps q flags)) (hw : I w) : I v := by
  induction hcomes with
  | here => exact hw
  | @later q rest w w' handled u ran _ ih =>
    have hkept := hI (rest.map (·.1)) q.1 q.2 w hw
    rw [ran] at hkept
    exact ih hkept

/-- The clock has gone on since a deadline was found passed. -/
theorem overdue_turn {x u : EventWorld} (hclock : ∀ i, Monotone (h.objects i).tls.now)
    (real : Realizable (system h fuel) (fun _ _ => True) (fun _ _ => True) cb)
    (hv : Overdue h p d v) (hready : readiness h ps buffered reported v = (.ok watched, x))
    {qs : List Watch} (hcomes : ComesTo h cb p flags qs watched x u) (ht : Watching p t u) :
    d ≤ (h.objects p.socket).tls.now t.tick := by
  obtain ⟨s, hs, -, hnow⟩ := hv
  have hcarried := aged_carried h p.socket s.tick
  have hI := hcarried.objective.global
  have hlt := lt_of_find hs.object
  have hstart : Sessions (p.socket + 1) (fun i s' => i = p.socket → s.tick ≤ s'.tick) v := by
    refine ⟨hlt, fun i o ho => ?_⟩
    cases o with
    | tls s' =>
      rintro rfl
      obtain rfl := EventObject.tls.inj (Option.some.inj (hs.object.symm.trans ho))
      exact le_rfl
    | _ => trivial
  have hmarked : Keeps (Sessions (p.socket + 1) fun i s' => i = p.socket → s.tick ≤ s'.tick)
      (readiness h ps buffered reported) :=
    keeps_iff.mpr ((hI.readiness _ _ _).post fun _ _ hw => hw.2)
  have hnext := hmarked v hstart
  rw [hready] at hnext
  have hturn := hcomes.keeps (fun ps q flags =>
    hI.dispatch (fun n u => (hcarried.handlers real n u).keep) trivial ps flags) hnext
  exact hnow.trans (hclock p.socket (hturn.each p.socket _ ht.object rfl))

end Turns

/-- What is promised of a wait of `poll` for `ps` that goes from `w` to `v` and gives `r`. -/
structure PollWaits (h : LoopHost) (cb : EventNote → Code EventWorld Unit) (fuel : ℕ)
    (timeoutMs : Int) (ps : List Watch) (buffered : Bool) (w : EventWorld)
    (r : Int × List Flags × Bool) (v : EventWorld) : Prop where
  /-- An infinite wait for at least one socket ends for a reason, and then every
  socket is dispatched unless the native call has failed. -/
  ends : timeoutMs = -1 → ps ≠ [] → Ends h ps buffered timeoutMs fuel w r ∧
    (0 ≤ r.1 → settle h cb ps buffered r = do
      let watched ← readiness h ps buffered r.2.1
      dispatchAll h cb watched)
  /-- Every round asks for no more than the deadlines allow, and so does every
  native wait in it. -/
  rounds : ∀ u effective u', effectiveTimeout h ps timeoutMs u = (.ok effective, u') →
    Timely timeoutMs effective (Reads h ps u) ∧
    ∀ n tick, Always (Bounded (h.now tick) (if buffered then 0 else effective))
      (nativeWait h (ps.map fun p => (p.fd, p.writable)) (if buffered then 0 else effective)
        n tick).calls
  /-- A deadline that is found passed is reported when the turn of its socket comes,
  if it still is the deadline of the socket. -/
  reports : ∀ p d, Observes h ps buffered timeoutMs p d fuel w → 0 ≤ r.1 → r.2.2 = true ∧
    ∀ watched x, readiness h ps buffered r.2.1 v = (.ok watched, x) →
      ∀ flags qs u t, ComesTo h cb p flags qs watched x u → Watching p t u →
        t.deadline = some d → Reports h cb p flags qs t u

/-- A host on which nothing is ever ready, and a second passes from one reading of
an object's clock to the next. -/
def unanswered : LoopHost where
  objects _ := ⟨{ TlsHost.steady with now := fun tick => tick * 1000000000 }, .steady⟩
  poll _ watched timeoutMs :=
    (⟨if timeoutMs = -1 then watched.length else 0, 0⟩, watched.map fun _ => {})
  now _ := 0
  getsockopt _ := ⟨0, 0⟩
  recvfrom _ _ := (⟨0, 0⟩, [], .other)

/-- A registered client whose handshake has begun. -/
def unfinished : EventWorld :=
  after unanswered 8 [.createTls true, .connectTls 0 (.host (some "peer") 443), .add (some 0)]

theorem unanswered_endless : unanswered.Endless := by
  intro tick watched hne
  have hlength : watched.length ≠ 0 := fun h => hne (List.length_eq_zero_iff.mp h)
  exact Int.natCast_ne_zero.mpr hlength

theorem run_of_ok {α : Type} {m : Code EventWorld α} {w : EventWorld} {a : α}
    (hok : (m w).1 = .ok a) : m w = (.ok a, (m w).2) := Prod.ext hok rfl

example : (poll unanswered (fun _ => pure ()) 8 (-1) unfinished).1 = .ok 1 := by decide +kernel

end Aeon
