import Aeon.HttpStreams

/-!
# Silent clients of the HTTP server

The server hears of a client when it arrives and whenever `poll` hands bytes of it to
the data handler, and takes down the time.  A poll that comes to its end retires the
clients that it has not heard of for the idle timeout.
-/

namespace Aeon.Http.Server

open ClientServer

variable (limits : Limits) (h : ℕ → Host)

/-- A server in the state `s` hears of the client at the time `t` if `poll` comes across
this event.  Numbers are given to arrivals in their order. -/
def Hears (s : Server) (id t : ℕ) : Event → Prop
  | .listen arrivals now => t = now ∧ s.made ≤ id ∧ id < (acceptReady limits h arrivals now s).made
  | .data other bytes now => t = now ∧ other = id ∧ id ∈ s.registered ∧ bytes.1 ≠ []
  | _ => False

/-- In some poll of a run the server hears of the client at the time `t`. -/
def Heard (ops : List Op) (id t : ℕ) : Prop :=
  ∃ before events now throws, before ++ [.poll events now throws] <+: ops ∧
    (run limits h before).running = true ∧ ∃ past e, past ++ [e] <+: events ∧
      Hears limits h (past.foldl (event limits h) { run limits h before with polling := true }) id t e

/-- The times that are taken down of the registered clients are among these. -/
def Dated (A : ℕ → ℕ → Prop) (s : Server) : Prop := ∀ id ∈ s.registered, A id (s.record id).data.lastActivity

section Dates

variable {limits h} {A B : ℕ → ℕ → Prop} {s s' : Server}

theorem Dated.mono (hs : Dated A s) (hAB : ∀ id t, A id t → B id t) : Dated B s :=
  fun id hid => hAB id _ (hs id hid)

theorem Dated.quiet (hs : Dated A s) (hquiet : s.Quiet s') : Dated A s' := by
  intro id hid
  rw [hquiet.data]
  exact hs id (hquiet.registered id hid)

theorem sendResponse_lastActivity (r : Response) (p : Record) :
    (sendResponse r p).data.lastActivity = p.data.lastActivity := by
  rcases sendResponse_cases r p with ⟨c, heq, -⟩ | ⟨c, heq, -⟩
  · rw [heq]
  · rw [heq]

theorem receiveLoop_lastActivity (limits : Limits) (left : ℕ) (p : Record) :
    (receiveLoop limits left p).data.lastActivity = p.data.lastActivity := by
  fun_induction receiveLoop limits left p with
  | case1 | case3 => rfl
  | case2 | case4 | case5 => exact sendResponse_lastActivity _ _
  | case6 p _ stop _ _ left ih => exact ih.trans (sendResponse_lastActivity _ _)

/-- Bytes that the data handler works on are taken down, others change nothing. -/
theorem receive_lastActivity (limits : Limits) (now : ℕ) (data : List UInt8) (p : Record) :
    (Http.receive limits now data p).data.lastActivity = p.data.lastActivity ∨
      data ≠ [] ∧ (Http.receive limits now data p).data.lastActivity = now := by
  unfold Http.receive
  split
  · exact .inl rfl
  · rename_i hheeds
    simp only [Bool.or_eq_true, not_or, List.isEmpty_iff] at hheeds
    refine .inr ⟨hheeds.2, ?_⟩
    have hloop := receiveLoop_lastActivity limits maxPipelinedPerEvent
      { p with data := { p.data with lastActivity := now, incoming := p.data.incoming ++ data } }
    dsimp only
    split
    · split
      · exact (sendResponse_lastActivity _ _).trans hloop
      · exact hloop
    · split
      · exact (sendResponse_lastActivity _ _).trans hloop
      · exact hloop

theorem enroll_dated (hs : s.Sound limits.maxClients) (hd : Dated A s) (peer : Incoming) (now : ℕ) :
    Dated (fun id t => A id t ∨ t = now ∧ id = s.made)
        (s.enroll h limits.maxClients limits.maxQueuedBytes peer { lastActivity := now }).2 ∧
      (s.enroll h limits.maxClients limits.maxQueuedBytes peer { lastActivity := now }).2.made = s.made + 1 := by
  have hne {id : ℕ} (hid : id ∈ s.registered) : id ≠ s.made := fun heq =>
    hs.made_notMem (heq ▸ hs.peers.subset (hs.mem_registered.mp hid).1)
  have hold (c : Connection) {id : ℕ} (hid : id ∈ s.registered) : A id
      (((s.adopt peer { lastActivity := now }).setConn s.made c).record id).data.lastActivity := by
    rw [adopt_ne _ _ _ (hne hid)]
    exact hd id hid
  rcases hs.enroll_cases (h := h) peer.1 { lastActivity := now } limits.maxQueuedBytes with
    ⟨c, -, -, -, -, heq⟩ | ⟨-, heq⟩
  · rw [heq]
    exact ⟨fun id hid => .inl (hold c hid), rfl⟩
  · rw [heq]
    refine ⟨fun id hid => ?_, rfl⟩
    rcases List.mem_append.mp hid with hid | hid
    · exact .inl (hold _ hid)
    · rw [List.mem_singleton.mp hid]
      refine .inr ⟨?_, rfl⟩
      show (((s.adopt peer _).setConn s.made _).record s.made).data.lastActivity = now
      rw [adopt_self]

theorem listen_dated (hs : Good limits s) (hrun : s.running = true) (hd : Dated A s) (arrivals : List Incoming)
    (now : ℕ) : Dated (fun id t => A id t ∨ Hears limits h s id t (.listen arrivals now))
      (acceptReady limits h arrivals now s) := by
  let accept (t : Server) (peer : Incoming) : Server :=
    (t.enroll h limits.maxClients limits.maxQueuedBytes peer { lastActivity := now }).2
  suffices hfold : ∀ (peers : List Incoming) (t : Server), Good limits t → t.running = true → s.made ≤ t.made →
      Dated (fun id time => A id time ∨ time = now ∧ s.made ≤ id ∧ id < t.made) t →
      Dated (fun id time => A id time ∨ time = now ∧ s.made ≤ id ∧ id < (peers.foldl accept t).made)
        (peers.foldl accept t) by
    exact hfold (arrivals.take 32) s hs hrun (Nat.le_refl _) (hd.mono fun _ _ => .inl)
  intro peers
  induction peers with
  | nil => exact fun t _ _ _ ht => ht
  | cons peer peers ih =>
    intro t hgood hrunning hmade ht
    obtain ⟨hdated, hnext⟩ := enroll_dated (h := h) hgood.sound ht peer now
    obtain ⟨hgood', hrunning'⟩ := enroll_good (h := h) hgood hrunning peer now
    have hmore : s.made ≤ t.made + 1 := hmade.trans (Nat.le_succ _)
    refine ih (accept t peer) hgood' hrunning' (hmore.trans (Nat.le_of_eq hnext.symm))
      (hdated.mono fun id time htime => ?_)
    rw [show (accept t peer).made = t.made + 1 from hnext]
    rcases htime with (hbefore | ⟨htime, hlow, hhigh⟩) | ⟨htime, rfl⟩
    · exact .inl hbefore
    · exact .inr ⟨htime, hlow, Nat.lt_succ_of_lt hhigh⟩
    · exact .inr ⟨htime, hmade, Nat.lt_succ_self _⟩

theorem data_dated (hs : Good limits s) (hd : Dated A s) {id : ℕ} (hid : id ∈ s.registered) (bytes : Read)
    (now : ℕ) : Dated (fun other t => A other t ∨ Hears limits h s other t (.data id bytes now))
      ((s.receive id bytes).turn id (Http.receive limits now bytes)) := by
  intro other hother
  have hbefore : other ∈ s.registered := turn_registered (s.receive id bytes) id _ hother
  rcases eq_or_ne other id with rfl | hne
  · have hpeer : other ∈ (s.receive other bytes).peers := (hs.sound.mem_registered.mp hbefore).1
    rw [turn_record_self hpeer]
    have hsame : ((s.receive other bytes).record other).data = (s.record other).data := by
      rw [ClientServer.receive, setConn, setRecord_self]
    rcases receive_lastActivity limits now bytes ((s.receive other bytes).record other) with
      hkept | ⟨hbytes, hnow⟩
    · rw [hkept, hsame]
      exact .inl (hd other hbefore)
    · rw [hnow]
      exact .inr ⟨rfl, rfl, hbefore, hbytes⟩
  · rw [turn_record_ne hne, show ((s.receive id bytes).record other) = s.record other from setRecord_ne _ hne]
    exact .inl (hd other hbefore)

/-- What is taken down in an event is the time at which the server hears of a client. -/
theorem event_dated (hs : Good limits s) (hrun : s.running = true) (hd : Dated A s) (e : Event) :
    Dated (fun id t => A id t ∨ Hears limits h s id t e) (event limits h s e) := by
  have hkept {s' : Server} (hquiet : s.Quiet s') : Dated (fun id t => A id t ∨ Hears limits h s id t e) s' :=
    (hd.quiet hquiet).mono fun _ _ => .inl
  cases e with
  | listen arrivals now => exact listen_dated hs hrun hd arrivals now
  | data id bytes now =>
    unfold event
    dsimp only
    split
    · rename_i hid
      exact data_dated hs hd hid bytes now
    · exact hkept (.refl s)
  | eof id =>
    unfold event
    dsimp only
    split
    · exact hkept (.hangUp s id)
    · exact hkept (.refl s)
  | error id =>
    unfold event
    dsimp only
    split
    · exact hkept (.retire s id)
    · exact hkept (.refl s)
  | writable id =>
    have hdrained {α : Type} (g : Record → α) (hg : ∀ p : Record, g { p with retire := true } = g p)
        (p : Record) : g (drained p) = g p := by
      unfold drained
      split
      · exact hg p
      · rfl
    unfold event
    dsimp only
    split
    · exact hkept (.flush s id (hdrained (·.conn.accepted) fun _ => rfl) (hdrained (·.conn.received) fun _ => rfl)
        (hdrained (·.data) fun _ => rfl))
    · exact hkept (.refl s)

theorem expire_quiet (now : ℕ) (s : Server) : s.Quiet (expire limits now s) := by
  unfold expire
  split
  · exact .retireWhere s _ _
  · exact .refl s

theorem events_dated (hs : Good limits s) (hrun : s.running = true) (hd : Dated A s) (events : List Event)
    (hA : ∀ past e, past ++ [e] <+: events → ∀ id t,
      Hears limits h (past.foldl (event limits h) s) id t e → A id t) :
    let s' := events.foldl (event limits h) s
    Dated A s' ∧ Good limits s' ∧ s'.running = true := by
  induction events using List.reverseRecOn with
  | nil => exact ⟨hd, hs, hrun⟩
  | append_singleton events e ih =>
    obtain ⟨hdated, hgood, hrunning⟩ := ih fun past e' hpast =>
      hA past e' (hpast.trans (List.prefix_append events [e]))
    have hnext := event_dated (h := h) hgood hrunning hdated e
    rw [List.foldl_append]
    refine ⟨hnext.mono fun id t ht => ?_, event_good hgood hrunning e⟩
    exact ht.elim (fun hbefore => hbefore) (hA events e List.prefix_rfl id t)

theorem Heard.append {ops : List Op} {id t : ℕ} (ht : Heard limits h ops id t) (o : Op) :
    Heard limits h (ops ++ [o]) id t := by
  obtain ⟨before, events, now, throws, hprefix, hheard⟩ := ht
  exact ⟨before, events, now, throws, hprefix.trans (List.prefix_append ops [o]), hheard⟩

/-- What is taken down in a run are times at which the server has heard of the clients. -/
theorem run_dated (limits : Limits) (h : ℕ → Host) (ops : List Op) :
    Dated (Heard limits h ops) (run limits h ops) := by
  induction ops using List.reverseRecOn with
  | nil => nofun
  | append_singleton ops o ih =>
    have hlater : Dated (Heard limits h (ops ++ [o])) (run limits h ops) := ih.mono fun _ _ ht => ht.append o
    have hgood := run_good limits h ops
    rw [show run limits h (ops ++ [o]) = exec limits h (run limits h ops) o by simp [run]]
    cases o with
    | start address listens =>
      unfold exec start
      dsimp only
      split
      · exact hlater
      · exact hlater.quiet (.restart _)
    | poll events now throws =>
      unfold exec poll
      dsimp only
      split
      · exact hlater
      · rename_i hrun
        simp only [Bool.or_eq_true, not_or, Bool.not_eq_true, Bool.not_eq_false'] at hrun
        have hbusy (s : Server) (b : Bool) : s.Quiet { s with polling := b } :=
          ⟨fun _ => rfl, fun _ => rfl, fun _ => rfl, fun _ hid => hid, rfl⟩
        obtain ⟨hevents, -, -⟩ := events_dated (s := { run limits h ops with polling := true })
          ⟨hgood.sound.polling true, hgood.answered⟩ hrun.1 (hlater.quiet (hbusy _ true)) events
          fun past e hpast id t ht => ⟨ops, events, now, throws, List.prefix_rfl, hrun.1, past, e, hpast, ht⟩
        have hended := hevents.quiet (hbusy _ false)
        split
        · exact hended.quiet (.reap _)
        · exact (hended.quiet (expire_quiet now _)).quiet (.reap _)
    | stop => exact hlater.quiet (.stop _)

end Dates

section Expiry

variable {limits h} {s : Server}

theorem expire_punctual (now : ℕ) (hidle : 0 < limits.idleTimeoutMs) {id : ℕ}
    (hid : id ∈ (expire limits now s).peers) : expired limits now ((expire limits now s).record id) = false := by
  have hlate (p : Record) : expired limits now { p with retire := true } = false := rfl
  unfold expire at hid ⊢
  rw [if_pos hidle] at hid ⊢
  have hpeers : (s.peers.foldl (fun s id => if expired limits now (s.record id) then s.retire id else s)
      s).peers = s.peers := by
    refine List.foldlRecOn (motive := fun t : Server => t.peers = s.peers) s.peers _ rfl fun t ht other _ => ?_
    split
    · exact (turn_peers t other _).trans ht
    · exact ht
  rw [hpeers] at hid
  exact retireWhere_late hlate s.peers id hid (.inl hid)

theorem expire_polling (now : ℕ) : (expire limits now s).polling = s.polling := by
  unfold expire
  split
  · refine List.foldlRecOn (motive := fun t : Server => t.polling = s.polling) s.peers _ rfl
      fun t ht other _ => ?_
    split
    · exact (turn_polling t other _).trans ht
    · exact ht
  · rfl

theorem run_polling (limits : Limits) (h : ℕ → Host) (ops : List Op) :
    (run limits h ops).polling = false := by
  refine List.foldlRecOn (motive := fun s : Server => s.polling = false) ops _ rfl fun s hs o _ => ?_
  unfold exec
  split
  · unfold start
    split
    · exact hs
    · exact hs
  · unfold poll
    dsimp only
    split
    · exact hs
    · split
      · rfl
      · exact expire_polling _
  · unfold ClientServer.stop
    split
    · exact hs
    · exact hs

theorem poll_punctual (hs : Good limits s) (hpolling : s.polling = false) (events : List Event) (now : ℕ)
    (hidle : 0 < limits.idleTimeoutMs) {id : ℕ} (hid : id ∈ (poll limits h events now false s).peers) :
    expired limits now ((poll limits h events now false s).record id) = false := by
  unfold poll at hid ⊢
  split at hid
  · rename_i hstop
    rw [hpolling, Bool.or_false, Bool.not_eq_true'] at hstop
    rw [hs.sound.stopped hstop] at hid
    cases hid
  · rename_i hrun
    rw [if_neg hrun]
    dsimp only at hid ⊢
    rw [if_neg Bool.false_ne_true] at hid ⊢
    obtain ⟨hpeer, hlive⟩ := List.mem_filter.mp hid
    have hkept := expire_punctual now hidle hpeer
    rwa [reap_record hlive]

/-- After a poll that comes to its end the server has heard of every client that is left
within the idle timeout. -/
theorem run_punctual (limits : Limits) (h : ℕ → Host) (ops : List Op) (events : List Event) (now : ℕ) :
    let ops' := ops ++ [.poll events now false]
    ∀ id ∈ (run limits h ops').peers, limits.idleTimeoutMs ≤ 0 ∨
      ∃ t, Heard limits h ops' id t ∧ (now : Int) - t ≤ limits.idleTimeoutMs * 1000000 := by
  intro ops' id hid
  have hs : run limits h ops' = poll limits h events now false (run limits h ops) := by
    simp [ops', run, exec]
  have hregistered : id ∈ (run limits h ops').registered := by
    rwa [run_registered]
  have hlive := ((run_good limits h ops').sound.mem_registered.mp hregistered).2
  by_cases hidle : 0 < limits.idleTimeoutMs
  · have hpunctual := poll_punctual (run_good limits h ops) (run_polling limits h ops)
      events now hidle (hs ▸ hid)
    rw [← hs, expired, hlive] at hpunctual
    exact .inr ⟨_, run_dated limits h ops' id hregistered, Int.not_lt.mp (of_decide_eq_false hpunctual)⟩
  · exact .inl (Int.not_lt.mp hidle)

end Expiry

end Aeon.Http.Server
