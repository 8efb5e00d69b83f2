import Aeon.PollMoves
import Aeon.PollRuns

/-!
# What the value of a `poll` says

A failed `poll` has changed nothing, an idle one has moved no byte and called no
handler, and any other counts no more than two events for each socket it watches.
-/

namespace Aeon

open Program EventWorld EventLoop

/-- A native receive gives no more than there is room for. -/
structure LoopHost.Fits (h : LoopHost) : Prop where
  recv : ∀ id tick room, ((h.objects id).tls.recv tick room).1.ret ≤ room
  sslRead : ∀ id tick room, ((h.objects id).tls.sslRead tick room).ret ≤ room
  recvfrom : ∀ tick room, (h.recvfrom tick room).1.ret ≤ room

namespace EventWorld

/-- A token and its object, if `poll` watches it. -/
def watching (w : EventWorld) (t : ℕ) : Option (ℕ × ℕ) :=
  w.registrations[t]?.bind fun r =>
    if r.active && (w.find r.socket).elim false (·.base.isValidSocket) then some (t, r.socket) else none

def watched (w : EventWorld) : List (ℕ × ℕ) := (w.sockets ++ w.udpSockets).filterMap w.watching

theorem watching_token {w : EventWorld} {t : ℕ} {x : ℕ × ℕ} (h : w.watching t = some x) : x.1 = t := by
  obtain ⟨r, -, hr⟩ := Option.bind_eq_some_iff.mp h
  split at hr
  · exact (Option.some.inj hr) ▸ rfl
  · cases hr

end EventWorld

/-- What the moves of a `poll` of these sockets are, as its value says. -/
structure Answers (xs : List (ℕ × ℕ)) (n : Int) (ms : List PollMove) : Prop where
  failed : n < 0 → Questions ms
  idle : n = 0 → Silent ms
  bounded : n ≤ 2 * xs.length
  subject : ∀ m ∈ ms, ∀ x, m.subject = some x → x ∈ xs
  receives : ∀ t, ms.countP (fun m => m.receives && m.about t) ≤ (xs.map (·.1)).count t
  flushes : ∀ t, ms.countP (fun m => m.flushes && m.about t) ≤ (xs.map (·.1)).count t

/-- A `poll` from `w` to `w'`, whose handlers do whatever they like. -/
structure PollReturns (w : EventWorld) (n : Int) (ms : List PollMove) (w' : EventWorld) : Prop where
  locked : w.polling = true → n = -1
  failed : n < 0 → Questions ms ∧ Asked w w' ∧ w'.polling = w.polling
  idle : n = 0 → Silent ms
  bounded : n ≤ 2 * w.watched.length
  subject : ∀ m ∈ ms, ∀ x, m.subject = some x → x ∈ w.watched
  receives : ∀ t, ms.countP (fun m => m.receives && m.about t) ≤ 1
  flushes : ∀ t, ms.countP (fun m => m.flushes && m.about t) ≤ 1
  received : ∀ m ∈ ms, m.receives = true → m.bytes ≤ 256
  flushed : ∀ m ∈ ms, m.flushes = true → m.bytes ≤ 65536

section Lists

variable {p : Watch} {r f : ℕ} {n : Int} {xs : List (ℕ × ℕ)} {ms ms' : List PollMove}

theorem Around.countP_about (h : Around p r f ms) (c : PollMove → Bool) {k : ℕ}
    (hc : ms.countP c ≤ k) (t : ℕ) :
    ms.countP (fun m => c m && m.about t) ≤ if p.token = t then k else 0 := by
  split
  · refine (List.countP_mono_left fun m _ hm => ?_).trans hc
    exact (Bool.and_eq_true_iff.mp hm).1
  · rename_i hne
    refine (List.countP_eq_zero.mpr fun m hm hboth => ?_).le
    obtain ⟨x, hx, hxt⟩ := (Option.any_eq_true _ _).mp (Bool.and_eq_true_iff.mp hboth).2
    obtain rfl := h.subject m hm x hx
    exact hne (beq_iff_eq.mp hxt)

/-- Questions before and after change nothing. -/
theorem Answers.between {before after : List PollMove} (h : Answers xs n ms) (hb : Questions before)
    (ha : Questions after) : Answers xs n (before ++ (ms ++ after)) := by
  have hnone {ms' : List PollMove} (hms' : Questions ms') (c : PollMove → Bool)
      (hc : ∀ m, m.asks = true → c m = false) (t : ℕ) :
      ms'.countP (fun m => c m && m.about t) = 0 :=
    hms'.countP fun m hm => by rw [hc m hm, Bool.false_and]
  have hsubject {m : PollMove} (hm : m.asks = true) {x : ℕ × ℕ} (hx : m.subject = some x) : x ∈ xs := by
    rw [(PollMove.asks_idle hm).1] at hx
    cases hx
  refine ⟨fun hn => hb.append ((h.failed hn).append ha),
    fun hn => hb.silent.append ((h.idle hn).append ha.silent), h.bounded, fun m hm x hx => ?_,
    fun t => ?_, fun t => ?_⟩
  · simp only [List.mem_append] at hm
    obtain hm | hm | hm := hm
    · exact hsubject (hb m hm) hx
    · exact h.subject m hm x hx
    · exact hsubject (ha m hm) hx
  · have hno (m : PollMove) (hm : m.asks = true) := (PollMove.asks_idle hm).2.2.1
    rw [List.countP_append, List.countP_append, hnone hb _ hno, hnone ha _ hno, Nat.zero_add]
    exact h.receives t
  · have hno (m : PollMove) (hm : m.asks = true) := (PollMove.asks_idle hm).2.2.2
    rw [List.countP_append, List.countP_append, hnone hb _ hno, hnone ha _ hno, Nat.zero_add]
    exact h.flushes t

theorem Answers.asked (h : Answers xs n ms) (hms : Questions ms') : Answers xs n (ms' ++ ms) := by
  have hbetween := h.between hms .nil
  rwa [List.append_nil] at hbetween

theorem Answers.nothing (hms : Questions ms) (hn : n ≤ 0) : Answers xs n ms := by
  have hnil : Answers xs n [] := by
    refine ⟨fun _ => .nil, fun _ => Questions.nil.silent, by omega, fun m hm => ?_, fun t => ?_, fun t => ?_⟩
    · cases hm
    · exact Nat.zero_le _
    · exact Nat.zero_le _
  simpa only [List.append_nil] using hnil.asked hms

/-- One more socket has been dispatched. -/
theorem Answers.cons {handled others : ℕ} (h : Counts p 1 1 2 handled ms)
    (h' : Answers xs others ms') :
    Answers ((p.token, p.socket) :: xs) (handled + others : ℕ) (ms ++ ms') := by
  refine ⟨fun hn => absurd hn (by omega), fun hn => ?_, ?_, fun m hm x hx => ?_, fun t => ?_, fun t => ?_⟩
  · exact (h.idle (by omega)).append (h'.idle (by omega))
  · have hcount := h.count
    have hbounded := h'.bounded
    rw [List.length_cons]
    omega
  · refine (List.mem_append.mp hm).elim (fun hm => ?_) fun hm => List.mem_cons_of_mem _ (h'.subject m hm x hx)
    exact h.around.subject m hm x hx ▸ List.mem_cons_self
  · have hfirst := h.around.countP_about PollMove.receives h.around.receives t
    have hrest := h'.receives t
    rw [List.countP_append, List.map_cons, List.count_cons]
    simp only [beq_iff_eq]
    omega
  · have hfirst := h.around.countP_about PollMove.flushes h.around.flushes t
    have hrest := h'.flushes t
    rw [List.countP_append, List.map_cons, List.count_cons]
    simp only [beq_iff_eq]
    omega

end Lists

namespace Plays

variable {α : Type} {h : LoopHost} {cb : EventNote → Code EventWorld Unit} {fuel : ℕ}
variable {G : EventWorld → EventNote → Prop} {p : Watch} {ps : List Watch} {timeoutMs : Int}

def subjects (ps : List Watch) : List (ℕ × ℕ) := ps.map fun p => (p.token, p.socket)

theorem dispatchAll (hG : ∀ w n, (h.Reports → Explained w n) → G w n) (watched : List (Watch × Flags)) :
    Plays h cb G (fun _ => True) (dispatchAll h cb watched)
      fun n ms _ => Answers (subjects (watched.map (·.1))) n ms := by
  induction watched with
  | nil => exact Makes.ret fun _ _ => .nothing .nil le_rfl
  | cons q rest ih =>
    refine Makes.bind (dispatch hG) fun handled ms => .assume fun _ hfirst => ?_
    refine Makes.bind (ih.pre fun _ _ => trivial) fun others ms' => Makes.ret fun _ hrest => ?_
    have hcons := Answers.cons hfirst hrest
    rw [List.append_nil]
    exact hcons

section Waiting

theorem ask {x : α} {f : NetHost → EventObject → α × EventObject}
    (hf : ∀ e o, ∃ tick, (f e o).2 = o.atTick tick) :
    Plays h cb G (fun _ => True) (ask h x f p) fun _ ms _ => Questions ms :=
  .ite (fun _ => Makes.ret fun _ _ => .nil) fun _ => currentAnd (hf _)

/-- Questions, one part after the other. -/
theorem questions {β : Type} {m : Code EventWorld α} {g : α → Code EventWorld β}
    (hm : Plays h cb G (fun _ => True) m fun _ ms _ => Questions ms)
    (hg : ∀ a, Plays h cb G (fun _ => True) (g a) fun _ ms _ => Questions ms) :
    Plays h cb G (fun _ => True) (m >>= g) fun _ ms _ => Questions ms :=
  asking (A := fun _ _ => True) (hm.post fun _ _ _ hms => ⟨hms, trivial⟩) fun a _ hms =>
    (hg a).post fun _ _ _ hms' => hms.append hms'

theorem askAny {f : NetHost → EventObject → Bool × EventObject}
    (hf : ∀ e o, ∃ tick, (f e o).2 = o.atTick tick) :
    Plays h cb G (fun _ => True) (askAny h f ps) fun _ ms _ => Questions ms := by
  induction ps with
  | nil => exact Makes.ret fun _ _ => .nil
  | cons p ps ih => exact questions (ask hf) fun _ => questions ih fun _ => Makes.ret fun _ _ => .nil

theorem effectiveTimeout :
    Plays h cb G (fun _ => True) (effectiveTimeout h ps timeoutMs) fun _ ms _ => Questions ms := by
  induction ps generalizing timeoutMs with
  | nil => exact Makes.ret fun _ _ => .nil
  | cons p ps ih => exact questions (ask fun e o => o.pollTimeoutMs_atTick e) fun _ => ih

theorem pollReadable :
    Plays h cb G (fun _ => True) (pollReadable h ps timeoutMs fuel) fun _ ms _ => Questions ms :=
  Makes.one (k := fun _ => .wait) (fun w _ => .wait ps timeoutMs fuel w) (fun _ _ _ _ => .one rfl)
    fun _ _ _ _ => trivial

theorem waitReady (buffered : Bool) :
    Plays h cb G (fun _ => True) (waitReady h ps buffered timeoutMs fuel)
      fun _ ms _ => Questions ms := by
  induction fuel with
  | zero => exact Makes.halt fun _ _ => trivial
  | succ fuel ih =>
    refine questions effectiveTimeout fun effective => questions pollReadable fun ready => ?_
    refine .ite (fun _ => Makes.ret fun _ _ => .nil) fun _ => ?_
    refine questions (askAny fun e o => o.pollTimeoutMs_atTick e) fun expired => ?_
    exact .ite (fun _ => Makes.ret fun _ _ => .nil) fun _ => ih

theorem markBuffered (watched : List (Watch × Flags)) :
    Plays h cb G (fun _ => True) (markBuffered h watched)
      fun marked ms _ => Questions ms ∧ marked.map (·.1) = watched.map (·.1) := by
  induction watched with
  | nil => exact Makes.ret fun _ _ => ⟨.nil, rfl⟩
  | cons q rest ih =>
    refine asking (A := fun _ _ => True) ((ask fun e o => o.pollHasBufferedInput_atTick e).post
      fun _ _ _ hms => ⟨hms, trivial⟩) fun more ms hms => ?_
    refine Makes.bind ih fun marked ms' => Makes.ret fun _ hmarked => ⟨?_, ?_⟩
    · exact hms.append (hmarked.1.append .nil)
    · exact congr_arg (q.1 :: ·) hmarked.2

theorem readiness (buffered : Bool) (reported : List Flags) :
    Plays h cb G (fun _ => True) (readiness h ps buffered reported)
      fun watched ms _ => Questions ms ∧ watched.map (·.1) = ps := by
  have hsame : (ps.zipIdx.map fun p => (p.1, reported.getD p.2 {})).map (·.1) = ps := by
    rw [List.map_map]
    exact List.zipIdx_map_fst 0 ps
  refine .ite (fun _ => (markBuffered _).post fun _ _ _ hw => ⟨hw.1, hw.2.trans hsame⟩) fun _ => ?_
  exact Makes.ret fun _ _ => ⟨.nil, hsame⟩

/-- The objects and the registrations of the world. -/
def Same (w w' : EventWorld) : Prop :=
  (∀ i, w'.find i = w.find i) ∧ w'.registrations = w.registrations

theorem lookSame {w : EventWorld} {t id : ℕ} (f : EventObject → α) :
    Plays h cb G (Same w) (EventWorld.look t id fun o => (f o, o)) fun a ms w' => Questions ms ∧
      Same w w' ∧ ∃ o, w.find id = some o ∧ a = f o := by
  intro v hv
  rw [EventWorld.look, EventWorld.use]
  cases ho : v.find id with
  | none =>
    refine ⟨[.ask], .one (.ask (.logged v rfl) rfl), ?_, fun _ _ => trivial⟩
    intro a ha
    cases ha
  | some o =>
    refine ⟨[.ask], .one (.ask (.store ho o.exists_atTick rfl) rfl), fun a ha => ?_,
      fun _ _ => trivial⟩
    obtain rfl := Except.ok.inj ha
    refine ⟨.one rfl, ⟨fun i => ?_, hv.2⟩, o, (hv.1 id).symm.trans ho, rfl⟩
    show (v.store id o).find i = w.find i
    by_cases hi : i = id
    · subst hi
      rw [find_store_same ho, ← hv.1, ho]
    · rw [find_store_ne hi, hv.1]

/-- What is watched are the open objects of the active tokens. -/
theorem watchAll (w : EventWorld) (udp : Bool) (ts : List ℕ) :
    Plays h cb G (Same w) (watchAll udp ts) fun ps ms w' => Questions ms ∧ Same w w' ∧
      subjects ps = ts.filterMap w.watching := by
  induction ts with
  | nil => exact Makes.ret fun _ hw => ⟨.nil, hw, rfl⟩
  | cons t ts ih =>
    have hskip (hnone : w.watching t = none) : Plays h cb G (Same w) (EventLoop.watchAll udp ts)
        fun ps ms w' => Questions ms ∧ Same w w' ∧ subjects ps = (t :: ts).filterMap w.watching := by
      rw [List.filterMap_cons_none hnone]
      exact ih
    refine asking (A := fun active w' => Same w w' ∧ w.active t = active) (Makes.read fun w' hw =>
      ⟨.nil, hw, by rw [EventWorld.active, ← hw.2]; rfl⟩) fun active ms hms => .assume fun w₁ h₁ => ?_
    obtain ⟨hw₁, rfl⟩ := h₁
    refine .ite (fun hoff => ?_) fun hon => ?_
    · refine (hskip ?_).mono (fun _ ht => ht ▸ hw₁) (fun _ _ _ hw => ⟨hms.append hw.1, hw.2⟩)
        fun _ _ _ => trivial
      rw [EventWorld.watching]
      rw [Bool.not_eq_true', EventWorld.active] at hoff
      cases hreg : w.registrations[t]? with
      | none => rfl
      | some r =>
        rw [hreg] at hoff
        have hinactive : r.active = false := hoff
        simp [hinactive]
    · obtain ⟨r, hreg, hactive⟩ : ∃ r, w.registrations[t]? = some r ∧ r.active = true := by
        rw [Bool.not_eq_true', Bool.not_eq_false, EventWorld.active] at hon
        cases hreg : w.registrations[t]? with
        | none => rw [hreg] at hon; cases hon
        | some r => exact ⟨r, rfl, by rwa [hreg] at hon⟩
      refine asking (A := fun id w' => Same w w' ∧ id = r.socket) (Makes.read fun w' hw' => ?_)
        fun id ms' hms' => .assume fun w₂ h₂ => ?_
      · subst hw'
        exact ⟨.nil, hw₁, by rw [hw₁.2, hreg]; rfl⟩
      obtain ⟨hw₂, rfl⟩ := h₂
      refine asking (A := fun seen w' => Same w w' ∧ ∃ o, w.find r.socket = some o ∧
        seen = (o.base.sockfd, o.pollWantsWrite, o.connection)) ((lookSame _).pre fun _ ht => ht ▸ hw₂)
        fun seen ms'' hms'' => .assume fun w₃ h₃ => ?_
      obtain ⟨hw₃, o, ho, rfl⟩ := h₃
      have hbefore := hms.append (hms'.append hms'')
      have hwatching : w.watching t =
          if o.base.isValidSocket then some (t, r.socket) else none := by
        rw [EventWorld.watching, hreg]
        simp [hactive, ho]
      dsimp only
      split
      · rename_i hfd
        refine (hskip ?_).mono (fun _ ht => ht ▸ hw₃) (fun _ _ _ hw => ⟨?_, hw.2⟩) fun _ _ _ => trivial
        · rw [hwatching, if_neg (by simp [Socket.isValidSocket, hfd])]
        · simpa only [List.append_assoc] using hbefore.append hw.1
      · rename_i fd hfd
        refine Makes.bind (ih.pre fun _ ht => ht ▸ hw₃) fun ps ms''' => Makes.ret fun _ hw => ⟨?_, hw.2.1, ?_⟩
        · simpa only [List.append_assoc, List.append_nil] using hbefore.append hw.1
        · rw [List.filterMap_cons_some (hwatching.trans (if_pos (by simp [Socket.isValidSocket, hfd])))]
          exact congr_arg ((t, r.socket) :: ·) hw.2.2

end Waiting

/-- What a `poll` does with the answer of its wait. -/
theorem afterWait (hG : ∀ w n, (h.Reports → Explained w n) → G w n) (buffered : Bool)
    (ready : Int × List Flags × Bool) : Plays h cb G (fun _ => True) (do
      if ready.1 < 0 then return ready.1
      else
        let watched ← EventLoop.readiness h ps buffered ready.2.1
        if ready.1 = 0 && !buffered && !ready.2.2 then return 0
        else
          let handled ← EventLoop.dispatchAll h cb watched
          return handled : Code EventWorld Int)
      fun n ms _ => Answers (subjects ps) n ms := by
  refine .ite (fun hlt => Makes.ret fun _ _ => .nothing .nil (Int.le_of_lt hlt)) fun _ => ?_
  refine asking (A := fun watched _ => watched.map (·.1) = ps) (readiness _ _) fun watched ms hms =>
    .assume fun _ hsame => ?_
  refine .ite (fun _ => Makes.ret fun _ _ => .nothing (hms.append .nil) le_rfl) fun _ => ?_
  refine Makes.bind ((dispatchAll hG watched).pre fun _ _ => trivial) fun handled ms' =>
    Makes.ret fun _ hall => ?_
  rw [hsame] at hall
  simpa only [List.append_nil] using hall.asked hms

theorem pollOwned (hG : ∀ w n, (h.Reports → Explained w n) → G w n) (w : EventWorld) :
    Plays h cb G (fun t => t = w) (pollOwned h cb fuel timeoutMs)
      fun n ms _ => Answers w.watched n ms := by
  refine asking (A := fun tokens t => t = w ∧ tokens = (w.sockets, w.udpSockets)) (Makes.read
    fun t ht => ⟨.nil, ht, ht ▸ rfl⟩) fun tokens ms₁ h₁ => .assume fun w₁ hw₁ => ?_
  obtain ⟨rfl, rfl⟩ := hw₁
  refine asking (A := fun _ => Same w₁) ((note (P := Same w₁) rfl fun _ hw => hw).pre
    fun _ ht => ht ▸ ⟨fun _ => rfl, rfl⟩) fun _ ms₂ h₂ => ?_
  refine asking (watchAll w₁ false w₁.sockets) fun streams ms₃ h₃ => .assume fun w₃ hw₃ => ?_
  refine asking ((watchAll w₁ true w₁.udpSockets).pre fun _ ht => ht ▸ hw₃.1) fun datagrams ms₄ h₄ =>
    .assume fun w₄ hw₄ => ?_
  have hwatched : subjects (streams ++ datagrams) = w₁.watched := by
    rw [subjects, List.map_append, EventWorld.watched, List.filterMap_append]
    exact congr_arg₂ (· ++ ·) hw₃.2 hw₄.2
  refine asking (A := fun _ _ => True) ((askAny fun e o => o.pollHasBufferedInput_atTick e).mono
    (fun _ _ => trivial) (fun _ _ _ hms => ⟨hms, trivial⟩) fun _ _ _ => trivial) fun buffered ms₅ h₅ => ?_
  refine asking (A := fun _ _ => True) ((waitReady buffered).post fun _ _ _ hms => ⟨hms, trivial⟩)
    fun ready ms₆ h₆ => (afterWait hG buffered ready).post fun n ms _ hn => ?_
  rw [hwatched] at hn
  exact (((((hn.asked h₆).asked h₅).asked h₄).asked h₃).asked h₂).asked h₁

/-- A `poll`: it gives up at once, or owns the lock. -/
theorem poll (hG : ∀ w n, (h.Reports → Explained w n) → G w n) (w : EventWorld) :
    Plays h cb G (fun t => t = w) (poll h cb fuel timeoutMs) fun n ms w' =>
      Answers w.watched n ms ∧ (w.polling = true → n = -1) ∧ (n < 0 → w'.polling = w.polling) := by
  refine .ite (fun _ => Makes.ret fun t ht => ?_) fun _ => ?_
  · exact ⟨.nothing .nil (by decide), fun _ => rfl, fun _ => ht ▸ rfl⟩
  refine asking (A := fun owns t => t = { w with polling := true } ∧ owns = !w.polling)
    (Makes.one (k := fun _ => .ask) (fun _ _ => .ask (.same rfl rfl rfl rfl rfl) rfl) ?_
      fun _ _ _ _ => trivial) fun owns ms hms => .assume fun w₁ h₁ => ?_
  · rintro t rfl owns howns
    exact ⟨.one rfl, rfl, (Except.ok.inj howns).symm⟩
  obtain ⟨rfl, rfl⟩ := h₁
  refine .ite (fun hlocked => Makes.ret fun t ht => ?_) fun howned => ?_
  · have hpolling : w.polling = true := by simpa using hlocked
    exact ⟨.nothing (hms.append .nil) (by decide), fun _ => rfl, fun _ => ht ▸ hpolling.symm⟩
  · have hpolling : w.polling = false := by simpa using howned
    refine Makes.atExit (k := .ask) ?_ fun _ => .ask (.of_objects rfl rfl rfl rfl [.finished] rfl
      fun e he => List.mem_singleton.mp he ▸ rfl) rfl
    refine (pollOwned hG { w with polling := true }).mono (fun _ ht => ht) (fun n ms' _ hn => ?_)
      fun _ _ _ => trivial
    refine ⟨?_, fun htrue => absurd (htrue.symm.trans hpolling) (by decide), fun _ => hpolling.symm⟩
    exact hn.between hms (.one rfl)

end Plays

section Bytes

variable {h : LoopHost} {cb : EventNote → Code EventWorld Unit} {G : EventWorld → EventNote → Prop}
variable {w w' : EventWorld} {m : PollMove}

theorem EventObject.pollReceive_fits (hfits : h.Fits) (id : ℕ) (o : EventObject) :
    (o.pollReceive (h.objects id)).1.1.ret ≤ Socket.maxBufferSize := by
  have hplain (s : Socket) : (s.nativeRecv (h.objects id).tls.toHost Socket.maxBufferSize).1.1.ret ≤
      Socket.maxBufferSize := by
    unfold Socket.nativeRecv
    split
    · exact show (-1 : Int) ≤ Socket.maxBufferSize by decide
    · exact hfits.recv id _ _
  cases o with
  | tls s =>
    have hfailed : (-1 : Int) ≤ Socket.maxBufferSize := by decide
    show (s.pollReceive (h.objects id).tls Socket.maxBufferSize).1.1.ret ≤ Socket.maxBufferSize
    unfold SslEventSocket.pollReceive
    dsimp only
    split
    · exact hfailed
    · split
      · exact hfailed
      · split
        · exact hfits.sslRead id _ _
        · split
          · split <;> exact hfailed
          · split <;> exact hfailed
  | tcp s | listener s => exact hplain s.toSocket
  | udp server s => exact hplain s.toSocket

/-- The bytes of one move. -/
theorem Does.bytes_le (hfits : h.Fits) (hmove : Does h cb G w m w') :
    (m.receives = true → m.bytes ≤ 256) ∧ (m.flushes = true → m.bytes ≤ 65536) := by
  cases hmove with
  | ask | wait | getsockopt => exact ⟨nofun, nofun⟩
  | tell => exact ⟨nofun, nofun⟩
  | recvfrom t id => exact ⟨fun _ => Int.toNat_le.mpr (hfits.recvfrom _ _), nofun⟩
  | act t m e ho =>
    cases m with
    | receive => exact ⟨fun _ => Int.toNat_le.mpr (EventObject.pollReceive_fits hfits _ _), nofun⟩
    | flush => exact ⟨nofun, fun _ => (EventObject.flushQueued_reports _).2⟩
    | _ => exact ⟨nofun, nofun⟩

end Bytes

/-- Tokens that are listed once are watched once. -/
theorem EventWorld.watched_count {w : EventWorld} (hw : (w.sockets ++ w.udpSockets).Nodup) (t : ℕ) :
    (w.watched.map (·.1)).count t ≤ 1 := by
  have hsub {ts : List ℕ} : List.Sublist ((ts.filterMap w.watching).map (·.1)) ts := by
    induction ts with
    | nil => exact .slnil
    | cons t ts ih =>
      cases hwatching : w.watching t with
      | none =>
        rw [List.filterMap_cons_none hwatching]
        exact ih.cons t
      | some x =>
        rw [List.filterMap_cons_some hwatching, List.map_cons, watching_token hwatching]
        exact ih.cons_cons t
  exact List.nodup_iff_count_le_one.mp (hw.sublist hsub) t

/-- Every `poll` that returns has made moves that its value describes, whatever the
handlers do, also one that is called while another is in progress. -/
theorem poll_returns {h : LoopHost} {fuel : ℕ} {timeoutMs n : Int} {w : EventWorld}
    {cb : EventNote → Code EventWorld Unit} (hfits : h.Fits)
    (hw : w.polling = true ∨ Reaches h fuel w) (hn : (poll h cb fuel timeoutMs w).1 = .ok n) :
    ∃ ms, Path (Does h cb fun _ _ => True) w ms (poll h cb fuel timeoutMs w).2 ∧
      PollReturns w n ms (poll h cb fuel timeoutMs w).2 := by
  have hpoll : Plays h cb (fun _ _ => True) (fun t => t = w) (poll h cb fuel timeoutMs) _ :=
    Plays.poll (fun _ _ _ => trivial) w
  obtain ⟨ms, hpath, hret, -⟩ := hpoll w rfl
  obtain ⟨hanswers, hlocked, hpolling⟩ := hret n hn
  have hbytes := hpath.each (P := fun m => (m.receives = true → m.bytes ≤ 256) ∧
    (m.flushes = true → m.bytes ≤ 65536)) fun m a b hmove => hmove.bytes_le hfits
  have hcount (c : PollMove → Bool) (hc : ∀ m, m.asks = true → c m = false) (t : ℕ)
      (hle : ms.countP (fun m => c m && m.about t) ≤ (w.watched.map (·.1)).count t) :
      ms.countP (fun m => c m && m.about t) ≤ 1 := by
    obtain htrue | hreaches := hw
    · have hasks := hanswers.failed (by rw [hlocked htrue]; decide)
      refine (hasks.countP fun m hm => ?_).trans_le (Nat.zero_le _)
      rw [hc m hm, Bool.false_and]
    · exact hle.trans (watched_count hreaches.rested.sane.nodup t)
  refine ⟨ms, hpath, hlocked, fun hneg => ⟨hanswers.failed hneg, ?_, hpolling hneg⟩, hanswers.idle,
    hanswers.bounded, hanswers.subject,
    fun t => hcount _ (fun m hm => (PollMove.asks_idle hm).2.2.1) t (hanswers.receives t),
    fun t => hcount _ (fun m hm => (PollMove.asks_idle hm).2.2.2) t (hanswers.flushes t), fun m hm => (hbytes m hm).1, fun m hm => (hbytes m hm).2⟩
  -- a question changes no socket
  refine hpath.within (R := Asked) .refl (fun _ _ _ => .trans) fun m hm a b hmove => ?_
  have hasks := hanswers.failed hneg m hm
  cases hmove with
  | ask hasked => exact hasked
  | wait ps timeoutMs fuel =>
    obtain ⟨tick, ht⟩ := pollReadable_ticks h ps timeoutMs fuel a
    rw [ht]
    exact .same rfl rfl rfl rfl rfl
  | getsockopt => exact .same rfl rfl rfl rfl rfl
  | _ => cases hasks

/-- A host whose peers send more than anyone has room for. -/
def flooded : LoopHost :=
  .same ⟨{ stalled with recv := fun _ room => (⟨room, 0⟩, List.replicate room 7) }, .steady⟩
    { pollin := true }

theorem flooded_fits : flooded.Fits where
  recv _ _ _ := le_rfl
  sslRead _ _ _ := Int.natCast_nonneg _
  recvfrom _ _ := Int.natCast_nonneg _

theorem poll_returns_flooded :
    ∃ ms, Path (Does flooded (fun _ => pure ()) fun _ _ => True)
        (after flooded 1 [.createTcp, .add (some 0)]) ms
        (poll flooded (fun _ => pure ()) 1 0 (after flooded 1 [.createTcp, .add (some 0)])).2 ∧
      PollReturns (after flooded 1 [.createTcp, .add (some 0)]) 1 ms
        (poll flooded (fun _ => pure ()) 1 0 (after flooded 1 [.createTcp, .add (some 0)])).2 :=
  poll_returns flooded_fits (.inr (reaches_after _ _ _)) (by decide +kernel)

end Aeon
