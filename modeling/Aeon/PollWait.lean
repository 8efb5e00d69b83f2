import Aeon.PollWakeups

/-!
# How long `poll` waits

A round of the wait reads the deadlines of the watched TLS sockets, waits for no
longer than they allow, and reads them again.  These facts hold from whatever
state a round begins in.
-/

namespace Aeon

open Program History EventWorld EventLoop

namespace SslEventSocket

variable {e : TlsHost} {s : SslEventSocket} {d now : ℕ} {flags : Flags}

/-- The deadline of the handshake or of the shutdown that an open session is in. -/
def deadline (s : SslEventSocket) : Option ℕ :=
  if s.session.isNone || !s.isValidSocket then none
  else if s.tlsReady then (if s.shutdownRequested then some s.shutdownDeadline else none)
  else some s.handshakeDeadline

/-- What `poll_step` reports when it finds the deadline passed. -/
def deadlineError (s : SslEventSocket) : Int := if s.tlsReady then sslErrorIo else sslErrorHandshake

theorem pollTimeoutMs_eq (e : TlsHost) (s : SslEventSocket) : s.pollTimeoutMs e =
    s.deadline.elim (-1, s) fun d => (remainingMs d (e.now s.tick), s.ticked) := by
  unfold pollTimeoutMs deadline
  split
  · rfl
  · cases s.tlsReady with
    | false => rfl
    | true => cases s.shutdownRequested <;> rfl

theorem remainingMs_nonneg (d now : ℕ) : 0 ≤ remainingMs d now := by
  unfold remainingMs
  split
  · exact le_rfl
  · exact Int.add_nonneg (Int.natCast_nonneg _) (by decide)

/-- Rounding up adds a millisecond at most. -/
theorem remainingMs_near (d now : ℕ) :
    remainingMs d now * nsPerMs ≤ ((d - now : ℕ) : Int) + nsPerMs := by
  unfold remainingMs
  split
  · omega
  · have hle := Nat.div_mul_le_self (d - now) nsPerMs
    rw [Int.add_mul, one_mul]
    exact_mod_cast Nat.add_le_add_right hle nsPerMs

/-- `poll_step` reports a deadline that has passed. -/
theorem pollStep_overdue (hd : s.deadline = some d) (hnow : d ≤ e.now s.tick) :
    s.pollStep e flags = (-1, s.ticked.setError s.deadlineError) := by
  unfold deadline at hd
  unfold pollStep deadlineError
  split at hd
  · cases hd
  · rename_i hopen
    cases hlive : s.session with
    | none => simp [hlive] at hopen
    | some id =>
      cases hready : s.tlsReady with
      | false =>
        rw [hready] at hd
        obtain rfl := Option.some.inj hd
        exact if_pos hnow
      | true =>
        rw [hready] at hd
        cases hrequested : s.shutdownRequested with
        | false =>
          rw [hrequested] at hd
          cases hd
        | true =>
          rw [hrequested] at hd
          obtain rfl := Option.some.inj hd
          exact if_pos hnow

end SslEventSocket

/-- `p` watches a TLS object: it is registered, and open on the same descriptor. -/
structure Watching (p : Watch) (s : SslEventSocket) (w : EventWorld) : Prop extends At p s w where
  stream : p.udp = false
  sockfd : s.sockfd = some p.fd

/-- While the deadlines of the watched sockets are read from `w` on, that of `p`
is found to be `d` when the clock shows `now`. -/
inductive Reads (h : LoopHost) : List Watch → EventWorld → Watch → ℕ → ℕ → Prop
  | here {p ps w s d} (watching : Watching p s w) (deadline : s.deadline = some d) :
      Reads h (p :: ps) w p d ((h.objects p.socket).tls.now s.tick)
  | later {p ps w w' due q d now} (asked : ask h (-1) EventObject.pollTimeoutMs p w = (.ok due, w'))
      (rest : Reads h ps w' q d now) : Reads h (p :: ps) w q d now

/-- An effective timeout follows the timeout of the call and the deadlines that were
read for it: it is `-1` or at most `timeoutMs`, and `0` only for one of them. -/
structure Timely (timeoutMs effective : Int) (reads : Watch → ℕ → ℕ → Prop) : Prop where
  most : 0 ≤ timeoutMs → 0 ≤ effective ∧ effective ≤ timeoutMs
  near : ∀ p d now, reads p d now →
    0 ≤ effective ∧ effective * nsPerMs ≤ ((d - now : ℕ) : Int) + nsPerMs
  zero : effective = 0 → timeoutMs = 0 ∨ ∃ p d now, reads p d now ∧ d ≤ now
  infinite : -1 ≤ effective

/-- A native wait asks for no longer than what remains of the timeout by the clock
reading before it, which the wait has begun with or is restarted after.  An
infinite one stays infinite. -/
def Bounded (start : ℕ) (timeoutMs : Int) (pre : List WaitEvent) (e : WaitEvent) : Prop :=
  ∀ asked, e = .polled asked → if timeoutMs = -1 then asked = -1 else
    ∃ now, pre.getLast? = some (.clock now) ∧ 0 ≤ asked ∧
      asked * nsPerMs + now ≤ start + timeoutMs * nsPerMs

section Native

variable {h : LoopHost} {watched : List (ℕ × Bool)}

theorem waitForever_bounded (start fuel tick : ℕ) :
    Always (Bounded start (-1)) (waitForever h watched fuel tick).calls := by
  have hasked : ∀ e ∈ (waitForever h watched fuel tick).calls, e = .polled (-1) := by
    induction fuel generalizing tick with
    | zero => exact fun _ he => absurd he (List.not_mem_nil)
    | succ fuel ih =>
      unfold waitForever
      dsimp only
      split
      · exact List.forall_mem_cons.mpr ⟨rfl, ih _⟩
      · exact List.forall_mem_cons.mpr ⟨rfl, fun _ he => absurd he (List.not_mem_nil)⟩
  intro pre e post hlog asked he
  rw [if_pos rfl]
  have hmem : e ∈ (waitForever h watched fuel tick).calls := by simp [hlog]
  exact WaitEvent.polled.inj (he.symm.trans (hasked e hmem))

/-- The waits up to a deadline, the first of which fits the last clock reading. -/
theorem waitUntil_bounded {start deadline now fuel tick remaining : ℕ} {timeoutMs : Int}
    {log : List WaitEvent} (ht : timeoutMs ≠ -1) (hd : (deadline : Int) = start + timeoutMs * nsPerMs)
    (hlog : Always (Bounded start timeoutMs) log) (hlast : log.getLast? = some (.clock now))
    (hfits : remaining * nsPerMs + now ≤ deadline) :
    Always (Bounded start timeoutMs) (log ++ (waitUntil h watched deadline fuel tick remaining).calls) := by
  have hpolled {log : List WaitEvent} {now remaining : ℕ} (hlast : log.getLast? = some (.clock now))
      (hfits : remaining * nsPerMs + now ≤ deadline) :
      Bounded start timeoutMs log (.polled remaining) := by
    intro asked he
    obtain rfl := WaitEvent.polled.inj he
    rw [if_neg ht, ← hd]
    exact ⟨now, hlast, Int.natCast_nonneg _, by exact_mod_cast hfits⟩
  have hclock (now : ℕ) {log : List WaitEvent} : Bounded start timeoutMs log (.clock now) :=
    fun asked he => WaitEvent.noConfusion he
  induction fuel generalizing log now tick remaining with
  | zero => simpa [waitUntil] using hlog
  | succ fuel ih =>
    have hfirst := hlog.snoc (hpolled hlast hfits)
    unfold waitUntil
    dsimp only
    split
    · exact hfirst
    · have hsecond := hfirst.snoc (hclock (h.now (tick + 1)))
      split
      · simpa using hsecond
      · rename_i hearly
        have hleft := Nat.div_mul_le_self (deadline - h.now (tick + 1)) nsPerMs
        have hall : Always (Bounded start timeoutMs) (log ++ [.polled remaining] ++
            [.clock (h.now (tick + 1))] ++ (waitUntil h watched deadline fuel (tick + 2)
              ((deadline - h.now (tick + 1)) / nsPerMs)).calls) :=
          ih hsecond List.getLast?_concat (Nat.add_le_of_le_sub (Nat.le_of_not_le hearly) hleft)
        simpa using hall

/-- Every native wait of one `poll_readable`, however often it is interrupted. -/
theorem nativeWait_bounded {timeoutMs : Int} (ht : -1 ≤ timeoutMs) (fuel tick : ℕ) :
    Always (Bounded (h.now tick) timeoutMs) (nativeWait h watched timeoutMs fuel tick).calls := by
  unfold nativeWait
  by_cases hinf : timeoutMs = -1
  · rw [if_pos hinf, hinf]
    exact waitForever_bounded _ _ _
  · rw [if_neg hinf]
    have hcast : (timeoutMs.toNat : Int) = timeoutMs := Int.toNat_of_nonneg (by omega)
    have hstart : Always (Bounded (h.now tick) timeoutMs) [.clock (h.now tick)] :=
      Always.nil.snoc fun asked he => WaitEvent.noConfusion he
    have hdeadline : ((h.now tick + timeoutMs.toNat * nsPerMs : ℕ) : Int) =
        h.now tick + timeoutMs * nsPerMs := by
      rw [← hcast]
      push_cast
      rfl
    exact waitUntil_bounded hinf hdeadline hstart rfl (Nat.le_of_eq (Nat.add_comm _ _))

end Native

section Deadlines

variable {α : Type} {h : LoopHost} {p q : Watch} {ps : List Watch} {s t : SslEventSocket} {d now : ℕ}
variable {timeoutMs : Int} {w w' : EventWorld}

theorem Watching.unique (hs : Watching p s w) (ht : Watching p t w) : s = t :=
  EventObject.tls.inj (Option.some.inj (hs.object.symm.trans ht.object))

/-- A use of an object that is there. -/
theorem use_run {id : ℕ} {o : EventObject} (token : ℕ) (ev : ℕ → PollEvent)
    (f : EventObject → α × EventObject) (ho : w.find id = some o) : ∃ u, EventWorld.use token id ev f w = (.ok (f o).1, u) ∧
      u.find id = some (f o).2 ∧ ∀ t, u.active t = w.active t := by
  unfold EventWorld.use
  rw [ho]
  exact ⟨_, rfl, find_store_same ho, fun _ => rfl⟩

/-- What a question about a watched socket is answered. -/
theorem currentAnd_value (none : α) (f : EventObject → α × EventObject) :
    (currentAnd p none f w).1 = if w.active p.token then
      (w.find p.socket).elim (.error .undefined) fun o =>
        .ok (if o.base.sockfd == some p.fd then (f o).1 else none)
      else .ok none := by
  unfold currentAnd getIfActive
  rw [Code.bind_run, Code.read_run]
  dsimp only
  cases w.active p.token with
  | false => rfl
  | true =>
    simp only [Bool.not_true, Bool.false_eq_true, if_false, if_true]
    rw [Code.bind_run]
    cases ho : w.find p.socket with
    | none =>
      unfold EventWorld.look EventWorld.use
      rw [ho]
      rfl
    | some o =>
      obtain ⟨u, hu, hfind, -⟩ := use_run p.token (fun _ => .looked p.token)
        (fun o => (o.base.sockfd == some p.fd, o)) ho
      unfold EventWorld.look
      rw [hu, Option.elim_some]
      dsimp only
      cases o.base.sockfd == some p.fd with
      | false => rfl
      | true =>
        obtain ⟨v, hv, -⟩ := use_run p.token (fun _ => .looked p.token) f hfind
        simp only [Bool.not_true, Bool.false_eq_true, if_false, if_true]
        rw [hv]

/-- The time to wait for one socket: that to its deadline, if it has one. -/
theorem ask_timeout {due : Int}
    (hask : ask h (-1) EventObject.pollTimeoutMs p w = (.ok due, w')) :
    (due = -1 ∧ ∀ s d, Watching p s w → s.deadline ≠ some d) ∨
      ∃ s d, Watching p s w ∧ s.deadline = some d ∧
        due = SslEventSocket.remainingMs d ((h.objects p.socket).tls.now s.tick) := by
  unfold ask at hask
  split at hask
  · rename_i hudp
    obtain rfl := Except.ok.inj (congr_arg Prod.fst hask)
    exact .inl ⟨rfl, fun s d hs => absurd (hs.stream.symm.trans hudp) (by decide)⟩
  · rename_i hstream
    have hvalue := congr_arg Prod.fst hask
    rw [currentAnd_value] at hvalue
    split at hvalue
    · rename_i hactive
      cases ho : w.find p.socket with
      | none =>
        rw [ho] at hvalue
        cases hvalue
      | some o =>
        rw [ho] at hvalue
        obtain rfl := Except.ok.inj hvalue
        split
        · rename_i hfd
          cases o with
          | tls s =>
            have hs : Watching p s w := ⟨⟨ho, hactive⟩, by simpa using hstream, beq_iff_eq.mp hfd⟩
            have hdue : (EventObject.pollTimeoutMs (h.objects p.socket) (.tls s)).1 =
              (s.pollTimeoutMs (h.objects p.socket).tls).1 := rfl
            rw [hdue, SslEventSocket.pollTimeoutMs_eq]
            cases hd : s.deadline with
            | none => exact .inl ⟨rfl, fun t d ht => by rw [← hs.unique ht, hd]; simp⟩
            | some d => exact .inr ⟨s, d, hs, hd, rfl⟩
          | _ =>
            refine .inl ⟨rfl, fun s d hs => ?_⟩
            have hother := ho.symm.trans hs.object
            cases hother
        · rename_i hfd
          refine .inl ⟨rfl, fun s d hs => absurd ?_ hfd⟩
          obtain rfl := Option.some.inj (ho.symm.trans hs.object)
          exact beq_iff_eq.mpr hs.sockfd
    · rename_i hactive
      obtain rfl := Except.ok.inj hvalue
      exact .inl ⟨rfl, fun s d hs => absurd hs.active hactive⟩

/-- The first socket of those whose deadlines are read, and the others. -/
theorem reads_cons {due : Int} (hask : ask h (-1) EventObject.pollTimeoutMs p w = (.ok due, w')) :
    Reads h (p :: ps) w q d now ↔
      (q = p ∧ ∃ s, Watching p s w ∧ s.deadline = some d ∧ now = (h.objects p.socket).tls.now s.tick) ∨
        Reads h ps w' q d now := by
  refine ⟨fun hreads => ?_, fun hreads => ?_⟩
  · cases hreads with
    | here hs hd => exact .inl ⟨rfl, _, hs, hd, rfl⟩
    | later hask' hrest =>
      obtain rfl := congr_arg Prod.snd (hask'.symm.trans hask)
      exact .inr hrest
  · rcases hreads with ⟨rfl, s, hs, hd, rfl⟩ | hrest
    · exact .here hs hd
    · exact .later hask hrest

/-- The timeout that a round of the wait uses. -/
theorem effectiveTimeout_timely {effective : Int} (ht : -1 ≤ timeoutMs)
    (hrun : effectiveTimeout h ps timeoutMs w = (.ok effective, w')) :
    Timely timeoutMs effective (Reads h ps w) := by
  induction ps generalizing timeoutMs w with
  | nil =>
    obtain rfl := Except.ok.inj (congr_arg Prod.fst hrun)
    exact ⟨fun hpos => ⟨hpos, le_rfl⟩, fun _ _ _ hreads => (nomatch hreads), .inl, ht⟩
  | cons p ps ih =>
    unfold effectiveTimeout at hrun
    rw [Code.bind_run] at hrun
    rcases hask : ask h (-1) EventObject.pollTimeoutMs p w with ⟨_ | due, u⟩
    · rw [hask] at hrun
      cases hrun
    · rw [hask] at hrun
      dsimp only at hrun
      have hfirst := ask_timeout hask
      generalize hshorter : (if due ≥ 0 ∧ (timeoutMs = -1 ∨ due < timeoutMs) then due else timeoutMs) =
        shorter at hrun
      have hshort : -1 ≤ shorter ∧ (0 ≤ timeoutMs → 0 ≤ shorter ∧ shorter ≤ timeoutMs) ∧
          (0 ≤ due → 0 ≤ shorter ∧ shorter ≤ due) ∧ (shorter = due ∨ shorter = timeoutMs) := by
        rw [← hshorter]
        split <;> omega
      obtain ⟨hlow, hmost, hdue, hwhich⟩ := hshort
      have hrest := ih hlow hrun
      refine ⟨fun hpos => ?_, fun q d now hreads => ?_, fun hzero => ?_, hrest.infinite⟩
      · obtain ⟨hle, hge⟩ := hmost hpos
        obtain ⟨hle', hge'⟩ := hrest.most hle
        exact ⟨hle', hge'.trans hge⟩
      · rcases (reads_cons hask).mp hreads with ⟨rfl, s, hs, hd, rfl⟩ | hlater
        · rcases hfirst with ⟨-, hnone⟩ | ⟨t, d', ht, hd', hvalue⟩
          · exact absurd hd (hnone s d hs)
          · obtain rfl := hs.unique ht
            obtain rfl := Option.some.inj (hd.symm.trans hd')
            have hpos := SslEventSocket.remainingMs_nonneg d ((h.objects q.socket).tls.now s.tick)
            have hnear := SslEventSocket.remainingMs_near d ((h.objects q.socket).tls.now s.tick)
            rw [← hvalue] at hpos hnear
            obtain ⟨hle, hge⟩ := hdue hpos
            obtain ⟨hle', hge'⟩ := hrest.most hle
            refine ⟨hle', le_trans ?_ hnear⟩
            exact Int.mul_le_mul_of_nonneg_right (hge'.trans hge) (Int.natCast_nonneg _)
        · exact hrest.near q d now hlater
      · rcases hrest.zero hzero with hshort | ⟨q, d, now, hreads, hpassed⟩
        · rcases hwhich with hwhich | hwhich
          · rcases hfirst with ⟨hnone, -⟩ | ⟨s, d, hs, hd, hvalue⟩
            · exact absurd (hwhich.symm.trans hshort) (by rw [hnone]; decide)
            · refine .inr ⟨p, d, _, .here hs hd, ?_⟩
              exact remainingMs_eq_zero.mp (hvalue.symm.trans (hwhich.symm.trans hshort))
          · exact .inl (hwhich.symm.trans hshort)
        · exact .inr ⟨q, d, now, .later hask hreads, hpassed⟩

/-- The check for a passed deadline reads the clock in the same way. -/
theorem ask_expired (p : Watch) (w : EventWorld) : ask h false timeoutExpired p w =
    ((ask h (-1) EventObject.pollTimeoutMs p w).1.map (· == 0),
      (ask h (-1) EventObject.pollTimeoutMs p w).2) := by
  have huse (u : EventWorld) : EventWorld.look p.token p.socket (timeoutExpired (h.objects p.socket)) u =
      ((EventWorld.look p.token p.socket (EventObject.pollTimeoutMs (h.objects p.socket)) u).1.map
        (· == 0), (EventWorld.look p.token p.socket
          (EventObject.pollTimeoutMs (h.objects p.socket)) u).2) := by
    unfold EventWorld.look EventWorld.use
    cases u.find p.socket <;> rfl
  unfold ask
  split
  · rfl
  · unfold currentAnd getIfActive
    simp only [Code.bind_run, Code.read_run]
    cases w.active p.token with
    | false => rfl
    | true =>
      simp only [Bool.not_true, Bool.false_eq_true, if_false]
      rw [Code.bind_run, Code.bind_run]
      rcases EventWorld.look p.token p.socket (fun o => (o.base.sockfd == some p.fd, o)) w with
        ⟨_ | same, u⟩
      · rfl
      · cases same with
        | false => rfl
        | true => exact huse u

/-- The check of the first socket, and that of the others. -/
theorem askAny_cons {expired : Bool}
    (hrun : askAny h timeoutExpired (p :: ps) w = (.ok expired, w')) : ∃ due u others,
      ask h (-1) EventObject.pollTimeoutMs p w = (.ok due, u) ∧
        askAny h timeoutExpired ps u = (.ok others, w') ∧ expired = (due == 0 || others) := by
  unfold askAny at hrun
  rw [Code.bind_run, ask_expired] at hrun
  rcases hask : ask h (-1) EventObject.pollTimeoutMs p w with ⟨_ | due, u⟩
  · rw [hask] at hrun
    cases hrun
  · rw [hask] at hrun
    dsimp only [Except.map] at hrun
    rw [Code.bind_run] at hrun
    rcases hothers : askAny h timeoutExpired ps u with ⟨_ | others, v⟩
    · rw [hothers] at hrun
      cases hrun
    · rw [hothers] at hrun
      obtain rfl : v = w' := congr_arg Prod.snd hrun
      exact ⟨due, u, others, rfl, hothers, (Except.ok.inj (congr_arg Prod.fst hrun)).symm⟩

/-- The check says whether one of the deadlines that it reads has passed. -/
theorem askAny_expired {expired : Bool} (hrun : askAny h timeoutExpired ps w = (.ok expired, w')) :
    expired = true ↔ ∃ q d now, Reads h ps w q d now ∧ d ≤ now := by
  induction ps generalizing w expired with
  | nil =>
    obtain rfl := Except.ok.inj (congr_arg Prod.fst hrun)
    exact ⟨fun hno => absurd hno (by decide), fun ⟨_, _, _, hreads, _⟩ => nomatch hreads⟩
  | cons p ps ih =>
    obtain ⟨due, u, others, hask, hothers, rfl⟩ := askAny_cons hrun
    have hrest := ih hothers
    have hfirst : due = 0 ↔ ∃ s d, Watching p s w ∧ s.deadline = some d ∧
        d ≤ (h.objects p.socket).tls.now s.tick := by
      rcases ask_timeout hask with ⟨hdue, hnone⟩ | ⟨s, d, hs, hd, hdue⟩
      · rw [hdue]
        exact ⟨fun hno => absurd hno (by decide), fun ⟨s, d, hs, hd, _⟩ => absurd hd (hnone s d hs)⟩
      · rw [hdue, remainingMs_eq_zero]
        refine ⟨fun hpassed => ⟨s, d, hs, hd, hpassed⟩, fun ⟨t, d', ht, hd', hpassed⟩ => ?_⟩
        obtain rfl := hs.unique ht
        obtain rfl := Option.some.inj (hd.symm.trans hd')
        exact hpassed
    rw [Bool.or_eq_true, beq_iff_eq, hfirst, hrest]
    refine ⟨?_, fun ⟨q, d, now, hreads, hpassed⟩ => ?_⟩
    · rintro (⟨s, d, hs, hd, hpassed⟩ | ⟨q, d, now, hreads, hpassed⟩)
      · exact ⟨p, d, _, .here hs hd, hpassed⟩
      · exact ⟨q, d, now, .later hask hreads, hpassed⟩
    · rcases (reads_cons hask).mp hreads with ⟨rfl, s, hs, hd, rfl⟩ | hlater
      · exact .inl ⟨s, d, hs, hd, hpassed⟩
      · exact .inr ⟨q, d, now, hlater, hpassed⟩

end Deadlines

/-- The watched socket has the deadline `d`, and the clock shows that it has passed. -/
def Overdue (h : LoopHost) (p : Watch) (d : ℕ) (w : EventWorld) : Prop :=
  ∃ s, Watching p s w ∧ s.deadline = some d ∧ d ≤ (h.objects p.socket).tls.now s.tick

/-- A question that at most uses up native answers of a TLS object. -/
def Asks {α : Type} (f : EventObject → α × EventObject) : Prop :=
  ∀ s : SslEventSocket, ∃ tick, s.tick ≤ tick ∧ (f (.tls s)).2 = .tls (s.later tick)

theorem asks_inspect {α : Type} (f : EventObject → α) : Asks fun o => (f o, o) :=
  fun s => ⟨s.tick, le_rfl, rfl⟩

theorem asks_pollTimeoutMs (e : NetHost) : Asks (EventObject.pollTimeoutMs e) := by
  intro s
  show ∃ tick, s.tick ≤ tick ∧ EventObject.tls (s.pollTimeoutMs e.tls).2 = .tls (s.later tick)
  rw [SslEventSocket.pollTimeoutMs_eq]
  cases s.deadline with
  | none => exact ⟨s.tick, le_rfl, rfl⟩
  | some d => exact ⟨s.tick + 1, Nat.le_succ _, rfl⟩

namespace Overdue

variable {α : Type} {h : LoopHost} {p q : Watch} {ps : List Watch} {d : ℕ} {w : EventWorld}
variable (hclock : ∀ i, Monotone (h.objects i).tls.now)

include hclock

theorem use {token id : ℕ} {ev : ℕ → PollEvent} {f : EventObject → α × EventObject} (hf : Asks f) :
    Keeps (Overdue h p d) (EventWorld.use token id ev f) := by
  rintro w ⟨s, hs, hd, hpassed⟩
  unfold EventWorld.use
  cases ho : w.find id with
  | none => exact ⟨s, ⟨⟨hs.object, hs.active⟩, hs.stream, hs.sockfd⟩, hd, hpassed⟩
  | some o =>
    by_cases hid : p.socket = id
    · subst hid
      obtain rfl := Option.some.inj (ho.symm.trans hs.object)
      obtain ⟨tick, hle, hf⟩ := hf s
      refine ⟨s.later tick, ⟨⟨?_, hs.active⟩, hs.stream, hs.sockfd⟩, hd,
        hpassed.trans (hclock p.socket hle)⟩
      show EventWorld.find p.socket (w.store p.socket (f (.tls s)).2) = _
      rw [find_store_same ho, hf]
    · refine ⟨s, ⟨⟨?_, hs.active⟩, hs.stream, hs.sockfd⟩, hd, hpassed⟩
      exact (find_store_ne hid).trans hs.object

theorem currentAnd {none : α} {f : EventObject → α × EventObject} (hf : Asks f) :
    Keeps (Overdue h p d) (currentAnd q none f) := by
  refine (Keeps.read _).bind fun active => .ite (fun _ => .pure _) fun _ => ?_
  exact (use hclock (asks_inspect _)).bind fun same => .ite (fun _ => .pure _) fun _ => use hclock hf

theorem ask {none : α} {f : NetHost → EventObject → α × EventObject} (hf : ∀ e, Asks (f e)) :
    Keeps (Overdue h p d) (ask h none f q) :=
  .ite (fun _ => .pure _) fun _ => currentAnd hclock (hf _)

theorem effectiveTimeout (timeoutMs : Int) :
    Keeps (Overdue h p d) (effectiveTimeout h ps timeoutMs) := by
  induction ps generalizing timeoutMs with
  | nil => exact .pure _
  | cons q ps ih => exact (ask hclock asks_pollTimeoutMs).bind fun _ => ih _

theorem askAny {f : NetHost → EventObject → Bool × EventObject} (hf : ∀ e, Asks (f e)) :
    Keeps (Overdue h p d) (askAny h f ps) := by
  induction ps with
  | nil => exact .pure _
  | cons q ps ih => exact (ask hclock hf).bind fun _ => ih.bind fun _ => .pure _

omit hclock in
theorem pollReadable (timeoutMs : Int) (fuel : ℕ) :
    Keeps (Overdue h p d) (pollReadable h ps timeoutMs fuel) := by
  intro w hw
  obtain ⟨tick, ht⟩ := pollReadable_ticks h ps timeoutMs fuel w
  obtain ⟨s, hs, hd, hpassed⟩ := hw
  rw [ht]
  exact ⟨s, ⟨⟨hs.object, hs.active⟩, hs.stream, hs.sockfd⟩, hd, hpassed⟩

/-- A deadline that a scan has found passed is still passed when it is over. -/
theorem of_effectiveTimeout {now : ℕ} {timeoutMs effective : Int} {w' : EventWorld}
    (hreads : Reads h ps w p d now) (hnow : d ≤ now)
    (hrun : EventLoop.effectiveTimeout h ps timeoutMs w = (.ok effective, w')) : Overdue h p d w' := by
  induction hreads generalizing timeoutMs with
  | @here p ps w s d hs hd =>
    have hkept : Overdue h p d (EventLoop.effectiveTimeout h (p :: ps) timeoutMs w).2 :=
      effectiveTimeout hclock timeoutMs w ⟨s, hs, hd, hnow⟩
    rwa [hrun] at hkept
  | @later p ps w u due q d now hask _ ih =>
    unfold EventLoop.effectiveTimeout at hrun
    rw [Code.bind_run, hask] at hrun
    exact ih hnow hrun

theorem of_expired {now : ℕ} {expired : Bool} {w' : EventWorld} (hreads : Reads h ps w p d now)
    (hnow : d ≤ now) (hrun : EventLoop.askAny h timeoutExpired ps w = (.ok expired, w')) :
    Overdue h p d w' := by
  induction hreads generalizing expired with
  | @here p ps w s d hs hd =>
    have hkept : Overdue h p d (EventLoop.askAny h timeoutExpired (p :: ps) w).2 :=
      askAny hclock (fun e => asks_pollTimeoutMs e) w ⟨s, hs, hd, hnow⟩
    rwa [hrun] at hkept
  | @later p ps w u due q d now hask _ ih =>
    obtain ⟨due', u', others, hask', hothers, -⟩ := askAny_cons hrun
    obtain rfl : u = u' := congr_arg Prod.snd (hask.symm.trans hask')
    exact ih hnow hothers

/-- A watched socket that is overdue when the check begins is found to be. -/
theorem expired {expired : Bool} {w' : EventWorld} (hw : Overdue h p d w) (hp : p ∈ ps)
    (hrun : EventLoop.askAny h timeoutExpired ps w = (.ok expired, w')) : expired = true := by
  induction ps generalizing w expired with
  | nil => exact absurd hp List.not_mem_nil
  | cons q ps ih =>
    rcases List.mem_cons.mp hp with rfl | hmem
    · obtain ⟨s, hs, hd, hnow⟩ := hw
      exact (askAny_expired hrun).mpr ⟨p, d, _, .here hs hd, hnow⟩
    · obtain ⟨due, u, others, hask, hothers, rfl⟩ := askAny_cons hrun
      have hkept : Overdue h p d (EventLoop.ask h (-1) EventObject.pollTimeoutMs q w).2 :=
        ask hclock asks_pollTimeoutMs w hw
      rw [hask] at hkept
      rw [ih hkept hmem hothers, Bool.or_true]

end Overdue

/-- An infinite native wait never returns `0`. -/
def LoopHost.Endless (h : LoopHost) : Prop :=
  ∀ tick watched, watched ≠ [] → (h.poll tick watched (-1)).1.ret ≠ 0

section Waits

variable {h : LoopHost} {p : Watch} {ps : List Watch} {buffered : Bool} {timeoutMs : Int} {fuel d : ℕ}
variable {w w' : EventWorld} {r : Int × List Flags × Bool}

theorem waitForever_endless (hinf : h.Endless) {watched : List (ℕ × Bool)} (hne : watched ≠ [])
    {fuel tick : ℕ} {answer : IoResult × List Flags}
    (hrun : (waitForever h watched fuel tick).answer = some answer) : answer.1.ret ≠ 0 := by
  induction fuel generalizing tick with
  | zero => cases hrun
  | succ fuel ih =>
    unfold waitForever at hrun
    dsimp only at hrun
    split at hrun
    · exact ih hrun
    · obtain rfl := Option.some.inj hrun
      exact hinf tick watched hne

theorem pollReadable_endless (hinf : h.Endless) (hps : ps ≠ []) {ready : Int × List Flags}
    (hrun : pollReadable h ps (-1) fuel w = (.ok ready, w')) : ready.1 ≠ 0 := by
  unfold pollReadable at hrun
  rw [if_neg (by decide), if_neg (by simpa using hps)] at hrun
  dsimp only at hrun
  have hforever (fuel tick : ℕ) : nativeWait h (ps.map fun p => (p.fd, p.writable)) (-1) fuel tick =
      waitForever h (ps.map fun p => (p.fd, p.writable)) fuel tick := if_pos rfl
  rw [hforever] at hrun
  cases hanswer : (waitForever h (ps.map fun p => (p.fd, p.writable)) fuel w.tick).answer with
  | none =>
    rw [hanswer] at hrun
    cases hrun
  | some answer =>
    rw [hanswer] at hrun
    obtain rfl := Except.ok.inj (congr_arg Prod.fst hrun)
    exact waitForever_endless hinf (by simpa using hps) hanswer

end Waits

/-- A round of the wait from `w` on, until `poll_readable` returns. -/
structure Round (h : LoopHost) (ps : List Watch) (buffered : Bool) (timeoutMs : Int) (fuel : ℕ)
    (w : EventWorld) where
  effective : Int
  asked : EventWorld
  ready : Int × List Flags
  woken : EventWorld
  timeout : effectiveTimeout h ps timeoutMs w = (.ok effective, asked)
  wait : pollReadable h ps (if buffered then 0 else effective) fuel asked = (.ok ready, woken)

/-- `poll` goes round again: it was only woken before a deadline. -/
structure Round.Again {h : LoopHost} {ps : List Watch} {buffered : Bool} {timeoutMs : Int} {fuel : ℕ}
    {w : EventWorld} (ρ : Round h ps buffered timeoutMs fuel w) (after : EventWorld) : Prop where
  check : askAny h timeoutExpired ps ρ.woken = (.ok false, after)
  nothing : ρ.ready.1 = 0
  unbuffered : buffered = false
  forever : timeoutMs = -1
  until_deadline : ρ.effective ≠ -1

/-- The wait that goes through its rounds from `w` on finds at one of its clock
readings that the deadline `d` of `p` has passed. -/
inductive Observes (h : LoopHost) (ps : List Watch) (buffered : Bool) (timeoutMs : Int) (p : Watch)
    (d : ℕ) : ℕ → EventWorld → Prop
  | asked {fuel w now} (reads : Reads h ps w p d now) (passed : d ≤ now) :
      Observes h ps buffered timeoutMs p d (fuel + 1) w
  | woken {fuel w now} (ρ : Round h ps buffered timeoutMs (fuel + 1) w)
      (reads : Reads h ps ρ.woken p d now) (passed : d ≤ now) :
      Observes h ps buffered timeoutMs p d (fuel + 1) w
  | again {fuel w after} (ρ : Round h ps buffered timeoutMs (fuel + 1) w) (goes : ρ.Again after)
      (rest : Observes h ps buffered timeoutMs p d fuel after) :
      Observes h ps buffered timeoutMs p d (fuel + 1) w

/-- The wait from `w` on is over because of readiness, of an error, of input that
OpenSSL has already decrypted, or of a deadline that it has found passed. -/
structure Ends (h : LoopHost) (ps : List Watch) (buffered : Bool) (timeoutMs : Int) (fuel : ℕ)
    (w : EventWorld) (ready : Int × List Flags × Bool) : Prop where
  cause : ready.1 ≠ 0 ∨ buffered = true ∨ ready.2.2 = true
  passed : ready.2.2 = true → ∃ p d, Observes h ps buffered timeoutMs p d fuel w

section Rounds

variable {h : LoopHost} {p : Watch} {ps : List Watch} {buffered : Bool} {timeoutMs : Int} {fuel d : ℕ}
variable {w w' : EventWorld} {r : Int × List Flags × Bool}

theorem Round.unique (ρ ρ' : Round h ps buffered timeoutMs fuel w) :
    ρ.effective = ρ'.effective ∧ ρ.ready = ρ'.ready ∧ ρ.woken = ρ'.woken := by
  have htimeout := ρ.timeout.symm.trans ρ'.timeout
  have heffective : ρ.effective = ρ'.effective := Except.ok.inj (congr_arg Prod.fst htimeout)
  have hasked : ρ.asked = ρ'.asked := congr_arg Prod.snd htimeout
  have hwait := ρ.wait
  rw [heffective, hasked, ρ'.wait] at hwait
  exact ⟨heffective, (Except.ok.inj (congr_arg Prod.fst hwait)).symm, (congr_arg Prod.snd hwait).symm⟩

/-- What a wait does: a round, after which it is over or goes on. -/
theorem waitReady_round (hrun : waitReady h ps buffered timeoutMs (fuel + 1) w = (.ok r, w')) :
    ∃ ρ : Round h ps buffered timeoutMs (fuel + 1) w,
      (ρ.ready.1 < 0 ∧ r = (ρ.ready.1, [], false)) ∨
      (∃ expired, askAny h timeoutExpired ps ρ.woken = (.ok expired, w') ∧
        r = (ρ.ready.1, ρ.ready.2, expired) ∧ (ρ.ready.1 ≠ 0 ∨ buffered = true ∨ expired = true ∨
          timeoutMs ≠ -1 ∨ ρ.effective = -1)) ∨
      ∃ after, ρ.Again after ∧ waitReady h ps buffered timeoutMs fuel after = (.ok r, w') := by
  unfold waitReady at hrun
  rw [Code.bind_run] at hrun
  rcases htimeout : effectiveTimeout h ps timeoutMs w with ⟨_ | effective, asked⟩
  · rw [htimeout] at hrun
    cases hrun
  · rw [htimeout] at hrun
    dsimp only at hrun
    rw [Code.bind_run] at hrun
    rcases hwait : pollReadable h ps (if buffered then 0 else effective) (fuel + 1) asked with
      ⟨_ | ready, woken⟩
    · rw [hwait] at hrun
      cases hrun
    · rw [hwait] at hrun
      refine ⟨⟨effective, asked, ready, woken, htimeout, hwait⟩, ?_⟩
      dsimp only at hrun ⊢
      split at hrun
      · rename_i hneg
        exact .inl ⟨hneg, (Except.ok.inj (congr_arg Prod.fst hrun)).symm⟩
      · rw [Code.bind_run] at hrun
        rcases hcheck : askAny h timeoutExpired ps woken with ⟨_ | expired, after⟩
        · rw [hcheck] at hrun
          cases hrun
        · rw [hcheck] at hrun
          dsimp only at hrun
          split at hrun
          · rename_i hstop
            obtain rfl : after = w' := congr_arg Prod.snd hrun
            refine .inr (.inl ⟨expired, rfl, (Except.ok.inj (congr_arg Prod.fst hrun)).symm, ?_⟩)
            simpa [or_assoc] using hstop
          · rename_i hgo
            simp only [Bool.or_eq_true, decide_eq_true_eq, not_or, Bool.not_eq_true, Decidable.not_not]
              at hgo
            obtain ⟨⟨⟨⟨hnothing, hbuffered⟩, rfl⟩, hforever⟩, hdeadline⟩ := hgo
            exact .inr (.inr ⟨after, ⟨hcheck, hnothing, hbuffered, hforever, hdeadline⟩, hrun⟩)

/-- An infinite wait on at least one socket ends for a reason. -/
theorem waitReady_ends (hinf : h.Endless) (hps : ps ≠ [])
    (hrun : waitReady h ps buffered (-1) fuel w = (.ok r, w')) :
    Ends h ps buffered (-1) fuel w r := by
  induction fuel generalizing w with
  | zero => cases hrun
  | succ fuel ih =>
    rcases waitReady_round hrun with
      ⟨ρ, ⟨hneg, rfl⟩ | ⟨expired, hcheck, rfl, hstop⟩ | ⟨after, hagain, hrest⟩⟩
    · exact ⟨.inl (ne_of_lt hneg), fun hno => Bool.noConfusion hno⟩
    · refine ⟨?_, fun hyes => ?_⟩
      · rcases hstop with hready | hbuffered | hyes | hfinite | hforever
        · exact .inl hready
        · exact .inr (.inl hbuffered)
        · exact .inr (.inr hyes)
        · exact absurd rfl hfinite
        · by_cases hb : buffered = true
          · exact .inr (.inl hb)
          · have hwait := ρ.wait
            rw [if_neg hb, hforever] at hwait
            exact .inl (pollReadable_endless hinf hps hwait)
      · obtain ⟨q, d, now, hreads, hpassed⟩ := (askAny_expired hcheck).mp hyes
        exact ⟨q, d, .woken ρ hreads hpassed⟩
    · have hends := ih hrest
      refine ⟨hends.cause, fun hyes => ?_⟩
      obtain ⟨q, d, hobs⟩ := hends.passed hyes
      exact ⟨q, d, .again ρ hagain hobs⟩

theorem Reads.mem {now : ℕ} (hreads : Reads h ps w p d now) : p ∈ ps := by
  induction hreads with
  | here => exact List.mem_cons_self
  | later _ _ ih => exact List.mem_cons_of_mem _ ih

/-- A wait that has found a deadline passed ends at once, unless with an error,
and the deadline is still passed. -/
theorem waitReady_observes (hclock : ∀ i, Monotone (h.objects i).tls.now)
    (hobs : Observes h ps buffered timeoutMs p d fuel w)
    (hrun : waitReady h ps buffered timeoutMs fuel w = (.ok r, w')) :
    r.1 < 0 ∨ r.2.2 = true ∧ Overdue h p d w' := by
  induction hobs with
  | @asked fuel w now hreads hnow =>
    rcases waitReady_round hrun with ⟨ρ, hround⟩
    have hasked := Overdue.of_effectiveTimeout hclock hreads hnow ρ.timeout
    have hwoken : Overdue h p d ρ.woken := by
      have hkept : Overdue h p d (pollReadable h ps (if buffered then 0 else ρ.effective) (fuel + 1)
          ρ.asked).2 := Overdue.pollReadable _ _ _ hasked
      rwa [ρ.wait] at hkept
    have hfound {expired : Bool} {after : EventWorld}
        (hcheck : askAny h timeoutExpired ps ρ.woken = (.ok expired, after)) :
        expired = true ∧ Overdue h p d after := by
      have hkept : Overdue h p d (askAny h timeoutExpired ps ρ.woken).2 :=
        Overdue.askAny hclock (fun e => asks_pollTimeoutMs e) _ hwoken
      rw [hcheck] at hkept
      exact ⟨hwoken.expired hclock hreads.mem hcheck, hkept⟩
    rcases hround with ⟨hneg, rfl⟩ | ⟨expired, hcheck, rfl, -⟩ | ⟨after, hagain, -⟩
    · exact .inl hneg
    · exact .inr (hfound hcheck)
    · exact absurd (hfound hagain.check).1 (by decide)
  | @woken fuel w now ρ hreads hnow =>
    rcases waitReady_round hrun with ⟨ρ', hround⟩
    obtain ⟨-, -, hwoken⟩ := ρ.unique ρ'
    have hfound {expired : Bool} {after : EventWorld}
        (hcheck : askAny h timeoutExpired ps ρ'.woken = (.ok expired, after)) :
        expired = true ∧ Overdue h p d after := by
      rw [← hwoken] at hcheck
      exact ⟨(askAny_expired hcheck).mpr ⟨p, d, now, hreads, hnow⟩,
        Overdue.of_expired hclock hreads hnow hcheck⟩
    rcases hround with ⟨hneg, rfl⟩ | ⟨expired, hcheck, rfl, -⟩ | ⟨after, hagain, -⟩
    · exact .inl hneg
    · exact .inr (hfound hcheck)
    · exact absurd (hfound hagain.check).1 (by decide)
  | @again fuel w after ρ goes _ ih =>
    rcases waitReady_round hrun with ⟨ρ', hround⟩
    obtain ⟨heffective, hready, hwoken⟩ := ρ.unique ρ'
    rcases hround with ⟨hneg, -⟩ | ⟨expired, hcheck, -, hstop⟩ | ⟨after', hagain, hrest⟩
    · rw [← hready, goes.nothing] at hneg
      exact absurd hneg (by decide)
    · rw [← hwoken, goes.check] at hcheck
      obtain rfl := Except.ok.inj (congr_arg Prod.fst hcheck)
      rw [← hready, ← heffective] at hstop
      rcases hstop with hno | hno | hno | hno | hno
      · exact absurd goes.nothing hno
      · exact absurd (goes.unbuffered.symm.trans hno) (by decide)
      · exact absurd hno (by decide)
      · exact absurd goes.forever hno
      · exact absurd hno goes.until_deadline
    · have hsame := hagain.check
      rw [← hwoken, goes.check] at hsame
      obtain rfl : after = after' := congr_arg Prod.snd hsame
      exact ih hrest

end Rounds

end Aeon
