import Aeon.SessionUpkeep
import Aeon.SessionFrame

/-!
# What the handlers of a session are told

The handler calls of one session are a trace, which `Underway` describes while the
session lives and `Over` when it has ended.  `Account` says so of every session of
an object, and what the object does is judged by what it adds to these traces.
-/

namespace Aeon

open History

/-- Whose the connection of an object is after the event.  A new connection belongs to
no session until one is started on it. -/
def Event.owner (owner : Option ℕ) : Event → Option ℕ
  | .opened _ => none
  | .sslNew id => some id
  | _ => owner

def ownerOf (log : List Event) : Option ℕ := log.foldl Event.owner none

/-- What the event tells the handlers of the session `id`. -/
def Event.told (id : ℕ) (owner : Option ℕ) : Event → List Notice
  | .notify _ n => if owner = some id then [n] else []
  | _ => []

def noticesFrom (id : ℕ) : Option ℕ → List Event → List Notice
  | _, [] => []
  | owner, ev :: log => ev.told id owner ++ noticesFrom id (ev.owner owner) log

/-- What the handlers have been told of one session, the latest last: everything from
its start until the next connection is opened. -/
def noticesOf (id : ℕ) (log : List Event) : List Notice := noticesFrom id none log

theorem ownerOf_snoc (log : List Event) (ev : Event) :
    ownerOf (log ++ [ev]) = ev.owner (ownerOf log) := by
  simp [ownerOf]

theorem noticesOf_snoc (id : ℕ) (log : List Event) (ev : Event) :
    noticesOf id (log ++ [ev]) = noticesOf id log ++ ev.told id (ownerOf log) := by
  have hfrom (owner : Option ℕ) : noticesFrom id owner (log ++ [ev]) =
      noticesFrom id owner log ++ ev.told id (log.foldl Event.owner owner) := by
    induction log generalizing owner with
    | nil => simp [noticesFrom]
    | cons first log ih => simp [noticesFrom, ih]
  exact hfrom none

/-- Events that open no connection and no session, and tell no handler. -/
def Event.untold : Event → Bool
  | .opened _ | .sslNew _ | .notify .. => false
  | _ => true

theorem Event.untold_of_tacit {e : Event} (h : e.tacit = true) : e.untold = true := by
  cases e with
  | opened | sslNew | handshake | notify => cases h
  | _ => rfl

/-- Such events add nothing to what anybody has been told. -/
theorem untold_extends {log log' : List Event} (h : Extends (fun ev => ev.untold = true) log log') :
    ownerOf log' = ownerOf log ∧ ∀ id, noticesOf id log' = noticesOf id log := by
  obtain ⟨es, rfl, hes⟩ := h
  induction es generalizing log with
  | nil => simp
  | cons ev es ih =>
    obtain ⟨hev, hrest⟩ := List.forall_mem_cons.mp hes
    have hone : ev.owner (ownerOf log) = ownerOf log ∧ ∀ id, ev.told id (ownerOf log) = [] := by
      cases ev with
      | opened | sslNew | notify => cases hev
      | _ => exact ⟨rfl, fun _ => rfl⟩
    obtain ⟨howner, hnotices⟩ := @ih (log ++ [ev]) hrest
    rw [List.append_cons]
    refine ⟨howner.trans ?_, fun id => (hnotices id).trans ?_⟩
    · rw [ownerOf_snoc, hone.1]
    · rw [noticesOf_snoc, hone.2, List.append_nil]

/-- Nobody has been told anything, and no session started. -/
structure Unheard (log : List Event) : Prop where
  owner : ownerOf log = none
  notices : ∀ id, noticesOf id log = []

namespace Unheard

variable {log log' : List Event}

theorem nil : Unheard [] := ⟨rfl, fun _ => rfl⟩

theorem opened (fd : ℕ) : Unheard [.opened fd] := ⟨rfl, fun _ => rfl⟩

theorem grows (h : Unheard log) (h' : Extends (fun ev => ev.untold = true) log log') : Unheard log' := by
  obtain ⟨howner, hnotices⟩ := untold_extends h'
  exact ⟨howner.trans h.owner, fun id => (hnotices id).trans (h.notices id)⟩

/-- The constructor of an event socket may close its descriptor. -/
theorem construct {b : Socket} (hb : Unheard b.log) (h : Host) :
    Unheard (EventSocket.construct h b).log := by
  have hmode := hb.grows (.of_eq (Socket.aside_setBlocking h false b).log)
  unfold EventSocket.construct
  split
  · exact hb
  · dsimp only
    split
    · exact hmode
    · cases hfd : (b.setBlocking h false).2.sockfd with
      | none => rwa [Socket.close_none hfd]
      | some fd => exact hmode.grows (.one (Socket.close_log hfd) rfl)

end Unheard

/-- News of application data. -/
def Notice.moves : Notice → Bool
  | .data _ | .drain => true
  | _ => false

/-- The trace of a session that lives: nothing before it is ready, and from then on
one connect and news of application data. -/
inductive Underway : Bool → List Notice → Prop
  | waiting : Underway false []
  | connected {ns : List Notice} (moves : ∀ n ∈ ns, n.moves = true) : Underway true (.connect :: ns)

/-- The trace of a session that has ended: at most one error and exactly one close
come last. -/
inductive Over : List Notice → Prop
  | closed {ready : Bool} {ns : List Notice} (told : Underway ready ns) : Over (ns ++ [.close])
  | failed {ready : Bool} {ns : List Notice} (code : Int) (told : Underway ready ns) :
      Over (ns ++ [.error code, .close])

theorem Underway.move {ns : List Notice} {n : Notice} (h : Underway true ns) (hn : n.moves = true) :
    Underway true (ns ++ [n]) := by
  cases h with
  | connected hmoves =>
    rw [List.cons_append]
    refine .connected fun m hm => ?_
    rcases List.mem_append.mp hm with hm | hm
    · exact hmoves m hm
    · simpa [List.mem_singleton.mp hm] using hn

theorem Underway.connect {ns : List Notice} (h : Underway false ns) : Underway true (ns ++ [.connect]) := by
  cases h with
  | waiting => exact .connected (by simp)

/-- How far the dispatch of a socket has come: a session may be about to start, and an
error may have been told of it that a close follows. -/
inductive Stage
  | starting | underway | failing
  deriving DecidableEq

def Stage.Told : Stage → Bool → List Notice → Prop
  | .starting, _, ns => ns = []
  | .underway, ready, ns => Underway ready ns
  | .failing, _, ns => ∃ ready before code, Underway ready before ∧ ns = before ++ [.error code]

/-- A session may be closed at every stage. -/
theorem Stage.Told.over {σ : Stage} {ready : Bool} {ns : List Notice} (h : σ.Told ready ns) :
    Over (ns ++ [.close]) := by
  cases σ with
  | starting =>
    obtain rfl : ns = [] := h
    exact .closed .waiting
  | underway => exact .closed h
  | failing =>
    obtain ⟨ready', before, code, hbefore, rfl⟩ := h
    simpa using Over.failed code hbefore

namespace SslEventSocket

variable {e : TlsHost} {s t u : SslEventSocket} {σ τ : Stage} {F G : Option ℕ → Prop}

/-- What decides about the notices, besides the history. -/
def standing (s : SslEventSocket) := (s.session, s.nextSession, s.tlsReady, s.sockfd)

/-- Nothing happens that the handlers of a session are told of. -/
structure Untold (s t : SslEventSocket) : Prop where
  standing : t.standing = s.standing
  log : Extends (fun ev => ev.untold = true) s.log t.log

namespace Untold

theorem trans (h : Untold s t) (h' : Untold t u) : Untold s u :=
  ⟨h'.standing.trans h.standing, h.log.trans h'.log⟩

theorem same (h : t.standing = s.standing) (hlog : t.log = s.log) : Untold s t :=
  ⟨h, .of_eq hlog⟩

/-- One event is added. -/
theorem adds {ev : Event} (hlog : t.log = s.log ++ [ev]) (h : t.standing = s.standing)
    (hev : ev.untold = true) : Untold s t :=
  ⟨h, .one hlog hev⟩

theorem base {b : Socket} (h : s.toSocket.Beside b) : Untold s { s with toSocket := b } := by
  refine same ?_ h.log
  simp only [SslEventSocket.standing, h.sockfd]

theorem fields (h : Untold s t) : t.session = s.session ∧ t.nextSession = s.nextSession ∧
    t.tlsReady = s.tlsReady ∧ t.sockfd = s.sockfd := by
  simpa only [SslEventSocket.standing, Prod.mk.injEq] using h.standing

theorem requireIdentity (s : SslEventSocket) : Untold s (s.requireIdentity e).2 := by
  unfold SslEventSocket.requireIdentity
  split
  · dsimp only
    split
    · exact .adds rfl rfl rfl
    · exact .same rfl rfl
  · exact .adds rfl rfl rfl

theorem requestServerName (identity : String) (s : SslEventSocket) :
    Untold s (s.requestServerName e identity).2 := by
  unfold SslEventSocket.requestServerName
  split <;> exact .same rfl rfl

end Untold

theorem Tacit.untold (h : Tacit s t) : Untold s t := by
  have hsame := h.fixture
  simp only [SslEventSocket.fixture, Prod.mk.injEq] at hsame
  obtain ⟨-, -, -, hsession, hnext, hready, hfd⟩ := hsame
  refine ⟨?_, h.log.mono fun _ => Event.untold_of_tacit⟩
  simp only [standing, hsession, hnext, hready, hfd]

/-- What the handlers of all sessions of an object have been told: those that have
ended, those still to come, and the one that lives, whose descriptor is in `F`.  An
open connection is that of the session that lives, or of none. -/
structure Account (σ : Stage) (F : Option ℕ → Prop) (s : SslEventSocket) : Prop where
  past : ∀ id < s.nextSession, s.session ≠ some id → Over (noticesOf id s.log)
  fresh : ∀ id, s.nextSession ≤ id → noticesOf id s.log = []
  live : ∀ id, s.session = some id → id < s.nextSession ∧ ownerOf s.log = some id ∧
    σ.Told s.tlsReady (noticesOf id s.log) ∧ F s.sockfd
  unowned : s.session = none → s.sockfd ≠ none → ownerOf s.log = none
  completed : ∀ id, .connect ∈ noticesOf id s.log → ∃ ev ∈ s.log, ev.completes id

namespace Account

theorem untold (h : Account σ F s) (h' : Untold s t) : Account σ F t := by
  obtain ⟨hsession, hnext, hready, hfd⟩ := h'.fields
  obtain ⟨howner, hnotices⟩ := untold_extends h'.log
  refine ⟨fun id hid hne => ?_, fun id hid => ?_, fun id hid => ?_, fun hnone hopen => ?_,
    fun id hid => ?_⟩
  · rw [hnotices]
    exact h.past id (hnext ▸ hid) (hsession ▸ hne)
  · rw [hnotices]
    exact h.fresh id (hnext ▸ hid)
  · rw [hnext, hready, hfd, hnotices, howner]
    exact h.live id (hsession ▸ hid)
  · rw [howner]
    exact h.unowned (hsession ▸ hnone) (hfd ▸ hopen)
  · rw [hnotices] at hid
    obtain ⟨ev, hev, hcompletes⟩ := h.completed id hid
    exact ⟨ev, h'.log.mem hev, hcompletes⟩

theorem imp (h : Account σ F s) (hFG : F s.sockfd → G s.sockfd) : Account σ G s :=
  { h with
    live := fun id hid => by
      obtain ⟨hlt, howner, htold, hfd⟩ := h.live id hid
      exact ⟨hlt, howner, htold, hFG hfd⟩ }

/-- Without a session it does not matter how far its dispatch has come. -/
theorem ended (h : Account σ F s) (hnone : s.session = none) : Account τ G s :=
  { h with live := fun id hid => by simp [hnone] at hid }

theorem none_of (h : Account σ F s) (hfd : ¬F s.sockfd) : s.session = none := by
  cases hlive : s.session with
  | none => rfl
  | some id => exact absurd (h.live id hlive).2.2.2 hfd

/-- The handlers are told something about an open connection. -/
theorem tell (h : Account σ F s) (n : Notice) (hopen : s.session = none → s.sockfd ≠ none)
    (hn : ∀ id ns, s.session = some id → σ.Told s.tlsReady ns → τ.Told t.tlsReady (ns ++ [n]))
    (hconnect : n = .connect → ∀ id, s.session = some id → ∃ ev ∈ s.log, ev.completes id)
    (hstanding : t.session = s.session ∧ t.nextSession = s.nextSession ∧ t.sockfd = s.sockfd)
    (hlog : t.log = s.log ++ [.notify s.session n]) : Account τ F t := by
  obtain ⟨hsession, hnext, hfd⟩ := hstanding
  have howner : ownerOf t.log = ownerOf s.log := by rw [hlog, ownerOf_snoc]; rfl
  have howned : ownerOf s.log = s.session := by
    cases hlive : s.session with
    | none => exact h.unowned hlive (hopen hlive)
    | some id => exact (h.live id hlive).2.1
  have hnotices (id : ℕ) : noticesOf id t.log =
      noticesOf id s.log ++ if s.session = some id then [n] else [] := by
    rw [hlog, noticesOf_snoc, howned, Event.told]
  have hother (id : ℕ) (hne : s.session ≠ some id) : noticesOf id t.log = noticesOf id s.log := by
    rw [hnotices, if_neg hne, List.append_nil]
  refine ⟨fun id hid hne => ?_, fun id hid => ?_, fun id hid => ?_, fun hnone hvalid => ?_,
    fun id hid => ?_⟩
  · rw [hsession] at hne
    rw [hother id hne]
    exact h.past id (hnext ▸ hid) hne
  · rw [hnext] at hid
    rw [hother id fun hlive => Nat.not_lt.mpr hid (h.live id hlive).1]
    exact h.fresh id hid
  · rw [hsession] at hid
    obtain ⟨hlt, hown, htold, hF⟩ := h.live id hid
    refine ⟨hnext ▸ hlt, howner.trans hown, ?_, hfd ▸ hF⟩
    rw [hnotices, if_pos hid]
    exact hn id _ hid htold
  · rw [howner]
    exact h.unowned (hsession ▸ hnone) (hfd ▸ hvalid)
  · have hdone : ∃ ev ∈ s.log, ev.completes id := by
      rw [hnotices, List.mem_append] at hid
      rcases hid with hold | hnew
      · exact h.completed id hold
      · by_cases hlive : s.session = some id
        · rw [if_pos hlive, List.mem_singleton] at hnew
          exact hconnect hnew.symm id hlive
        · simp [hlive] at hnew
    obtain ⟨ev, hev, hcompletes⟩ := hdone
    exact ⟨ev, hlog ▸ List.mem_append_left _ hev, hcompletes⟩

theorem record (h : Account σ F s) (n : Notice) (hopen : s.session = none → s.sockfd ≠ none)
    (hne : n ≠ .connect)
    (hn : ∀ id ns, s.session = some id → σ.Told s.tlsReady ns → τ.Told s.tlsReady (ns ++ [n])) :
    Account τ F (s.record (.notify s.session n)) :=
  h.tell n hopen hn (fun heq => absurd heq hne) ⟨rfl, rfl, rfl⟩ rfl

/-- News of application data is about a session that is ready. -/
theorem move (h : Account .underway F s) {n : Notice} (hn : n.moves = true)
    (hready : s.session ≠ none ∧ s.tlsReady = true) :
    Account .underway F (s.record (.notify s.session n)) := by
  refine h.record n (fun hnone => absurd hnone hready.1) ?_ fun id ns _ htold => ?_
  · rintro rfl
    cases hn
  · have htold : Underway s.tlsReady ns := htold
    rw [hready.2] at htold
    rw [hready.2]
    exact htold.move hn

/-- An error is told of the session. -/
theorem fail (h : Account .underway F s) (hopen : s.sockfd ≠ none) (code : Int) :
    Account .failing F (s.record (.notify s.session (.error code))) := by
  refine h.record (.error code) (fun _ => hopen) ?_ fun _ ns _ htold => ⟨s.tlsReady, ns, code, htold, rfl⟩
  simp

end Account

/-- What a close does to the sessions and their traces. -/
theorem close_told (hclose : ∀ tick, e.close tick = 0) (s : SslEventSocket) :
    (s.close e).2.session = none ∧ (s.close e).2.nextSession = s.nextSession ∧
      (s.close e).2.sockfd = none ∧ (∀ ev ∈ s.log, ev ∈ (s.close e).2.log) ∧
      ∀ id, noticesOf id (s.close e).2.log = noticesOf id s.log ++
        if ownerOf s.log = some id ∧ s.sockfd.isSome = true then [.close] else [] := by
  have hfreed : s.sendAlert.freeSession.session = none ∧
      s.sendAlert.freeSession.nextSession = s.nextSession ∧
      s.sendAlert.freeSession.sockfd = s.sockfd ∧
      Extends (fun ev => ev.untold = true) s.log s.sendAlert.freeSession.log := by
    have halert := (Tacit.sendAlert s).untold
    obtain ⟨-, hnext, -, hfd⟩ := halert.fields
    unfold freeSession
    split
    · rename_i hnone
      exact ⟨hnone, hnext, hfd, halert.log⟩
    · exact ⟨rfl, hnext, hfd, halert.log.trans (.one rfl rfl)⟩
  obtain ⟨hnone, hnext, hfd, hlog⟩ := hfreed
  unfold SslEventSocket.close
  dsimp only
  generalize s.sendAlert.freeSession = u at hnone hnext hfd hlog
  have hclosed : (EventSocket.close e.toHost (u.clearFlags false).toEventSocket).1 =
      s.sockfd.isSome := by
    show (Socket.close e.toHost u.toSocket).1 = s.sockfd.isSome
    rw [← hfd]
    unfold Socket.close
    cases hu : u.sockfd with
    | none => rfl
    | some fd => simp [hclose]
  have hend : Extends (fun ev => ev.untold = true) s.log
      ((Socket.close e.toHost u.toSocket).2.log ++ [.discarded s.session]) := by
    refine Extends.trans ?_ (.one rfl rfl)
    cases hu : u.sockfd with
    | none => rwa [Socket.close_none hu]
    | some fd => exact Socket.close_log hu ▸ hlog.trans (.one rfl rfl)
  obtain ⟨howner, hnotices⟩ := untold_extends hend
  have hgone := Socket.close_sockfd e.toHost u.toSocket
  rw [hclosed]
  cases hvalid : s.sockfd.isSome with
  | false =>
    refine ⟨hnone, hnext, hgone, fun ev => hend.mem, fun id => ?_⟩
    exact (hnotices id).trans (by simp)
  | true =>
    refine ⟨hnone, hnext, hgone, fun ev hev => List.mem_append_left _ (hend.mem hev), fun id => ?_⟩
    show noticesOf id (((Socket.close e.toHost u.toSocket).2.log ++ [.discarded s.session]) ++
      [.notify s.session .close]) = _
    rw [noticesOf_snoc, hnotices, howner]
    simp [Event.told]

namespace Account

/-- A close ends the session, and its trace. -/
theorem close (hclose : ∀ tick, e.close tick = 0) (hF : ¬F none) (h : Account σ F s) :
    Account τ G (s.close e).2 ∧ (s.close e).2.session = none := by
  obtain ⟨hnone, hnext, hgone, hkept, hnotices⟩ := s.close_told hclose
  have hother (id : ℕ) (hne : s.session ≠ some id) :
      noticesOf id (s.close e).2.log = noticesOf id s.log := by
    rw [hnotices, if_neg, List.append_nil]
    rintro ⟨howner, hvalid⟩
    cases hlive : s.session with
    | none => simp [h.unowned hlive (Option.isSome_iff_ne_none.mp hvalid)] at howner
    | some k => exact hne (hlive.trans ((h.live k hlive).2.1.symm.trans howner))
  refine ⟨⟨fun id hid _ => ?_, fun id hid => ?_, fun id hid => ?_, fun _ hopen => ?_,
    fun id hid => ?_⟩, hnone⟩
  · rw [hnext] at hid
    by_cases hlive : s.session = some id
    · obtain ⟨-, howner, htold, hfd⟩ := h.live id hlive
      have hvalid : s.sockfd.isSome = true := by
        cases hs : s.sockfd with
        | none => exact absurd (hs ▸ hfd) hF
        | some fd => rfl
      rw [hnotices, if_pos ⟨howner, hvalid⟩]
      exact htold.over
    · rw [hother id hlive]
      exact h.past id hid hlive
  · rw [hnext] at hid
    rw [hother id fun hlive => Nat.not_lt.mpr hid (h.live id hlive).1]
    exact h.fresh id hid
  · simp [hnone] at hid
  · exact absurd hgone hopen
  · rw [hnotices, List.mem_append] at hid
    have hold : .connect ∈ noticesOf id s.log := by
      refine hid.resolve_right fun hnew => ?_
      split at hnew <;> simp at hnew
    obtain ⟨ev, hev, hcompletes⟩ := h.completed id hold
    exact ⟨ev, hkept ev hev, hcompletes⟩

theorem handshakeStep (id : ℕ) (flags : Flags) (hready : s.tlsReady = false)
    (hlive : s.session = some id) (h : Account .underway F s) :
    Account .underway F (s.handshakeStep e id flags).2 := by
  unfold SslEventSocket.handshakeStep
  split
  · exact h.untold (.same rfl rfl)
  · split
    · exact h
    · dsimp only
      have htried (u : SslEventSocket) (hu : u.standing = s.standing)
          (hlog : u.log = s.log ++ [.handshake id ((e.doHandshake s.tick).ret = 1)
            (!s.serverSide && s.verifyMode == .strict) (e.verifyOk s.tick) (some (e.doHandshake s.tick))]) :
          Account .underway F u := h.untold (.adds hlog hu rfl)
      split
      · rename_i hdone
        split
        · exact htried _ rfl rfl
        · rename_i hverified
          refine (htried (s.ticked.record _) rfl rfl).tell .connect (fun hnone => ?_) (fun i ns _ htold => ?_)
            (fun _ i hi => ?_) ⟨rfl, rfl, rfl⟩ rfl
          · exact absurd (hlive.symm.trans hnone) (by simp)
          · have hwaiting : Underway s.tlsReady ns := htold
            rw [hready] at hwaiting
            exact hwaiting.connect
          · obtain rfl : id = i := Option.some.inj (hlive.symm.trans hi)
            refine ⟨_, List.mem_append_right _ (List.mem_singleton.mpr rfl), ?_⟩
            have hgood : (!(!s.serverSide && s.verifyMode == .strict) || e.verifyOk s.tick) = true := by
              simpa [Classical.or_iff_not_imp_left] using hverified
            simp only [Event.completes, hdone, hgood, decide_true, Bool.and_self]
      · split
        · exact htried _ rfl rfl
        · split
          · exact htried _ rfl rfl
          · split <;> exact htried _ rfl rfl

theorem pollStep (flags : Flags) (h : Account .underway F s) :
    Account .underway F (s.pollStep e flags).2 := by
  unfold SslEventSocket.pollStep
  split
  · exact h.untold (.same rfl rfl)
  · rename_i id hlive
    split
    · split
      · exact h.untold (Tacit.shutdownStep id flags s).untold
      · split
        · exact h.untold (.same rfl rfl)
        · exact h
    · rename_i hready
      dsimp only
      have hnow : Account .underway F (s.clock e).2 := h.untold (.same rfl rfl)
      split
      · exact hnow.untold (.same rfl rfl)
      · exact hnow.handshakeStep id flags (Bool.eq_false_of_not_eq_true hready) hlive

end Account

theorem handshakeStep_result (id : ℕ) (flags : Flags) (s : SslEventSocket) :
    (s.handshakeStep e id flags).1 = -1 ∨ (s.handshakeStep e id flags).1 = 0 ∨
      (s.handshakeStep e id flags).1 = 2 := by
  unfold handshakeStep
  dsimp only
  repeat' split
  all_goals simp

/-- The error of a descriptor does not get past `poll_step`: data moves only when none
has been reported. -/
theorem pollStep_clean (flags : Flags) (s : SslEventSocket) :
    (s.pollStep e flags).1 < 0 ∨ (s.pollStep e flags).1 = 0 ∨ (s.pollStep e flags).1 = 3 ∨
      (s.pollStep e flags).1 = 2 ∨ flags.pollerr = false ∧ flags.pollnval = false := by
  unfold pollStep
  split
  · exact .inl (show (-1 : Int) < 0 by decide)
  · rename_i id _
    split
    · split
      · unfold shutdownStep
        dsimp only
        by_cases herr : (flags.pollerr || flags.pollnval) = true
        · simp only [herr, failStep, if_true]
          repeat' split
          all_goals simp
        · simp only [Bool.or_eq_true, not_or, Bool.not_eq_true] at herr
          simp [herr]
      · by_cases herr : (flags.pollerr || flags.pollnval) = true
        · simp [herr, failStep]
        · simp only [Bool.or_eq_true, not_or, Bool.not_eq_true] at herr
          simp [herr]
    · have hhand := handshakeStep_result (e := e) id flags (s.clock e).2
      dsimp only
      split
      · exact .inl (by simp)
      · omega

/-- A session that lives has a descriptor. -/
abbrev Attached (fd : Option ℕ) : Prop := fd ≠ none

namespace Account

/-- Nobody has been told of a session that is new. -/
theorem newSession (h : Account σ F s) (hnone : s.session = none) (hfd : G s.sockfd) :
    Account .starting G s.newSession := by
  have hlog (id : ℕ) : noticesOf id s.newSession.log = noticesOf id s.log :=
    (noticesOf_snoc id s.log _).trans (List.append_nil _)
  refine ⟨fun id hid hne => ?_, fun id hid => ?_, fun id hid => ?_, fun hgone => ?_, fun id hid => ?_⟩
  · have hlt : id < s.nextSession + 1 := hid
    have hother : id ≠ s.nextSession := fun heq => hne (congr_arg some heq.symm)
    rw [hlog]
    exact h.past id (by omega) (by simp [hnone])
  · rw [hlog]
    exact h.fresh id (Nat.le_of_succ_le hid)
  · obtain rfl : s.nextSession = id := Option.some.inj hid
    refine ⟨Nat.lt_succ_self _, ownerOf_snoc s.log _, ?_, hfd⟩
    rw [hlog]
    exact h.fresh _ le_rfl
  · cases hgone
  · rw [hlog] at hid
    obtain ⟨ev, hev, hcompletes⟩ := h.completed id hid
    exact ⟨ev, List.mem_append_left _ hev, hcompletes⟩

theorem start (h : Account .starting F s) (hready : s.tlsReady = false) : Account .underway F s :=
  { h with
    live := fun id hid => by
      obtain ⟨hlt, howner, hnothing, hfd⟩ := h.live id hid
      refine ⟨hlt, howner, ?_, hfd⟩
      rw [hready, show noticesOf id s.log = [] from hnothing]
      exact .waiting }

theorem initSession (server : Bool) (h : Account σ F s) (hnone : s.session = none) :
    Account .starting Attached (s.initSession e server).2 ∧
      (s.tlsReady = false ∨ (s.initSession e server).1 = true →
        (s.initSession e server).2.tlsReady = false) := by
  have hfree : s.freeSession = s := by simp [freeSession, hnone]
  unfold SslEventSocket.initSession
  rw [hfree]
  by_cases hguard : (!s.hasCtx || !s.isValidSocket) = true
  · rw [if_pos hguard]
    exact ⟨h.ended hnone, fun hready => by simpa using hready⟩
  · rw [if_neg hguard]
    simp only [Bool.or_eq_true, not_or, Bool.not_eq_true', Bool.not_eq_false] at hguard
    have hfd : Attached s.sockfd := Option.isSome_iff_ne_none.mp hguard.2
    have hticked : Account σ F s.ticked := h.untold (.same rfl rfl)
    have hnew : Account .starting Attached s.ticked.newSession := hticked.newSession hnone hfd
    dsimp only
    split
    · exact ⟨(h.ended hnone).untold (.same rfl rfl), fun hready =>
        show s.tlsReady = false by simpa using hready⟩
    · split
      · exact ⟨hnew.untold (.same rfl rfl), fun hready =>
          show s.tlsReady = false by simpa using hready⟩
      · refine ⟨⟨hnew.past, hnew.fresh, fun id hid => ?_, hnew.unowned, hnew.completed⟩, fun _ => rfl⟩
        exact hnew.live id hid

theorem refuseClient (hclose : ∀ tick, e.close tick = 0) (code : Int) (hF : ¬F none)
    (h : Account σ F s) : Account τ G (s.refuseClient e code).2 :=
  ((h.untold (.same (t := s.setError code) rfl rfl)).close hclose hF).1

/-- A client that starts has a session of which nobody has been told, or none. -/
theorem startClient (hclose : ∀ tick, e.close tick = 0) (identity : String) (h : Account σ F s)
    (hnone : s.session = none) : Account .underway Attached (s.startClient e identity).2 := by
  have hrefuse {u : SslEventSocket} (code : Int) (hu : Account .starting Attached u) :
      Account .underway Attached (u.refuseClient e code).2 :=
    hu.refuseClient hclose code fun hfd => hfd rfl
  have hidle : Account .starting Attached s := h.ended hnone
  unfold SslEventSocket.startClient
  dsimp only
  split
  · exact hrefuse _ (hidle.untold (.same rfl rfl))
  · have hmode : Account .starting Attached { s with
        expectedIdentity := identity
        toSocket := (s.toSocket.setBlocking e.toHost false).2 } :=
      (hidle.untold (.base (Socket.aside_setBlocking e.toHost false s.toSocket))).untold (.same rfl rfl)
    obtain ⟨t, ht⟩ : ∃ t : SslEventSocket, t = { s with
        expectedIdentity := identity
        toSocket := (s.toSocket.setBlocking e.toHost false).2 } := ⟨_, rfl⟩
    rw [← ht] at hmode ⊢
    have htnone : t.session = none := by rw [ht, hnone]
    split
    · exact hrefuse _ hmode
    · obtain ⟨hmade, hready⟩ := hmode.initSession (e := e) false htnone
      generalize t.initSession e false = made at hmade hready ⊢
      split
      · exact hrefuse _ hmade
      · rename_i hdone
        have hstarted := hmade.start (hready (.inr (by simpa using hdone)))
        have hnamed := Untold.requireIdentity (e := e) made.2
        generalize made.2.requireIdentity e = named at hnamed ⊢
        split
        · exact hrefuse _ (hmade.untold hnamed)
        · have hsni := Untold.requestServerName (e := e) identity named.2
          split
          · exact hrefuse _ (hmade.untold (hnamed.trans hsni))
          · exact hstarted.untold ((hnamed.trans hsni).trans (.same rfl rfl))

/-- What an application may call at any time tells no handler of a session. -/
theorem called : Called e (fun _ => True) (Account σ F) where
  base _ _ hb hs := hs.untold (.base hb)
  settings _ _ _ _ _ hs := hs.untold (.same rfl rfl)
  modeChanged _ hs := hs.untold (.adds rfl rfl rfl)
  setMaxQueuedBytes _ _ hs := hs.untold (.same rfl rfl)
  pollReceive s room hs := hs.untold (Tacit.pollReceive room s).untold
  queueWrite data s _ hs := hs.untold (Tacit.queueWrite data s).untold
  beginGracefulShutdown timeoutMs s hs := hs.untold (Tacit.beginGracefulShutdown timeoutMs s).untold

/-- An object that has never had a session, and none of whose handlers was called. -/
theorem unused (hnone : s.session = none) (hnext : s.nextSession = 0) (hlog : Unheard s.log) :
    Account σ F s where
  past id hid := absurd hid (hnext ▸ Nat.not_lt_zero id)
  fresh id _ := hlog.notices id
  live id hid := by simp [hnone] at hid
  unowned _ _ := hlog.owner
  completed id hid := by simp [hlog.notices id] at hid

theorem adoptAccepted (retained : Bool) {base : EventSocket} (hlog : Unheard base.log) :
    Account .underway Attached (adoptAccepted e retained base) := by
  have hstart (ctx : Bool) : Account .starting Attached ({
      toEventSocket := base
      serverSide := true
      verifyMode := .off
      hasCtx := ctx } : SslEventSocket) := .unused rfl rfl hlog
  unfold SslEventSocket.adoptAccepted
  dsimp only
  split
  · exact ((hstart retained).start rfl).untold (.same rfl rfl)
  · obtain ⟨hmade, hready⟩ := (hstart retained).initSession (e := e) true rfl
    have hdone := hmade.start (hready (.inl rfl))
    split
    · exact hdone
    · exact hdone.untold (.same rfl rfl)

/-- Without a session the descriptor may be replaced by a new connection, and the base
class may work on it. -/
theorem dialled (h : Account σ F s) (hnone : s.session = none) {b : Socket}
    (hnotices : ∀ id, noticesOf id b.log = noticesOf id s.log) (hkept : ∀ ev ∈ s.log, ev ∈ b.log)
    (hopen : b.sockfd ≠ none → ownerOf b.log = none) : Account τ G { s with toSocket := b } where
  past id hid hne := by
    rw [hnotices]
    exact h.past id hid hne
  fresh id hid := by
    rw [hnotices]
    exact h.fresh id hid
  live id hid := absurd (hnone.symm.trans hid) (by simp)
  unowned _ := hopen
  completed id hid := by
    rw [hnotices] at hid
    obtain ⟨ev, hev, hcompletes⟩ := h.completed id hid
    exact ⟨ev, hkept ev hev, hcompletes⟩

end Account

end SslEventSocket

namespace EventObject

open SslEventSocket

variable {e : NetHost} {s : SslEventSocket} {o : EventObject} {σ : Stage} {F : Option ℕ → Prop}

theorem account_ordinary (hclose : ∀ tick, e.tls.close tick = 0) (hF : ¬F none)
    (h : Ordinary e (.tls s) o) (hs : Account σ F s) : ∃ t, o = .tls t ∧ Account σ F t := by
  cases h with
  | same | closeOwnedPeers => exact ⟨s, rfl, hs⟩
  | base f hf => exact ⟨_, rfl, hs.untold (.base (hf s.toSocket))⟩
  | close => exact ⟨_, rfl, (hs.close hclose hF).1⟩
  | pollHasBufferedInput => exact ⟨_, rfl, Account.called.pollHasBufferedInput hs⟩
  | pollTimeoutMs => exact ⟨_, rfl, Account.called.pollTimeoutMs hs⟩
  | exec c => exact Account.called.exec c trivial hs

/-- The data handler is told of what has been received. -/
theorem account_pollReceive (hs : Account .underway F s) :
    ∃ t, ((EventObject.tls s).pollReceive e).2 = .tls t ∧ Account .underway F t ∧
      t.sockfd = s.sockfd := by
  have hspec := s.pollReceive_spec (e := e.tls) Socket.maxBufferSize
  have hread := Tacit.pollReceive (e := e.tls) Socket.maxBufferSize s
  have haccount := hs.untold hread.untold
  unfold EventObject.pollReceive
  dsimp only
  split
  · rename_i hpos
    obtain ⟨hlive, hready⟩ := hspec.received hpos
    refine ⟨_, rfl, haccount.move rfl ⟨?_, hspec.tlsReady.trans hready⟩, hread.polled.sockfd⟩
    rwa [hread.untold.fields.1]
  · exact ⟨_, rfl, haccount, hread.polled.sockfd⟩

/-- The drain handler is told that the queue is empty. -/
theorem account_flushQueued (hs : Account .underway F s) :
    ∃ t, ((EventObject.tls s).flushQueued e).2 = .tls t ∧ Account .underway F t ∧
      t.sockfd = s.sockfd := by
  have hflush := Tacit.flushQueued (e := e.tls) sendBudget s
  have haccount := hs.untold hflush.untold
  unfold EventObject.flushQueued
  dsimp only
  split
  · rename_i hdrained
    exact ⟨_, rfl, haccount.move rfl (flushQueued_drained hdrained), hflush.polled.sockfd⟩
  · exact ⟨_, rfl, haccount, hflush.polled.sockfd⟩

theorem account_fail (hs : Account .underway F s) (hopen : s.sockfd ≠ none) (code : Int) :
    ∃ t, (EventObject.tls s).fail code = .tls t ∧ Account .failing F t :=
  ⟨_, rfl, (hs.untold (.base (b := { s.toSocket with n := -1 }) ⟨rfl, rfl, rfl, le_rfl⟩)).fail hopen
    code⟩

theorem account_new (h : NewObject e o) (ho : o = .tls s) : Account .underway Attached s := by
  cases h with
  | tcp | listener | udp | acceptedTcp => cases ho
  | tls ctx =>
    have hbase : Unheard (Socket.construct e.tls.toHost 0).log := by
      unfold Socket.construct
      split
      · exact .nil
      · dsimp only
        split <;> exact .opened _
    have hlog := hbase.construct e.tls.toHost
    unfold EventLoop.newTls at ho
    dsimp only at ho
    split at ho <;> obtain rfl := EventObject.tls.inj ho <;> exact .unused rfl rfl hlog
  | @acceptedTls fd retained timeoutMs u hu =>
    obtain rfl := EventObject.tls.inj ho
    have hbase : Unheard (Socket.adopt e.tls.toHost 0 fd).log := by
      unfold Socket.adopt
      dsimp only
      split <;> exact .nil
    have hadopted := Account.adoptAccepted (e := e.tls) retained (hbase.construct e.tls.toHost)
    have htimeout := Account.called.setHandshakeTimeout (e := e.tls) timeoutMs hadopted
    unfold EventLoop.acceptedTls at hu
    dsimp only at hu
    split at hu
    · cases hu
    · split at hu
      · obtain rfl := Option.some.inj hu
        exact htimeout.untold (.base (Socket.aside_setBlocking e.tls.toHost false _))
      · cases hu

end EventObject

end Aeon
