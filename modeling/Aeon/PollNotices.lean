import Aeon.PollRegistry
import Aeon.SessionNotices

/-!
# The turn of a TLS socket

What `poll` tells the handlers of one TLS socket in its turn.  An error is told at
most once, and the close follows in the same turn.
-/

namespace Aeon

open Program EventWorld EventLoop SslEventSocket

/-- The socket has its turn: its token is active, and the object satisfies `P`. -/
structure Serving (p : Watch) (P : SslEventSocket → Prop) (w : EventWorld) : Prop where
  polling : w.polling = true
  registered : w.registrations[p.token]? = some ⟨p.socket, true⟩
  object : ∃ s, w.find p.socket = some (.tls s) ∧ P s

/-- The socket is still on the connection that is watched. -/
def Present (p : Watch) (F : Option ℕ → Prop) (s : SslEventSocket) : Prop :=
  Account .underway F s ∧ s.sockfd = some p.fd

theorem Present.attached {p : Watch} {F : Option ℕ → Prop} {s : SslEventSocket}
    (h : Present p F s) : s.sockfd ≠ none := by
  simp [h.2]

/-- Handlers that only do to the object what may be done at any time, and return. -/
structure Attentive (p : Watch) (cb : EventNote → Code EventWorld Unit) : Prop where
  keeps : ∀ n σ F, ¬F none → Keeps (Serving p (Account σ F)) (cb n)
  returns : ∀ n w e, w.polling = true → (cb n w).1 ≠ .error e

namespace Serving

variable {α : Type} {h : LoopHost} {cb : EventNote → Code EventWorld Unit} {p : Watch}
variable {P Q : SslEventSocket → Prop} {σ : Stage} {F G : Option ℕ → Prop}

/-- There is no way for a program to halt. -/
abbrev Never : Halt → EventWorld → Prop := fun _ _ => False

section State

variable {w w' : EventWorld}

theorem imp (hw : Serving p P w) (hPQ : ∀ s, P s → Q s) : Serving p Q w := by
  obtain ⟨s, hs, hP⟩ := hw.object
  exact ⟨hw.polling, hw.registered, s, hs, hPQ s hP⟩

theorem of_eq (hw : Serving p P w) (hobjects : w'.objects = w.objects)
    (hregs : w'.registrations = w.registrations) (hpolling : w'.polling = w.polling) :
    Serving p P w' := by
  obtain ⟨s, hs, hP⟩ := hw.object
  refine ⟨hpolling.trans hw.polling, hregs ▸ hw.registered, s, ?_, hP⟩
  rwa [find, hobjects]

theorem active (hw : Serving p P w) : w.active p.token = true := by
  simp [EventWorld.active, hw.registered]

end State

section Uses

variable {E : Halt → EventWorld → Prop}

theorem note (e : PollEvent) : Triple (Serving p P) (note e) (fun _ => Serving p P) E :=
  fun _ hw => hw.of_eq rfl rfl rfl

/-- The object of the turn is there. -/
theorem use {token : ℕ} {e : ℕ → PollEvent} {f : EventObject → α × EventObject}
    {Q : α → SslEventSocket → Prop}
    (hf : ∀ s, P s → ∃ t, (f (.tls s)).2 = .tls t ∧ Q (f (.tls s)).1 t) :
    Triple (Serving p P) (use token p.socket e f) (fun a => Serving p (Q a)) E := by
  intro w hw
  obtain ⟨s, hs, hP⟩ := hw.object
  obtain ⟨t, ht, hQ⟩ := hf s hP
  rw [EventWorld.use, hs]
  refine ⟨hw.polling, hw.registered, t, ?_, hQ⟩
  exact (find_store_same hs).trans (congr_arg some ht)

/-- A question that changes nothing. -/
theorem inspect {token : ℕ} {f : EventObject → α} :
    Triple (Serving p P) (look token p.socket fun o => (f o, o))
      (fun a => Serving p fun s => P s ∧ a = f (.tls s)) E :=
  use fun s hs => ⟨s, rfl, hs, rfl⟩

theorem isActive : Triple (Serving p P) (getIfActive p.token)
    (fun active w => active = true ∧ Serving p P w) E :=
  fun _ hw => ⟨hw.active, hw⟩

/-- The token of the turn is active, so that only the descriptor decides. -/
theorem currentAnd {none : α} {f : EventObject → α} {Q : α → SslEventSocket → Prop}
    (hsame : ∀ s, P s → s.sockfd = some p.fd → Q (f (.tls s)) s)
    (hother : ∀ s, P s → s.sockfd ≠ some p.fd → Q none s) :
    Triple (Serving p P) (currentAnd p none fun o => (f o, o)) (fun a => Serving p (Q a)) E := by
  refine isActive.bind fun active => .assume fun w hw => ?_
  obtain ⟨rfl, hw⟩ := hw
  refine .ite (fun hoff => absurd hoff (by simp)) fun _ => ?_
  refine Triple.bind (inspect.pre fun _ ht => ht ▸ hw) fun same => .ite (fun hne => ?_) fun heq => ?_
  · refine .ret fun w hw => hw.imp fun s hs => hother s hs.1 fun hfd => ?_
    rw [hs.2] at hne
    simp [EventObject.base, hfd] at hne
  · refine use fun s hs => ⟨s, rfl, hsame s hs.1 ?_⟩
    have hfd : (s.sockfd == some p.fd) = true := hs.2 ▸ by simpa using heq
    exact beq_iff_eq.mp hfd

end Uses

section Handlers

variable (hcb : Attentive p cb) (hF : ¬F none)

include hcb hF

theorem callback (pending : Pending) (level : CallbackLevel) (n : Notice) :
    Triple (Serving p (Account σ F)) (callback cb pending p level n) (fun _ => Serving p (Account σ F))
      Never := by
  refine (note _).bind fun _ => Triple.bind (Q := fun _ => Serving p (Account σ F)) ?_ fun _ => ?_
  · intro w hw
    have hkept := hcb.keeps ⟨level, p.socket, n⟩ σ F hF w hw
    have hreturns := hcb.returns ⟨level, p.socket, n⟩ w
    revert hkept hreturns
    rcases cb ⟨level, p.socket, n⟩ w with ⟨e | _, w'⟩
    · exact fun _ hreturns => hreturns e hw.polling rfl
    · exact fun hkept _ => hkept
  · refine Triple.bind (Q := fun _ => Serving p (Account σ F)) (fun w hw => ?_) fun _ => note _
    exact hw.of_eq rfl rfl rfl

theorem setCallback (pending : Pending) (n : Notice) :
    Triple (Serving p (Account σ F)) (setCallback cb pending p n) (fun _ => Serving p (Account σ F))
      Never := by
  refine isActive.bind fun active => .whenever (fun _ => ?_) fun _ w hw => hw.2
  exact (callback hcb hF pending .set n).pre fun w hw => hw.2

theorem bothCallbacks (pending : Pending) (n : Notice) :
    Triple (Serving p (Account σ F)) (bothCallbacks cb pending p n) (fun _ => Serving p (Account σ F))
      Never :=
  (callback hcb hF pending .socket n).bind fun _ => setCallback hcb hF pending n

variable (hclose : ∀ tick, (h.objects p.socket).tls.close tick = 0)

include hclose

/-- The close ends the session at whatever stage it is. -/
theorem closeSocket (pending : Pending) :
    Triple (Serving p (Account σ F)) (closeSocket h cb pending p) (fun _ => Serving p (Account .underway F))
      Never := by
  refine Triple.bind (Q := fun _ => Serving p (Account .underway F)) (use fun s hs => ?_)
    fun closed => ?_
  · exact ⟨_, rfl, (hs.close hclose hF).1⟩
  · exact .whenever (fun _ => callback hcb hF pending .socket .close) fun _ _ hw => hw

theorem reportClose (pending : Pending) :
    Triple (Serving p (Account σ F)) (reportClose h cb pending p) (fun _ => Serving p (Account .underway F))
      Never := by
  refine (note _).bind fun _ => (closeSocket hcb hF hclose pending).bind fun _ => ?_
  exact setCallback hcb hF pending .close

omit hclose

/-- An error is told, which a close has to follow. -/
theorem reportError (pending : Pending) (code : Int) :
    Triple (Serving p (Present p F)) (reportError cb pending p code)
      (fun _ => Serving p (Account .failing F)) Never := by
  refine (note _).bind fun _ => Triple.bind (Q := fun _ => Serving p (Account .failing F))
    (use fun s hs => ?_) fun _ => bothCallbacks hcb hF pending _
  exact EventObject.account_fail hs.1 hs.attached code

theorem setAndReportError (pending : Pending) (code : Int) :
    Triple (Serving p (Present p F)) (setAndReportError cb pending p code)
      (fun _ => Serving p (Account .failing F)) Never := by
  refine Triple.bind (Q := fun _ => Serving p (Present p F)) (use fun s hs => ?_)
    fun _ => reportError hcb hF pending code
  exact ⟨_, rfl, hs.1.untold (.same rfl rfl), hs.2⟩

variable (hclose : ∀ tick, (h.objects p.socket).tls.close tick = 0)

include hclose

theorem failStep (ps : List Watch) :
    Triple (Serving p (Present p F)) (failStep h cb ps p)
      (fun _ => Serving p (Account .underway F)) Never := by
  refine inspect.bind fun code => Triple.bind (Q := fun _ => Serving p (Account .failing F))
    ((reportError hcb hF _ code).pre fun w hw => hw.imp fun s hs => hs.1) fun _ => ?_
  refine isActive.bind fun active => .ite (fun _ => ?_) fun hoff => .ret fun w hw => ?_
  · refine Triple.bind (inspect.pre fun w hw => hw.2) fun valid => .whenever (fun _ => ?_) fun hvalid w hw => ?_
    · exact (closeSocket hcb hF hclose _).pre fun w hw => hw.imp fun s hs => hs.1
    · refine hw.imp fun s hs => hs.1.ended (hs.1.none_of fun hfd => ?_)
      have hnone : s.sockfd = none := by
        simpa [hvalid, EventObject.base, Socket.isValidSocket] using hs.2
      exact hF (hnone ▸ hfd)
  · exact absurd hw.1 hoff

end Handlers

section Watched

variable (hcb : Attentive p cb) (hclose : ∀ tick, (h.objects p.socket).tls.close tick = 0)
variable (hF : ∀ fd, F fd → fd = some p.fd)

include hcb hclose hF

/-- The close that follows an error, unless a handler has closed the socket. -/
theorem closeTerminal (pending : Pending) :
    Triple (Serving p (Account .failing F)) (closeTerminal h cb pending p)
      (fun _ => Serving p (Account .underway F)) Never := by
  have hnone : ¬F none := fun hfd => by cases hF none hfd
  refine Triple.bind (Q := fun terminal => Serving p (Account (if terminal then .failing else .underway) F))
    (currentAnd (fun s hs _ => hs) fun s hs hfd => ?_) fun terminal => .whenever (fun ht => ?_) fun ht w hw => ?_
  · exact hs.ended (hs.none_of fun hmem => hfd (hF _ hmem))
  · exact (closeSocket hcb hnone hclose pending).pre fun w hw => by rwa [ht] at hw
  · rwa [ht] at hw

/-- A read that fails closes the socket, and the error of the descriptor does not get here. -/
theorem dispatchRead (pending : Pending) {flags : Flags} (herr : flags.pollerr = false)
    (hnval : flags.pollnval = false) :
    Triple (Serving p (Present p F)) (dispatchRead h cb pending p flags)
      (fun _ => Serving p (Account .underway F)) Never := by
  have hnone : ¬F none := fun hfd => by cases hF none hfd
  refine inspect.bind fun ready => .ite (fun _ => ?_) fun _ => .ite (fun hbad => ?_) fun _ => ?_
  · refine Triple.bind (Q := fun _ => Serving p (Present p F)) (use fun s hs => ?_) fun received => ?_
    · obtain ⟨t, ht, haccount, hfd⟩ := EventObject.account_pollReceive hs.1.1
      exact ⟨t, ht, haccount, hfd.trans hs.1.2⟩
    refine .ite (fun _ => (note _).bind fun _ => ?_) fun _ => .ite (fun _ => ?_) fun _ =>
      .ite (fun _ => .ret fun _ hw => hw.imp fun _ hs => hs.1) fun _ => ?_
    · refine Triple.bind (Q := fun _ => Serving p (Account .underway F)) (use fun s hs => ?_) fun _ => ?_
      · exact ⟨_, rfl, hs.1.untold (.base ⟨rfl, rfl, rfl, le_rfl⟩)⟩
      · exact (bothCallbacks hcb hnone pending _).bind fun _ => .ret fun _ hw => hw
    · refine Triple.bind (Q := fun _ => Serving p (Account .underway F)) ?_ fun _ => .ret fun _ hw => hw
      exact (reportClose hcb hnone hclose pending).pre fun w hw => hw.imp fun s hs => hs.1
    · refine inspect.bind fun code => Triple.bind ((setAndReportError hcb hnone pending code).pre
        fun w hw => hw.imp fun s hs => hs.1) fun _ => ?_
      exact (closeTerminal hcb hclose hF pending).bind fun _ => .ret fun _ hw => hw
  · simp [herr, hnval] at hbad
  · exact .ret fun w hw => hw.imp fun s hs => hs.1.1

theorem dispatchQueue (ps : List Watch) (flags : Flags) :
    Triple (Serving p (Account .underway F)) (dispatchQueue h cb ps p flags)
      (fun _ => Serving p (Account .underway F)) Never := by
  have hnone : ¬F none := fun hfd => by cases hF none hfd
  refine Triple.bind (Q := fun ready => Serving p fun s =>
      Account .underway F s ∧ (ready = true → s.sockfd = some p.fd))
    (currentAnd (fun _ hs hfd => ⟨hs, fun _ => hfd⟩) fun _ hs _ => ⟨hs, fun hon => Bool.noConfusion hon⟩)
    fun ready => .ite (fun _ => .ret fun _ hw => hw.imp fun _ hs => hs.1) fun hready => ?_
  refine Triple.bind (Q := fun _ => Serving p (Present p F)) (use fun s hs => ?_) fun flushed => ?_
  · obtain ⟨t, ht, haccount, hfd⟩ := EventObject.account_flushQueued hs.1
    exact ⟨t, ht, haccount, hfd.trans (hs.2 (by simpa using hready))⟩
  · refine .ite (fun _ => ?_) fun _ => .ite (fun _ => (note _).bind fun _ => ?_) fun _ => ?_
    · refine (setAndReportError hcb hnone _ _).bind fun _ => ?_
      exact (closeTerminal hcb hclose hF _).bind fun _ => .ret fun _ hw => hw
    · refine Triple.bind (Q := fun _ => Serving p (Account .underway F)) ?_ fun _ => .ret fun _ hw => hw
      exact (bothCallbacks hcb hnone _ _).pre fun w hw => hw.imp fun s hs => hs.1
    · exact .ret fun _ hw => hw.imp fun _ hs => hs.1

omit hclose

/-- The connect handler is told of a handshake that has just completed. -/
theorem pollStep (ps : List Watch) (flags : Flags) :
    Triple (Serving p (Present p F)) (pollStep h cb ps p flags)
      (fun progress w => (progress < 0 ∨ progress = 0 ∨ progress = 3 ∨ progress = 2 ∨
          flags.pollerr = false ∧ flags.pollnval = false) ∧
        Serving p (fun s => Account .underway F s ∧ (progress ≠ 2 → s.sockfd = some p.fd)) w) Never := by
  have hnone : ¬F none := fun hfd => by cases hF none hfd
  refine Triple.bind (Q := fun progress => Serving p fun s => (progress < 0 ∨ progress = 0 ∨ progress = 3 ∨
    progress = 2 ∨ flags.pollerr = false ∧ flags.pollnval = false) ∧ Present p F s)
    (use fun s hs => ?_) fun progress => .assume fun w hw => ?_
  · exact ⟨_, rfl, s.pollStep_clean flags, hs.1.pollStep flags, (s.pollStep_opens flags).1.trans hs.2⟩
  · obtain ⟨s, -, hpasses, -⟩ := hw.object
    have hpresent : Serving p (Present p F) w := hw.imp fun s hs => hs.2
    by_cases hready : progress = 2
    · refine Triple.bind (Q := fun _ => Serving p (Account .underway F)) ?_ fun _ => .ret fun _ hw =>
        ⟨hpasses, hw.imp fun s hs => ⟨hs, fun hne => absurd hready hne⟩⟩
      refine .whenever (fun _ => ?_) fun hno => absurd hready (by simpa using hno)
      exact (callback hcb hnone _ .socket .connect).pre fun t ht => ht ▸ hpresent.imp fun s hs => hs.1
    · refine Triple.bind (Q := fun _ => Serving p (Present p F)) ?_ fun _ => .ret fun _ hw =>
        ⟨hpasses, hw.imp fun s hs => ⟨hs.1, fun _ => hs.2⟩⟩
      exact .whenever (fun hyes => absurd (by simpa using hyes) hready) fun _ t ht => ht ▸ hpresent

include hclose

theorem dispatchStream (ps : List Watch) (flags : Flags) :
    Triple (Serving p (Present p F)) (dispatchStream h cb ps p flags)
      (fun _ => Serving p (Account .underway F)) Never := by
  have hnone : ¬F none := fun hfd => by cases hF none hfd
  refine (pollStep hcb hF ps flags).bind fun progress => .assume fun w hw => ?_
  obtain ⟨hpasses, hw⟩ := hw
  have haccount : Serving p (Account .underway F) w := hw.imp fun s hs => hs.1
  have hpresent (hne : progress ≠ 2) : Serving p (Present p F) w :=
    hw.imp fun s hs => ⟨hs.1, hs.2 hne⟩
  refine .ite (fun hneg => ?_) fun hneg => .ite (fun hzero => ?_) fun hzero =>
    .ite (fun _ => ?_) fun hend => .ite (fun _ => ?_) fun hready => ?_
  · refine Triple.bind ?_ fun _ => .ret fun _ hw => hw
    exact (failStep hcb hnone hclose ps).pre fun t ht => ht ▸ hpresent (by omega)
  · exact .ret fun t ht => ht ▸ haccount
  · refine Triple.bind ?_ fun _ => .ret fun _ hw => hw
    exact (reportClose hcb hnone hclose _).pre fun t ht => ht ▸ haccount
  · refine Triple.bind (Q := fun _ => Serving p (Account .underway F)) ?_ fun here => ?_
    · exact (currentAnd (fun _ hs _ => hs) fun _ hs _ => hs).pre fun t ht => ht ▸ haccount
    · refine Triple.bind (Q := fun _ => Serving p (Account .underway F))
        (.whenever (fun _ => ?_) fun _ _ hw => hw) fun _ => .ret fun _ hw => hw
      exact callback hcb hnone _ .set .connect
  · obtain ⟨herr, hnval⟩ : flags.pollerr = false ∧ flags.pollnval = false := by
      simpa [hneg, hzero, hend, hready] using hpasses
    refine Triple.bind ((dispatchRead hcb hclose hF _ herr hnval).pre
      fun t ht => ht ▸ hpresent hready) fun read => ?_
    exact (dispatchQueue hcb hclose hF ps flags).bind fun _ => .ret fun _ hw => hw

end Watched

section Dispatch

variable (hcb : Attentive p cb) (hclose : ∀ tick, (h.objects p.socket).tls.close tick = 0)
variable (hudp : p.udp = false)

include hcb hclose

theorem dispatchTcp (ps : List Watch) (flags : Flags) :
    Triple (Serving p (Account .underway G)) (dispatchTcp h cb ps p flags)
      (fun _ => Serving p (Account .underway G)) Never := by
  -- of the sessions that live only those on the watched descriptor are served
  let F : Option ℕ → Prop := fun fd => fd = some p.fd ∧ G fd
  refine Triple.bind (Q := fun here => Serving p fun s =>
      if here then Present p F s else Account .underway G s)
    (currentAnd (fun s hs hfd => ⟨hs.imp fun hG => ⟨hfd, hG⟩, hfd⟩) fun s hs _ => hs) fun here => ?_
  refine .ite (fun hoff => .ret fun w hw => hw.imp fun s hs => ?_) fun hhere => ?_
  · simpa [show here = false by simpa using hoff] using hs
  · have hhere : here = true := by simpa using hhere
    subst hhere
    refine Triple.bind inspect fun listening => .ite (fun hlistening w hw => ?_) fun _ => ?_
    · obtain ⟨s, -, -, hfalse⟩ := hw.object
      simp [hlistening, EventObject.isListener] at hfalse
    · refine (dispatchStream (F := F) hcb hclose (fun fd hfd => hfd.1) ps flags).mono
        (fun w hw => hw.imp fun s hs => hs.1) (fun _ w hw => hw.imp fun s hs => hs.imp fun hG => hG.2)
        fun _ _ he => he

include hudp

/-- The whole turn of a TLS socket. -/
theorem dispatch (ps : List Watch) (flags : Flags) :
    Triple (Serving p (Account .underway G)) (dispatch h cb ps p flags)
      (fun _ => Serving p (Account .underway G)) Never := by
  refine Triple.bind (Q := fun _ => Serving p (Account .underway G)) ?_ fun due => ?_
  · refine .ite (fun _ => .ret fun _ hw => hw) fun _ => isActive.bind fun active => ?_
    refine .ite (fun _ => .ret fun _ hw => hw.2) fun _ => Triple.bind
      (Q := fun _ => Serving p (Account .underway G)) ((use fun s hs => ?_).pre fun w hw => hw.2) fun _ =>
      .ret fun _ hw => hw
    exact ⟨_, rfl, Account.called.pollTimeoutMs hs⟩
  · refine .ite (fun _ => .ret fun _ hw => hw) fun _ => ?_
    refine .ite (fun htrue => absurd htrue (by simp [hudp])) fun _ => dispatchTcp hcb hclose ps flags

end Dispatch

end Serving

end Aeon
