import Aeon.PollProgress

/-!
# The dispatch loop

One rule for each function of the poll loop.  A function that calls handlers ends
with no event in progress, and what it goes on to use is compared after each call.
-/

namespace Aeon

open Program Reentrant History EventWorld EventLoop

namespace Mid

variable {α : Type} {h : LoopHost} {cb : EventNote → Code EventWorld Unit}
variable {pending pending' : Pending} {φ χ ψ θ : Phase} {t id : ℕ} {p : Watch}

section Uses

variable {f : EventObject → α × EventObject} {E : Halt → EventWorld → Prop}

theorem look (hf : ∀ o, EventObject.Calm o (f o).2) :
    Triple (fun w => Mid h pending φ w ∧ Ready t id w) (look t id f)
      (fun a w => (Mid h pending φ w ∧ Ready t id w) ∧
        ∃ o, w.find id = some (f o).2 ∧ a = (f o).1) E := by
  rintro w ⟨hm, hr⟩
  obtain ⟨o, ho⟩ := hr.find hm.sane
  rw [EventWorld.look, EventWorld.use, ho]
  refine ⟨⟨hm.used hr ho (hf o).mild rfl (fun _ => rfl) fun _ => nofun, ?_⟩, o,
    find_store_same ho, rfl⟩
  exact (hr.store _).logged rfl

theorem lookHeld (hf : ∀ o, EventObject.Calm o (f o).2) :
    Triple (fun w => Mid h pending φ w ∧ Held p w) (EventWorld.look p.token p.socket f)
      (fun _ w => Mid h pending φ w ∧ Held p w) E := by
  rintro w ⟨hm, hh⟩
  obtain ⟨o, ho⟩ := hh.find hm.sane
  rw [EventWorld.look, EventWorld.use, ho]
  refine ⟨hm.used hh.toReady ho (hf o).mild rfl (fun _ => rfl) fun _ => nofun, ?_⟩
  exact (hh.store ho (hf o)).logged rfl

/-- An action of `poll` is applied to the connection that it has watched. -/
theorem direct_act {w : EventWorld} {o : EventObject} {a : PollAction} (hh : Held p w)
    (ho : w.find p.socket = some o) (hun : Unreplaced w.log) :
    Direct w.log (.did p.token a p.connection o.connection) := by
  obtain ⟨o₁, ho₁, -, hsame⟩ := hh.object
  obtain rfl := Option.some.inj (ho.symm.trans ho₁)
  intro t' a' watched current hdid
  obtain ⟨-, -, rfl, rfl⟩ := PollEvent.did.inj hdid
  exact (hsame hun).symm

theorem act (a : PollAction) (hf : ∀ o, EventObject.Calm o (f o).2) :
    Triple (fun w => Mid h pending φ w ∧ Held p w) (act p a f)
      (fun _ w => Mid h pending φ w ∧ Held p w) E := by
  rintro w ⟨hm, hh⟩
  obtain ⟨o, ho⟩ := hh.find hm.sane
  rw [EventWorld.act, EventWorld.use, ho]
  refine ⟨hm.used hh.toReady ho (hf o).mild rfl (fun _ => rfl) (direct_act hh ho), ?_⟩
  exact (hh.store ho (hf o)).logged rfl

theorem actClose :
    Triple (fun w => Mid h pending φ w ∧ Held p w)
      (EventWorld.act p .close (EventObject.close (h.objects p.socket)))
      (fun closed w => (Mid h pending φ w ∧ Ready p.token p.socket w) ∧
        (h.ClosesSucceed → closed = true)) E := by
  rintro w ⟨hm, hh⟩
  obtain ⟨o, ho, hvalid, -⟩ := hh.object
  rw [EventWorld.act, EventWorld.use, ho]
  refine ⟨⟨hm.used hh.toReady ho (EventObject.Mild.close o).1 rfl (fun _ => rfl) (direct_act hh ho),
    (hh.toReady.store _).logged rfl⟩, fun hclose => EventObject.close_succeeds hclose o hvalid⟩

/-- `poll` is about to tell the handlers of an event. -/
theorem noteEvent (n : Notice) :
    Triple (fun w => Mid h pending .idle w ∧ Held p w) (note (.event p.token n))
      (fun _ w => Mid h pending (.due p.token n) w ∧ Held p w) E := by
  rintro w ⟨hm, hh⟩
  exact ⟨hm.logged (hh.toReady.proper hm.sane rfl) rfl rfl (fun _ _ => rfl) fun _ => nofun,
    hh.logged rfl⟩

/-- What `recvfrom` gives belongs to a token that `poll` may work on. -/
theorem recvfrom :
    Triple (fun w => Mid h pending .idle w ∧ Held p w) (recvfrom h p)
      (fun _ w => Mid h pending .idle w ∧ Held p w) E := by
  rintro w ⟨hm, hh⟩
  have hm' : Mid h pending .idle (w.logged (.received p.token)) :=
    hm.logged (hh.toReady.proper hm.sane rfl) rfl rfl (fun _ _ => rfl) fun _ => nofun
  have hh' : Held p (w.logged (.received p.token)) := hh.logged rfl
  exact ⟨hm'.aside rfl rfl rfl rfl rfl rfl, ⟨hh'.toKnown.of_eq rfl rfl, hh'.active⟩, hh'.object⟩

/-- A socket that is found to be current is open on the watched connection, if
this was compared since a handler has last run. -/
theorem currentAnd {x : α} (hf : ∀ o, EventObject.Calm o (f o).2) :
    Triple (fun w => Mid h pending φ w ∧ Known p.token p.socket w) (currentAnd p x f)
      (fun a w => Mid h pending φ w ∧
        (a ≠ x → Ready p.token p.socket w ∧ ((p, false) ∈ pending → Held p w))) E := by
  refine Triple.bind (Q := fun active w => (Mid h pending φ w ∧ Known p.token p.socket w) ∧
    w.active p.token = active) (fun w hw => ⟨hw, rfl⟩) fun active => ?_
  refine .ite (fun _ => .ret fun w hw => ⟨hw.1.1, fun hne => absurd rfl hne⟩) fun hactive => ?_
  refine Triple.bind (Q := fun same w => Mid h pending φ w ∧
    (same = true → Ready p.token p.socket w ∧ ((p, false) ∈ pending → Held p w))) ?_ fun same => ?_
  · refine (look (f := fun o => (o.base.sockfd == some p.fd, o)) fun o => .refl o).mono
      (fun w hw => ⟨hw.1.1, hw.1.2.ready (hw.2.trans (by simpa using hactive))⟩) ?_ fun _ _ he => he
    rintro same w ⟨⟨hm, hr⟩, o, ho, rfl⟩
    refine ⟨hm, fun hsame => ⟨hr, fun hmem => hm.held hmem hr ho ?_ (.inr (by simpa using hsame))⟩⟩
    rw [Socket.isValidSocket, beq_iff_eq.mp hsame]
    rfl
  refine .ite (fun _ => .ret fun w hw => ⟨hw.1, fun hne => absurd rfl hne⟩) fun hsame => ?_
  have hsame : same = true := by simpa using hsame
  by_cases hmem : (p, false) ∈ pending
  · exact (lookHeld hf).mono (fun w hw => ⟨hw.1, (hw.2 hsame).2 hmem⟩)
      (fun a w hw => ⟨hw.1, fun _ => ⟨hw.2.toReady, fun _ => hw.2⟩⟩) fun _ _ he => he
  · exact (look hf).mono (fun w hw => ⟨hw.1, (hw.2 hsame).1⟩)
      (fun a w hw => ⟨hw.1.1, fun _ => ⟨hw.1.2, fun hin => absurd hin hmem⟩⟩) fun _ _ he => he

/-- The same for a socket that is compared. -/
theorem comparedAnd {x : α} (hmem : (p, false) ∈ pending)
    (hf : ∀ o, EventObject.Calm o (f o).2) :
    Triple (Mid h pending φ) (EventLoop.currentAnd p x f)
      (fun a w => Mid h pending φ w ∧ (a ≠ x → Held p w)) E :=
  (currentAnd hf).mono (fun _ hw => ⟨hw, hw.known _ hmem⟩)
    (fun _ _ hw => ⟨hw.1, fun hne => (hw.2 hne).2 hmem⟩) fun _ _ he => he

theorem current (hmem : (p, false) ∈ pending) :
    Triple (Mid h pending φ) (current p)
      (fun here w => Mid h pending φ w ∧ (here = true → Held p w)) E := by
  refine (comparedAnd (x := false) hmem fun o => .refl o).post fun here w hw => ⟨hw.1, fun hh => ?_⟩
  exact hw.2 (by simp [hh])

theorem descriptorError (flags : Flags) :
    Triple (fun w => Mid h pending .idle w ∧ Held p w) (descriptorError h flags)
      (fun _ w => Mid h pending .idle w ∧ Held p w) E := by
  refine .ite (fun _ => .ret fun w hw => hw) fun _ => ?_
  rintro w ⟨hm, hh⟩
  exact ⟨hm.aside rfl rfl rfl rfl rfl rfl, ⟨hh.toReady.toKnown.of_eq rfl rfl, hh.active⟩, hh.object⟩

end Uses

section Handlers

variable (hcb : Edited cb)

include hcb

/-- Around a handler call, in which any socket may change. -/
theorem callback {level : CallbackLevel} {n : Notice}
    (hin : ∀ off, φ.next off (.entered p.token level n) = some χ) (hφ : χ.settled = true)
    (hout : ∀ off, χ.next off (.left p.token level n) =
      some (if p.token ∈ off then θ else ψ)) :
    Triple (fun w => Mid h pending φ w ∧ Ready p.token p.socket w) (callback cb pending p level n)
      (fun _ w => Known p.token p.socket w ∧ Mid h pending (if w.active p.token then ψ else θ) w)
      fun _ => Exit h := by
  refine Triple.bind (Q := fun _ w => Mid h pending χ w ∧ Known p.token p.socket w) ?_ fun _ => ?_
  · rintro w ⟨hm, hr⟩
    exact ⟨hm.logged (hr.proper hm.sane rfl) rfl rfl (fun off _ => hin off) fun _ => nofun,
      hr.toKnown.logged rfl⟩
  refine Triple.bind (Q := fun _ w => (Mid h [] χ w ∧ ∀ q ∈ pending, Known q.1.token q.1.socket w) ∧
    Known p.token p.socket w) ?_ fun _ => ?_
  · refine (Triple.after (J := fun w => (Mid h [] χ w ∧
      ∀ q ∈ pending, Known q.1.token q.1.socket w) ∧ Known p.token p.socket w) fun w hw => ?_).mono
      (fun _ hw => hw) (fun _ _ hw => hw) fun _ w hw => hw.1.1.exit hφ
    obtain ⟨hsane, hedits⟩ := hcb ⟨level, p.socket, n⟩ w hw.1.polling hw.1.sane
    exact ⟨⟨hw.1.edits hsane hedits, fun q hq => (hw.1.known q hq).edits hedits⟩, hw.2.edits hedits⟩
  refine Triple.bind (Q := fun _ w => Mid h pending χ w ∧ Known p.token p.socket w) ?_ fun _ => ?_
  · rintro w ⟨⟨hm, hknown⟩, hk⟩
    have hcompared := hm.compared hknown
    refine ⟨hcompared, hk.of_eq rfl (latest_append fun e he => ?_)⟩
    obtain ⟨q, -, rfl⟩ := List.mem_map.mp he
    rfl
  · rintro w ⟨hm, hk⟩
    refine ⟨hk.logged rfl, hm.logged (proper_of_untouched ?_ rfl rfl nofun) rfl rfl
      (fun off hoff => ?_) fun _ => nofun⟩
    · cases level <;> rfl
    · refine (hout off).trans ?_
      show some _ = some (if w.active p.token then ψ else θ)
      obtain ⟨b, hb⟩ := hk.registered
      have hactive : w.active p.token = b := by rw [EventWorld.active, hb]; rfl
      have hlog := hm.sane.active p.token p.socket b hb
      rw [hactive]
      cases b with
      | true => rw [if_neg fun hmem => hlog.mp rfl ((hoff _).mp hmem), if_pos rfl]
      | false =>
        rw [if_pos ((hoff _).mpr (not_not.mp fun hmem => Bool.noConfusion (hlog.mpr hmem))),
          if_neg Bool.false_ne_true]

/-- The handler of the object is told of the event that is due. -/
theorem socketCallback (n : Notice) :
    Triple (fun w => Mid h pending (.due p.token n) w ∧ Ready p.token p.socket w)
      (EventLoop.callback cb pending p .socket n)
      (fun _ w => Known p.token p.socket w ∧
        Mid h pending (if w.active p.token then .owed p.token n else .idle) w)
      fun _ => Exit h :=
  callback hcb (χ := .socket p.token n) (fun _ => if_pos rfl) rfl fun off => by
    rw [Phase.next, if_pos rfl]

/-- A handler call that tells no event. -/
theorem freeCallback {level : CallbackLevel} {n : Notice} (hfree : level.free n = true) :
    Triple (fun w => Mid h pending .idle w ∧ Ready p.token p.socket w)
      (EventLoop.callback cb pending p level n) (fun _ => Mid h pending .idle)
      fun _ => Exit h := by
  refine (callback hcb (χ := .other) (ψ := .idle) (θ := .idle) ?_ rfl ?_).post fun _ w hw => ?_
  · cases level <;> simp [Phase.next, hfree]
  · cases level <;> simp [Phase.next]
  · simpa only [ite_self] using hw.2

theorem setCallback (n : Notice) :
    Triple (fun w => Known p.token p.socket w ∧
        Mid h pending (if w.active p.token then .owed p.token n else .idle) w)
      (setCallback cb pending p n) (fun _ => Mid h pending .idle) fun _ => Exit h := by
  refine Triple.bind (Q := fun active w => (Known p.token p.socket w ∧
    Mid h pending (if w.active p.token then .owed p.token n else .idle) w) ∧
    w.active p.token = active) (fun w hw => ⟨hw, rfl⟩) fun active => ?_
  refine .whenever (fun hactive => ?_) fun hactive w hw => ?_
  · have howed : Triple (fun w => Mid h pending (.owed p.token n) w ∧ Ready p.token p.socket w)
        (EventLoop.callback cb pending p .set n)
        (fun _ w => Known p.token p.socket w ∧
          Mid h pending (if w.active p.token then .idle else .idle) w) fun _ => Exit h :=
      callback hcb (χ := .other) (fun _ => if_pos (Or.inl rfl)) rfl fun off => by simp [Phase.next]
    refine howed.mono (fun w hw => ?_) (fun _ w hw => ?_) fun _ _ he => he
    · have hon := hw.2.trans hactive
      have hm := hw.1.2
      rw [if_pos hon] at hm
      exact ⟨hm, hw.1.1.ready hon⟩
    · simpa only [ite_self] using hw.2
  · have hm := hw.1.2
    rwa [hw.2, hactive, if_neg Bool.false_ne_true] at hm

theorem bothCallbacks (n : Notice) :
    Triple (fun w => Mid h pending (.due p.token n) w ∧ Held p w)
      (bothCallbacks cb pending p n) (fun _ => Mid h pending .idle) fun _ => Exit h :=
  ((socketCallback hcb n).pre fun _ hw => ⟨hw.1, hw.2.toReady⟩).bind fun _ => setCallback hcb n

/-- The close that the handlers are told of. -/
theorem closeDue :
    Triple (fun w => Mid h pending (.due p.token .close) w ∧ Held p w)
      (closeSocket h cb pending p)
      (fun _ w => Known p.token p.socket w ∧
        Mid h pending (if w.active p.token then .owed p.token .close else .idle) w)
      fun _ => Exit h := by
  refine actClose.bind fun closed => .whenever (fun _ => ?_) fun hclosed w hw => ?_
  · exact (socketCallback hcb .close).pre fun w hw => hw.1
  · refine ⟨hw.1.2.toKnown, hw.1.1.rename fun hclose => ?_⟩
    exact absurd (hclosed.symm.trans (hw.2 hclose)) Bool.false_ne_true

/-- The close after a terminal error. -/
theorem closeFree :
    Triple (fun w => Mid h pending .idle w ∧ Held p w) (closeSocket h cb pending p)
      (fun _ => Mid h pending .idle) fun _ => Exit h := by
  refine actClose.bind fun closed => .whenever (fun _ => ?_) fun _ w hw => hw.1.1
  exact (freeCallback hcb rfl).pre fun w hw => hw.1

theorem reportClose :
    Triple (fun w => Mid h pending .idle w ∧ Held p w) (reportClose h cb pending p)
      (fun _ => Mid h pending .idle) fun _ => Exit h :=
  (noteEvent .close).bind fun _ => (closeDue hcb).bind fun _ => setCallback hcb .close

theorem reportError (code : Int) :
    Triple (fun w => Mid h pending .idle w ∧ Held p w) (reportError cb pending p code)
      (fun _ => Mid h pending .idle) fun _ => Exit h := by
  refine (noteEvent _).bind fun _ => ?_
  exact (act .fail fun o => .fail code o).bind fun _ => bothCallbacks hcb _

theorem setAndReportError (code : Int) :
    Triple (fun w => Mid h pending .idle w ∧ Held p w) (setAndReportError cb pending p code)
      (fun _ => Mid h pending .idle) fun _ => Exit h :=
  (act .setError fun o => .setError code o).bind fun _ => reportError hcb code

theorem closeTerminal (hmem : (p, false) ∈ pending') (hsub : pending ⊆ pending') :
    Triple (Mid h pending' .idle) (closeTerminal h cb pending p) (fun _ => Mid h pending .idle)
      fun _ => Exit h := by
  refine (comparedAnd hmem fun o => .refl o).bind fun terminal => ?_
  refine .whenever (fun ht => ?_) fun _ w hw => hw.1.pend hsub
  exact (closeFree hcb).pre fun w hw => ⟨hw.1.pend hsub, hw.2 (by simp [ht])⟩

theorem failStep (ps : List Watch) :
    Triple (fun w => Mid h (later ps) .idle w ∧ Held p w) (failStep h cb ps p)
      (fun _ => Mid h (later ps) .idle) fun _ => Exit h := by
  have hsub : later ps ⊆ (p, true) :: later ps := List.subset_cons_self _ _
  refine (lookHeld fun o => .refl o).bind fun code => ?_
  refine Triple.bind (Q := fun _ => Mid h ((p, true) :: later ps) .idle) ?_ fun _ => ?_
  · exact (reportError hcb code).pre fun w hw => ⟨hw.1.hold hw.2 true, hw.2⟩
  refine Triple.bind (Q := fun active w => Mid h ((p, true) :: later ps) .idle w ∧
    w.active p.token = active) (fun w hw => ⟨hw, rfl⟩) fun active => ?_
  refine .ite (fun hactive => ?_) fun _ => .ret fun w hw => hw.1.pend hsub
  refine Triple.bind (Q := fun valid w => Mid h (later ps) .idle w ∧ (valid = true → Held p w)) ?_
    fun valid => ?_
  · refine (look (f := fun o => (o.base.isValidSocket, o)) fun o => .refl o).mono
      (fun w hw => ⟨hw.1, (hw.1.known _ List.mem_cons_self).ready (hw.2.trans hactive)⟩) ?_
      fun _ _ he => he
    rintro valid w ⟨⟨hm, hr⟩, o, ho, rfl⟩
    exact ⟨hm.pend hsub, fun hvalid => hm.held List.mem_cons_self hr ho hvalid (.inl rfl)⟩
  · refine .whenever (fun hvalid => ?_) fun _ w hw => hw.1
    exact (closeFree hcb).pre fun w hw => ⟨hw.1, hw.2 hvalid⟩

end Handlers

section Dispatch

variable (hcb : Edited cb) (ps : List Watch) (flags : Flags)

include hcb

theorem dispatchListener :
    Triple (fun w => Mid h (later ps) .idle w ∧ Held p w) (dispatchListener h cb ps p flags)
      (fun _ => Mid h (later ps) .idle) fun _ => Exit h := by
  refine .ite (fun _ => ?_) fun _ => .ite (fun _ => ?_) fun _ => .ret fun w hw => hw.1
  · refine Triple.bind ((freeCallback hcb rfl).pre fun w hw => ⟨hw.1, hw.2.toReady⟩) fun _ => ?_
    exact .ret fun _ hw => hw
  · refine (descriptorError flags).bind fun code => ?_
    exact (setAndReportError hcb code).bind fun _ => .ret fun _ hw => hw

theorem dispatchRead :
    Triple (fun w => Mid h ((p, false) :: later ps) .idle w ∧ Held p w)
      (dispatchRead h cb ((p, false) :: later ps) p flags)
      (fun _ => Mid h ((p, false) :: later ps) .idle) fun _ => Exit h := by
  refine (lookHeld fun o => .refl o).bind fun ready => .ite (fun _ => ?_) fun _ => ?_
  · refine (act .receive fun o => .pollReceive o).bind fun received => .ite (fun _ => ?_) fun _ => ?_
    · refine (noteEvent _).bind fun _ => Triple.bind (act .count fun o => .withBase rfl rfl) fun _ => ?_
      exact (bothCallbacks hcb _).bind fun _ => .ret fun _ hw => hw
    · refine .ite (fun _ => (reportClose hcb).bind fun _ => .ret fun _ hw => hw) fun _ => ?_
      refine .ite (fun _ => .ret fun w hw => hw.1) fun _ => ?_
      refine (lookHeld fun o => .refl o).bind fun code => (setAndReportError hcb code).bind fun _ => ?_
      refine (closeTerminal hcb List.mem_cons_self (List.Subset.refl _)).bind fun _ => ?_
      exact .ret fun _ hw => hw
  · refine .ite (fun _ => ?_) fun _ => .ret fun w hw => hw.1
    refine (descriptorError flags).bind fun code => ?_
    exact (setAndReportError hcb code).bind fun _ => .ret fun _ hw => hw

theorem dispatchQueue :
    Triple (Mid h ((p, false) :: later ps) .idle) (dispatchQueue h cb ps p flags)
      (fun _ => Mid h (later ps) .idle) fun _ => Exit h := by
  have hsub : later ps ⊆ (p, false) :: later ps := List.subset_cons_self _ _
  refine (comparedAnd List.mem_cons_self fun o => .refl o).bind fun ready => ?_
  refine .ite (fun _ => .ret fun w hw => hw.1.pend hsub) fun hready => ?_
  refine Triple.bind ((act .flush fun o => .flushQueued o).pre fun w hw => ⟨hw.1, hw.2 ?_⟩)
    fun flushed => ?_
  · simpa using hready
  refine .ite (fun _ => ?_) fun _ => .ite (fun _ => ?_) fun _ => .ret fun w hw => hw.1.pend hsub
  · refine (setAndReportError hcb _).bind fun _ => ?_
    exact (closeTerminal hcb List.mem_cons_self hsub).bind fun _ => .ret fun _ hw => hw
  · refine Triple.bind ((noteEvent _).pre fun w hw => ⟨hw.1.pend hsub, hw.2⟩) fun _ => ?_
    exact (bothCallbacks hcb _).bind fun _ => .ret fun _ hw => hw

/-- Nothing has happened to the socket, unless the connect handler was called. -/
theorem pollStep :
    Triple (fun w => Mid h (later ps) .idle w ∧ Held p w) (pollStep h cb ps p flags)
      (fun progress w => Mid h (later ps) .idle w ∧ Known p.token p.socket w ∧
        (progress ≠ 2 → Held p w)) fun _ => Exit h := by
  refine (act .step fun o => .pollStep flags o).bind fun progress => ?_
  refine Triple.bind (Q := fun _ w => Mid h (later ps) .idle w ∧ Known p.token p.socket w ∧
    (progress ≠ 2 → Held p w)) (.whenever (fun hdone => ?_) fun hpending w hw => ?_) fun _ => ?_
  · refine (callback hcb (χ := .other) (ψ := .idle) (θ := .idle) (fun _ => rfl) rfl ?_).mono
      (fun w hw => ⟨hw.1, hw.2.toReady⟩) (fun _ w hw => ?_) fun _ _ he => he
    · exact fun off => by simp [Phase.next]
    · refine ⟨by simpa only [ite_self] using hw.2, hw.1, fun hne => absurd ?_ hne⟩
      exact of_decide_eq_true hdone
  · exact ⟨hw.1, hw.2.toKnown, fun _ => hw.2⟩
  · exact .ret fun _ hw => hw

theorem dispatchStream :
    Triple (fun w => Mid h (later ps) .idle w ∧ Held p w) (dispatchStream h cb ps p flags)
      (fun _ => Mid h (later ps) .idle) fun _ => Exit h := by
  have hne {n : Int} (hn : ¬n = 2) {w : EventWorld} (hw : Mid h (later ps) .idle w ∧
      Known p.token p.socket w ∧ (n ≠ 2 → Held p w)) : Mid h (later ps) .idle w ∧ Held p w :=
    ⟨hw.1, hw.2.2 hn⟩
  refine (pollStep hcb ps flags).bind fun progress => .ite (fun hlt => ?_) fun _ => ?_
  · exact ((failStep hcb ps).pre fun w hw => hne (by omega) hw).bind fun _ => .ret fun _ hw => hw
  refine .ite (fun _ => .ret fun w hw => hw.1) fun _ => .ite (fun hend => ?_) fun _ => ?_
  · exact ((reportClose hcb).pre fun w hw => hne (by omega) hw).bind fun _ => .ret fun _ hw => hw
  refine .ite (fun _ => ?_) fun hready => ?_
  · refine Triple.bind ((currentAnd (x := false) fun o => .refl o).pre fun w hw =>
      ⟨hw.1, hw.2.1⟩) fun here => ?_
    refine Triple.bind (.whenever (fun hhere => ?_) fun _ w hw => hw.1) fun _ => .ret fun _ hw => hw
    exact (freeCallback hcb rfl).pre fun w hw => ⟨hw.1, (hw.2 (by simp [hhere])).1⟩
  · refine Triple.bind ((dispatchRead hcb ps flags).pre fun w hw => ?_) fun read => ?_
    · obtain ⟨hm, hh⟩ := hne hready hw
      exact ⟨hm.hold hh false, hh⟩
    · exact (dispatchQueue hcb ps flags).bind fun _ => .ret fun _ hw => hw

theorem dispatchTcp :
    Triple (Mid h ((p, false) :: later ps) .idle) (dispatchTcp h cb ps p flags)
      (fun _ => Mid h (later ps) .idle) fun _ => Exit h := by
  have hsub : later ps ⊆ (p, false) :: later ps := List.subset_cons_self _ _
  refine (current List.mem_cons_self).bind fun here => ?_
  refine .ite (fun _ => .ret fun w hw => hw.1.pend hsub) fun hhere => ?_
  refine Triple.bind ((lookHeld fun o => .refl o).pre fun w hw => ⟨hw.1.pend hsub, hw.2 ?_⟩)
    fun listening => ?_
  · simpa using hhere
  · exact .ite (fun _ => dispatchListener hcb ps flags) fun _ => dispatchStream hcb ps flags

theorem dispatchUdp :
    Triple (Mid h ((p, false) :: later ps) .idle) (dispatchUdp h cb ps p flags)
      (fun _ => Mid h (later ps) .idle) fun _ => Exit h := by
  have hsub : later ps ⊆ (p, false) :: later ps := List.subset_cons_self _ _
  have herror (code : Int) : Triple (fun w => Mid h (later ps) .idle w ∧ Held p w) (do
      EventLoop.setAndReportError cb (later ps) p code
      return 1) (fun _ => Mid h (later ps) .idle) fun _ => Exit h :=
    (setAndReportError hcb code).bind fun _ => .ret fun _ hw => hw
  refine (current List.mem_cons_self).bind fun here => ?_
  refine .ite (fun _ => .ret fun w hw => hw.1.pend hsub) fun hhere => ?_
  have hheld {w : EventWorld} (hw : Mid h ((p, false) :: later ps) .idle w ∧ (here = true → Held p w)) :
      Mid h (later ps) .idle w ∧ Held p w := ⟨hw.1.pend hsub, hw.2 (by simpa using hhere)⟩
  refine .ite (fun _ => ?_) fun _ => .ite (fun _ => ?_) fun _ => .ret fun w hw => (hheld hw).1
  · refine Triple.bind (recvfrom.pre fun w hw => hheld hw) fun received => ?_
    refine .ite (fun _ => ?_) fun _ => .ite (fun _ => .ret fun w hw => hw.1) fun _ => herror _
    refine (noteEvent _).bind fun _ => (act .count fun o => .datagramFrom _ _ o).bind fun _ => ?_
    exact (bothCallbacks hcb _).bind fun _ => .ret fun _ hw => hw
  · exact Triple.bind ((descriptorError flags).pre fun w hw => hheld hw) fun code => herror code

theorem dispatch :
    Triple (Mid h ((p, false) :: later ps) .idle) (dispatch h cb ps p flags)
      (fun _ => Mid h (later ps) .idle) fun _ => Exit h := by
  have hsub : later ps ⊆ (p, false) :: later ps := List.subset_cons_self _ _
  refine Triple.bind (Q := fun _ => Mid h ((p, false) :: later ps) .idle) ?_ fun due => ?_
  · refine .ite (fun _ => .ret fun _ hw => hw) fun _ => ?_
    refine Triple.bind (Q := fun active w => Mid h ((p, false) :: later ps) .idle w ∧
      w.active p.token = active) (fun w hw => ⟨hw, rfl⟩) fun active => ?_
    refine .ite (fun _ => .ret fun w hw => hw.1) fun hactive => ?_
    refine Triple.bind ((look fun o => .pollTimeoutMs o).pre fun w hw => ⟨hw.1, ?_⟩) fun _ =>
      .ret fun w hw => hw.1.1
    refine (hw.1.known _ List.mem_cons_self).ready (hw.2.trans ?_)
    simp only [Bool.or_eq_true, Bool.not_eq_true', not_or, Bool.not_eq_false] at hactive
    exact hactive.2
  · refine .ite (fun _ => .ret fun w hw => hw.pend hsub) fun _ => ?_
    exact .ite (fun _ => dispatchUdp hcb ps flags) fun _ => dispatchTcp hcb ps flags

omit ps flags in
theorem dispatchAll (watched : List (Watch × Flags)) :
    Triple (Mid h (later (watched.map (·.1))) .idle) (dispatchAll h cb watched)
      (fun _ => Mid h [] .idle) fun _ => Exit h := by
  induction watched with
  | nil => exact .ret fun _ hw => hw
  | cons p rest ih =>
    refine (dispatch hcb (rest.map (·.1)) p.2).bind fun handled => ?_
    exact ih.bind fun others => .ret fun _ hw => hw

end Dispatch

section Waiting

variable {ps : List Watch} {E : Halt → EventWorld → Prop}

theorem mem_later (hp : p ∈ ps) : (p, false) ∈ later ps := List.mem_map.mpr ⟨p, hp, rfl⟩

theorem ask {none : α} {f : NetHost → EventObject → α × EventObject}
    (hf : ∀ e o, EventObject.Calm o (f e o).2) (hp : p ∈ ps) :
    Triple (Mid h (later ps) φ) (ask h none f p) (fun _ => Mid h (later ps) φ) E := by
  refine .ite (fun _ => .ret fun _ hw => hw) fun _ => ?_
  exact (comparedAnd (mem_later hp) fun o => hf _ o).post fun _ _ hw => hw.1

theorem askAny {f : NetHost → EventObject → Bool × EventObject}
    (hf : ∀ e o, EventObject.Calm o (f e o).2) {qs : List Watch} (hqs : qs ⊆ ps) :
    Triple (Mid h (later ps) φ) (askAny h f qs) (fun _ => Mid h (later ps) φ) E := by
  induction qs with
  | nil => exact .ret fun _ hw => hw
  | cons q qs ih =>
    obtain ⟨hq, hrest⟩ := List.cons_subset.mp hqs
    exact (ask hf hq).bind fun _ => (ih hrest).bind fun _ => .ret fun _ hw => hw

theorem effectiveTimeout (timeoutMs : Int) {qs : List Watch} (hqs : qs ⊆ ps) :
    Triple (Mid h (later ps) φ) (effectiveTimeout h qs timeoutMs) (fun _ => Mid h (later ps) φ) E := by
  induction qs generalizing timeoutMs with
  | nil => exact .ret fun _ hw => hw
  | cons q qs ih =>
    obtain ⟨hq, hrest⟩ := List.cons_subset.mp hqs
    exact (ask (fun _ o => .pollTimeoutMs o) hq).bind fun _ => ih _ hrest

theorem pollReadable (timeoutMs : Int) (fuel : ℕ) :
    Triple (Mid h (later ps) .idle) (pollReadable h ps timeoutMs fuel)
      (fun _ => Mid h (later ps) .idle) fun _ => Exit h := by
  refine Triple.mono (.after fun w hw => ?_) (fun _ hw => hw) (fun _ _ hw => hw)
    fun _ w (hw : Mid h (later ps) .idle w) => hw.exit rfl
  obtain ⟨tick, ht⟩ := pollReadable_ticks h ps timeoutMs fuel w
  rw [ht]
  exact hw.aside rfl rfl rfl rfl rfl rfl

theorem waitReady (buffered : Bool) (timeoutMs : Int) (fuel : ℕ) :
    Triple (Mid h (later ps) .idle) (waitReady h ps buffered timeoutMs fuel)
      (fun _ => Mid h (later ps) .idle) fun _ => Exit h := by
  induction fuel with
  | zero => exact fun _ hw => hw.exit rfl
  | succ fuel ih =>
    refine (effectiveTimeout timeoutMs (List.Subset.refl ps)).bind fun effective => ?_
    refine (pollReadable _ _).bind fun ready => ?_
    refine .ite (fun _ => .ret fun _ hw => hw) fun _ => ?_
    refine (askAny (fun _ o => .pollTimeoutMs o) (List.Subset.refl ps)).bind fun expired => ?_
    exact .ite (fun _ => .ret fun _ hw => hw) fun _ => ih

theorem markBuffered {watched : List (Watch × Flags)} (hsub : watched.map (·.1) ⊆ ps) :
    Triple (Mid h (later ps) φ) (markBuffered h watched)
      (fun marked w => Mid h (later ps) φ w ∧ marked.map (·.1) = watched.map (·.1)) E := by
  induction watched with
  | nil => exact .ret fun _ hw => ⟨hw, rfl⟩
  | cons q rest ih =>
    obtain ⟨hq, hrest⟩ := List.cons_subset.mp hsub
    refine (ask (fun _ o => .pollHasBufferedInput o) hq).bind fun more => ?_
    exact (ih hrest).bind fun others => .ret fun w hw => ⟨hw.1, congr_arg (q.1 :: ·) hw.2⟩

theorem readiness (buffered : Bool) (reported : List Flags) :
    Triple (Mid h (later ps) φ) (readiness h ps buffered reported)
      (fun watched => Mid h (later (watched.map (·.1))) φ) E := by
  have hsame : (ps.zipIdx.map fun p => (p.1, reported.getD p.2 {})).map (·.1) = ps := by
    rw [List.map_map]
    exact List.zipIdx_map_fst 0 ps
  refine .ite (fun _ => ?_) fun _ => .ret fun w hw => hsame.symm ▸ hw
  refine (markBuffered fun _ hq => hsame ▸ hq).post fun watched w hw => ?_
  rw [hw.2, hsame]
  exact hw.1

/-- The tokens of the snapshot that are still to be watched. -/
def Listed (ts : List ℕ) (w : EventWorld) : Prop :=
  ∃ all, latest PollEvent.snapshot w.log = some all ∧ ts ⊆ all

theorem watchAll (udp : Bool) (ts us : List ℕ) :
    Triple (fun w => Mid h pending .idle w ∧ Listed (ts ++ us) w) (watchAll udp ts)
      (fun ps w => Mid h (later ps ++ pending) .idle w ∧ Listed us w) E := by
  induction ts generalizing pending with
  | nil => exact .ret fun _ hw => hw
  | cons t ts ih =>
    have hrest {w : EventWorld} (hw : Mid h pending .idle w ∧ Listed (t :: ts ++ us) w) :
        Mid h pending .idle w ∧ Listed (ts ++ us) w := by
      obtain ⟨hm, all, hall, hsub⟩ := hw
      exact ⟨hm, all, hall, (List.cons_subset.mp hsub).2⟩
    refine Triple.bind (Q := fun active w => (Mid h pending .idle w ∧ Listed (t :: ts ++ us) w) ∧
      w.active t = active) (fun w hw => ⟨hw, rfl⟩) fun active => ?_
    refine .ite (fun _ => ih.pre fun w hw => hrest hw.1) fun hactive => ?_
    refine Triple.bind (Q := fun id w => (Mid h pending .idle w ∧ Listed (t :: ts ++ us) w) ∧
      Ready t id w) (fun w hw => ?_) fun id => ?_
    · obtain ⟨hw, hon⟩ := hw
      refine ⟨hw, { registered := ?_, snapshot := ?_, active := hon.trans (by simpa using hactive) }⟩
      · cases hreg : w.registrations[t]? with
        | none =>
          rw [EventWorld.active, hreg] at hon
          simp [← hon] at hactive
        | some r =>
          refine ⟨r.active, ?_⟩
          show some r = some ⟨w.registrations[t]?.elim 0 (·.socket), r.active⟩
          rw [hreg]
          rfl
      · obtain ⟨-, all, hall, hsub⟩ := hw
        exact ⟨all, hall, hsub List.mem_cons_self⟩
    refine Triple.bind (Q := fun seen w => (Mid h pending .idle w ∧ Listed (t :: ts ++ us) w) ∧
      ∀ fd, seen.1 = some fd → Held ⟨t, id, udp, fd, !udp && seen.2.1, seen.2.2⟩ w) ?_ fun seen => ?_
    · rintro w ⟨⟨hm, all, hall, hsub⟩, hr⟩
      obtain ⟨o, ho⟩ := hr.find hm.sane
      rw [EventWorld.look, EventWorld.use, ho]
      have hready := (hr.store o (i := id)).logged (e := .looked t) rfl
      have hlooked : Unreplaced w.log → Direct w.log (.looked t) := by
        intro _ _ _ _ _ hdid
        cases hdid
      refine ⟨⟨hm.used hr ho (EventObject.Calm.refl o).mild rfl (fun _ => rfl) hlooked,
        all, ?_, hsub⟩, fun fd hfd => ?_⟩
      · exact (latest_append fun _ he => List.mem_singleton.mp he ▸ rfl).trans hall
      · refine { hready with object := ⟨o, find_store_same ho, ?_, fun _ => rfl⟩ }
        rw [Socket.isValidSocket, show o.base.sockfd = some fd from hfd]
        rfl
    · obtain ⟨_ | fd, wants, connection⟩ := seen
      · exact ih.pre fun w hw => hrest hw.1
      · obtain ⟨p, hp⟩ : ∃ p : Watch, p = ⟨t, id, udp, fd, !udp && wants, connection⟩ := ⟨_, rfl⟩
        refine Triple.bind (Q := fun ps w => Mid h (later ps ++ (p, false) :: pending) .idle w ∧
          Listed us w) (ih.pre fun w hw => ?_) fun ps => .ret fun w hw => ⟨hw.1.pend ?_, hw.2⟩
        · have hheld := hw.2 fd rfl
          obtain ⟨hm, hlisted⟩ := hrest hw.1
          exact ⟨hm.hold (hp ▸ hheld) false, hlisted⟩
        · rw [← hp]
          exact List.perm_middle.symm.subset

end Waiting

end Mid

/-- Between two operations of a program, when no `poll` is in progress. -/
structure Rested (h : LoopHost) (w : EventWorld) : Prop where
  sane : Sane w
  polling : w.polling = false
  phase : h.ClosesSucceed → ∃ off, track w.log = some ⟨.idle, off⟩
  direct : Unreplaced w.log → Always Direct w.log

section Poll

variable {h : LoopHost} {cb : EventNote → Code EventWorld Unit}

theorem Mid.pollOwned (hcb : Edited cb) (fuel : ℕ) (timeoutMs : Int) :
    Triple (Mid h [] .idle) (pollOwned h cb fuel timeoutMs) (fun _ => Exit h) fun _ => Exit h := by
  refine Triple.bind (Q := fun tokens w => Mid h [] .idle w ∧ tokens = (w.sockets, w.udpSockets))
    (fun w hw => ⟨hw, rfl⟩) fun tokens => ?_
  refine Triple.bind (Q := fun _ w => Mid h [] .idle w ∧ Listed (tokens.1 ++ tokens.2) w) ?_
    fun _ => ?_
  · rintro w ⟨hm, rfl⟩
    refine ⟨?_, _, (latest_snoc _ _ _).trans rfl, List.Subset.refl _⟩
    exact {
      sane := hm.sane.snapshot
      polling := hm.polling
      phase := fun hclose => track_next (hm.phase hclose) fun _ _ => rfl
      known := by simp
      direct := fun hun => (hm.direct hun.of_append).snoc nofun
      kept := by simp }
  refine Triple.bind (Mid.watchAll false _ _) fun streams => ?_
  refine Triple.bind (Q := fun datagrams w => Mid h (later (streams ++ datagrams)) .idle w) ?_
    fun datagrams => ?_
  · refine Triple.mono (Mid.watchAll true tokens.2 []) (fun w hw => ⟨hw.1, ?_⟩) (fun ps w hw => ?_)
      fun _ _ he => he
    · rw [List.append_nil]
      exact hw.2
    · refine hw.1.pend ?_
      rw [List.append_nil, later, List.map_append]
      exact List.perm_append_comm.subset
  refine (Mid.askAny (fun _ o => .pollHasBufferedInput o) (List.Subset.refl _)).bind fun buffered => ?_
  refine (Mid.waitReady _ _ _).bind fun ready => .ite (fun _ => .ret fun w hw => hw.exit rfl) fun _ => ?_
  refine (Mid.readiness _ _).bind fun watched => .ite (fun _ => .ret fun w hw => hw.exit rfl) fun _ => ?_
  exact (Mid.dispatchAll hcb watched).bind fun _ => .ret fun w hw => hw.exit rfl

namespace Rested

theorem of_exit {w : EventWorld} (hw : Exit h w) :
    Rested h { w with polling := false, log := w.log ++ [.finished] } := by
  obtain ⟨φ, hφ, hm⟩ := hw
  have hdone : Mid h [] .idle (w.logged .finished) := by
    refine hm.logged (proper_of_untouched rfl rfl rfl nofun) rfl rfl (fun off _ => ?_) fun _ => nofun
    cases φ <;> first | rfl | cases hφ
  exact ⟨hdone.sane.of_eq rfl rfl rfl rfl rfl, rfl, hdone.phase, hdone.direct⟩

theorem poll (hcb : Edited cb) (fuel : ℕ) (timeoutMs : Int) :
    Keeps (Rested h) (poll h cb fuel timeoutMs) := by
  refine .ite (fun _ => .pure _) fun _ w hw => ?_
  rw [Code.bind_run, Code.update_run, hw.polling]
  have hstart : Mid h [] .idle { w with polling := true } :=
    ⟨hw.sane.of_eq rfl rfl rfl rfl rfl, rfl, hw.phase, by simp, hw.direct, by simp⟩
  have hend := Mid.pollOwned hcb fuel timeoutMs _ hstart
  let finish (w : EventWorld) : EventWorld :=
    { w with polling := false, log := w.log ++ [.finished] }
  show Rested h (finish (EventLoop.pollOwned h cb fuel timeoutMs { w with polling := true }).2)
  revert hend
  rcases EventLoop.pollOwned h cb fuel timeoutMs { w with polling := true } with ⟨_ | _, w'⟩
  · exact of_exit
  · exact of_exit

/-- Handlers outside a `poll` edit the registry as well. -/
theorem edits {w w' : EventWorld} (hedits : Edits w w') (hs : Sane w') (hw : Rested h w) :
    Rested h w' := by
  obtain ⟨es, hlog, hes⟩ := hedits.log
  refine ⟨hs, hedits.polling.trans hw.polling, fun hclose => ?_, fun hun => ?_⟩
  · rw [hlog]
    exact track_registry (hw.phase hclose) hes
  · rw [hlog] at hun ⊢
    refine (hw.direct hun.of_append).append fun e he pre t a watched current hdid => ?_
    have hreg := hes e he
    rw [hdid] at hreg
    cases hreg

end Rested

end Poll

end Aeon
