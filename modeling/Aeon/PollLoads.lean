import Aeon.PollThread

/-!
# The loads of the registration tokens

Between two loads of one token another thread may take the registration away.
Every use but one of `poll` loads a token once and tests the pointer it got.
-/

namespace Aeon

open Threads

namespace PollCode

variable {S α β : Type} {m : PollCode S α} {f : α → PollCode S β}

/-- The next step is a member call through a null pointer. -/
def nullNext : PollCode S α → Bool
  | member none _ => true
  | _ => false

/-- The token that is loaded next, where a null pointer is then called through. -/
def exposed : PollCode S α → Option SetToken
  | load t k => if (k none).nullNext then some t else none
  | _ => none

/-- A load whose null result is called through only follows a load of the same token
that gave a pointer, and no other member call goes through a null pointer. -/
def Careful : PollCode S α → Prop
  | done _ => True
  | waiting => True
  | atomic _ k => ∀ w, Careful (k w) ∧ (k w).exposed = none
  | load t k =>
    (∀ s, Careful (k (some s)) ∧ ∀ t', (k (some s)).exposed = some t' → t' = t) ∧
      ((k none).nullNext = true ∨ Careful (k none) ∧ (k none).exposed = none)
  | member s k => s ≠ none ∧ ∀ n, Careful (k n) ∧ (k n).exposed = none

/-- Code that any steps of the same thread may come before. -/
structure Plain (m : PollCode S α) : Prop where
  careful : Careful m
  covered : m.exposed = none

theorem Careful.nullNext (h : Careful m) : m.nullNext = false := by
  cases m with
  | member s k =>
    cases s with
    | none => exact absurd rfl h.1
    | some s => rfl
  | _ => rfl

namespace Plain

theorem done (a : α) : Plain (done a : PollCode S α) := ⟨trivial, rfl⟩

theorem waiting : Plain (waiting : PollCode S α) := ⟨trivial, rfl⟩

theorem atomic {g : SetState S → SetState S} {k : SetState S → PollCode S α}
    (h : ∀ w, Plain (k w)) : Plain (.atomic g k) := ⟨fun w => ⟨(h w).careful, (h w).covered⟩, rfl⟩

theorem member {s : Option S} {k : ℕ → PollCode S α} (hs : s ≠ none) (h : ∀ n, Plain (k n)) :
    Plain (.member s k) := ⟨⟨hs, fun n => ⟨(h n).careful, (h n).covered⟩⟩, rfl⟩

theorem load {t : SetToken} {k : Option S → PollCode S α} (h : ∀ s, Plain (k s)) :
    Plain (.load t k) := by
  refine ⟨⟨fun s => ⟨(h _).careful, fun t' ht => ?_⟩, .inr ⟨(h _).careful, (h _).covered⟩⟩, ?_⟩
  · rw [(h _).covered] at ht
    cases ht
  · rw [exposed, (h none).careful.nullNext]
    rfl

end Plain

/-- What comes after careful code decides nothing about its next step. -/
theorem nullNext_bind (hm : m.nullNext = true) : (m.bind f).nullNext = true := by
  cases m with
  | member s k =>
    cases s with
    | none => rfl
    | some s => cases hm
  | _ => cases hm

theorem Careful.bind (hf : ∀ a, Plain (f a)) (hm : Careful m) :
    Careful (m.bind f) ∧ (m.bind f).exposed = m.exposed := by
  induction m with
  | done a => exact ⟨(hf a).careful, (hf a).covered⟩
  | waiting => exact ⟨trivial, rfl⟩
  | atomic g k ih =>
    refine ⟨fun w => ?_, rfl⟩
    obtain ⟨hc, he⟩ := ih w (hm w).1
    exact ⟨hc, he.trans (hm w).2⟩
  | member s k ih =>
    refine ⟨⟨hm.1, fun n => ?_⟩, rfl⟩
    obtain ⟨hc, he⟩ := ih n (hm.2 n).1
    exact ⟨hc, he.trans (hm.2 n).2⟩
  | load t k ih =>
    have hsome : ∀ s, Careful ((k (some s)).bind f) ∧
        ∀ t', ((k (some s)).bind f).exposed = some t' → t' = t := by
      intro s
      obtain ⟨hc, he⟩ := ih (some s) (hm.1 s).1
      exact ⟨hc, fun t' ht => (hm.1 s).2 t' (he ▸ ht)⟩
    rcases hm.2 with hnull | ⟨hnone, hcovered⟩
    · have hnull' := nullNext_bind (f := f) hnull
      exact ⟨⟨hsome, .inl hnull'⟩, by simp only [PollCode.bind, exposed, hnull, hnull']⟩
    · obtain ⟨hc, he⟩ := ih none hnone
      refine ⟨⟨hsome, .inr ⟨hc, he.trans hcovered⟩⟩, ?_⟩
      simp only [PollCode.bind, exposed, hnone.nullNext, hc.nullNext]

namespace Plain

theorem bind (hm : Plain m) (hf : ∀ a, Plain (f a)) : Plain (m >>= f) :=
  ⟨(hm.careful.bind hf).1, (hm.careful.bind hf).2.trans hm.covered⟩

theorem ite {c : Prop} [Decidable c] {m' : PollCode S α} (ht : c → Plain m) (hf : ¬c → Plain m') :
    Plain (if c then m else m') := by
  split
  · exact ht ‹c›
  · exact hf ‹¬c›

theorem whenever {c : Bool} {m : PollCode S Unit} (hm : Plain m) : Plain (whenever c m) :=
  .ite (fun _ => hm) fun _ => .done ()

theorem native (f : ℕ → α) : Plain (native f : PollCode S α) := .atomic fun _ => .done _

theorem locked (f : SetState S → α × SetState S) : Plain (locked f) := .atomic fun _ => .done _

theorem getIfActive (t : SetToken) : Plain (getIfActive t : PollCode S (Option S)) :=
  .load fun _ => .done _

/-- A member call through a pointer that is not null. -/
theorem ask (s : S) (f : ℕ → α) : Plain (ask (some s) f) := .member nofun fun _ => .done _

theorem touch (s : S) : Plain (touch (some s)) := .ask s _

variable [DecidableEq S]

theorem edit (o : SetOp S S) : Plain (edit o) := by
  refine (Plain.locked _).bind fun k => ?_
  split
  · exact .done _
  · refine (Plain.locked _).bind fun k' => ?_
    split
    · exact .done _
    · exact .waiting

theorem edits (os : List (SetOp S S)) : Plain (edits os) := by
  induction os with
  | nil => exact .done ()
  | cons o os ih => exact (Plain.edit o).bind fun _ => ih

end Plain

end PollCode

namespace PollThread

open PollCode

variable {S : Type} {h : PollAnswers S} {p : PendingWatch} {s : S} {flags : Flags}

theorem plain_isCurrent (s : Option S) : Plain (isCurrent h p s) := by
  cases s with
  | none => exact .done false
  | some s => exact (Plain.ask s _).bind fun _ => .ite (fun _ => .done _) fun _ =>
      (Plain.ask s _).bind fun _ => .done _

theorem plain_descriptorError : Plain (descriptorError h flags : PollCode S Int) :=
  .ite (fun _ => .done _) fun _ => .native _

/-- The second load of the entry of the dispatch is exposed, after a first one of the
same token. -/
theorem plain_deadlineDue : Plain (deadlineDue h p) := by
  refine .ite (fun _ => .done _) fun _ => ⟨⟨fun s => ⟨?_, ?_⟩, .inr ⟨trivial, rfl⟩⟩, rfl⟩
  · exact ⟨fun s' => ⟨((Plain.ask s' _).bind fun _ => .done _).careful, nofun⟩, .inl rfl⟩
  · rintro t ht
    exact (Option.some.inj ht).symm

theorem plain_stillCurrent : Plain (stillCurrent h p (some s)) :=
  (Plain.getIfActive _).bind fun _ => .ite (fun _ => .done _) fun _ => plain_isCurrent _

theorem plain_isDue : Plain (isDue h p flags) := .ite (fun _ => .done true) fun _ => plain_deadlineDue

theorem plain_wantsWrite {t : SetToken} : Plain (wantsWrite h t (some s)) :=
  .ite (fun _ => .done false) fun _ => .ask s _

theorem plain_watchAll (ts : List SetToken) : Plain (watchAll h ts) := by
  induction ts with
  | nil => exact .done []
  | cons t ts ih =>
    refine (Plain.getIfActive t).bind fun s => ?_
    cases s with
    | none => exact ih
    | some s =>
      refine (Plain.ask s _).bind fun _ => .ite (fun _ => ih) fun _ => (Plain.ask s _).bind fun _ => ?_
      exact plain_wantsWrite.bind fun _ => ih.bind fun _ => .done _

theorem plain_askCurrent {α : Type} {default : α} {f : ℕ → α} : Plain (askCurrent h default f p) := by
  refine .ite (fun _ => .done _) fun _ => (Plain.getIfActive _).bind fun s => ?_
  cases s with
  | none => exact .done default
  | some s => exact (plain_isCurrent _).bind fun _ => .ite (fun _ => .ask s _) fun _ => .done _

theorem plain_askAny (f : ℕ → Bool) (ps : List PendingWatch) : Plain (askAny h f ps) := by
  induction ps with
  | nil => exact .done false
  | cons p ps ih => exact plain_askCurrent.bind fun _ => ih.bind fun _ => .done _

theorem plain_effectiveTimeout (ps : List PendingWatch) (timeoutMs : Int) :
    Plain (effectiveTimeout h ps timeoutMs) := by
  induction ps generalizing timeoutMs with
  | nil => exact .done timeoutMs
  | cons p ps ih => exact plain_askCurrent.bind fun _ => ih _

theorem plain_waitReady (ps : List PendingWatch) (buffered : Bool) (timeoutMs : Int) (fuel : ℕ) :
    Plain (waitReady h ps buffered timeoutMs fuel) := by
  induction fuel with
  | zero => exact .waiting
  | succ fuel ih =>
    refine (plain_effectiveTimeout ps timeoutMs).bind fun _ => ?_
    refine Plain.bind (.ite (fun _ => .done _) fun _ => .native _) fun _ => .ite (fun _ => .done _) fun _ => ?_
    exact (plain_askAny _ ps).bind fun _ => .ite (fun _ => .done _) fun _ => ih

theorem plain_markBuffered (ps : List (PendingWatch × Flags)) : Plain (markBuffered h ps) := by
  induction ps with
  | nil => exact .done []
  | cons p rest ih => exact plain_askCurrent.bind fun _ => ih.bind fun _ => .done _

theorem plain_readiness {ps : List PendingWatch} {buffered : Bool} {reported : List Flags} :
    Plain (readiness h ps buffered reported) := .ite (fun _ => plain_markBuffered _) fun _ => .done _

section Handlers

variable [DecidableEq S]

theorem plain_callback : Plain (callback h) := (Plain.native _).bind fun os => .edits os

theorem plain_setCallback : Plain (setCallback h p) :=
  (Plain.getIfActive _).bind fun _ => .whenever plain_callback

theorem plain_bothCallbacks : Plain (bothCallbacks h p (some s)) :=
  (Plain.touch s).bind fun _ => plain_callback.bind fun _ => plain_setCallback

theorem plain_closeSocket : Plain (closeSocket h (some s)) :=
  (Plain.ask s _).bind fun _ => .whenever plain_callback

theorem plain_reportClose : Plain (reportClose h p (some s)) :=
  plain_closeSocket.bind fun _ => plain_setCallback

theorem plain_reportError : Plain (reportError h p (some s)) :=
  (Plain.touch s).bind fun _ => plain_bothCallbacks

theorem plain_dispatchListener : Plain (dispatchListener h p (some s) flags) := by
  refine .ite (fun _ => plain_callback.bind fun _ => .done _) fun _ => .ite (fun _ => ?_) fun _ => .done _
  exact plain_descriptorError.bind fun _ => plain_reportError.bind fun _ => .done _

theorem plain_failStep : Plain (failStep h p (some s)) := by
  refine (Plain.ask s _).bind fun _ => plain_bothCallbacks.bind fun _ => (Plain.getIfActive _).bind fun _ => ?_
  exact .ite (fun _ => .done _) fun _ => (Plain.ask s _).bind fun _ => .whenever plain_closeSocket

theorem plain_closeTerminal : Plain (closeTerminal h p (some s)) := by
  refine plain_stillCurrent.bind fun _ => .ite (fun _ => .done _) fun _ => ?_
  exact (Plain.ask s _).bind fun _ => .whenever plain_closeSocket

theorem plain_dispatchRead : Plain (dispatchRead h p (some s) flags) := by
  refine (Plain.ask s _).bind fun ready => .ite (fun _ => ?_) fun _ => .ite (fun _ => ?_) fun _ => .done _
  · refine (Plain.ask s _).bind fun received => .ite (fun _ => ?_) fun _ => .ite (fun _ => ?_) fun _ => ?_
    · exact (Plain.touch s).bind fun _ => plain_bothCallbacks.bind fun _ => .done _
    · exact plain_reportClose.bind fun _ => .done _
    · refine .ite (fun _ => .done _) fun _ => (Plain.ask s _).bind fun _ => (Plain.ask s _).bind fun _ => ?_
      exact plain_reportError.bind fun _ => plain_closeTerminal.bind fun _ => .done _
  · exact plain_descriptorError.bind fun _ => plain_reportError.bind fun _ => .done _

theorem plain_dispatchQueue : Plain (dispatchQueue h p (some s)) := by
  refine plain_stillCurrent.bind fun _ => .ite (fun _ => .done _) fun _ => (Plain.ask s _).bind fun _ => ?_
  refine .ite (fun _ => .done _) fun _ => (Plain.ask s _).bind fun flushed => .ite (fun _ => ?_) fun _ => ?_
  · exact plain_reportError.bind fun _ => plain_closeTerminal.bind fun _ => .done _
  · exact .ite (fun _ => plain_bothCallbacks.bind fun _ => .done _) fun _ => .done _

theorem plain_dispatchStream : Plain (dispatchStream h p (some s) flags) := by
  refine (Plain.ask s _).bind fun progress => (Plain.whenever plain_callback).bind fun _ => ?_
  refine .ite (fun _ => plain_failStep.bind fun _ => .done _) fun _ => .ite (fun _ => .done _) fun _ => ?_
  refine .ite (fun _ => plain_reportClose.bind fun _ => .done _) fun _ => .ite (fun _ => ?_) fun _ => ?_
  · exact plain_stillCurrent.bind fun _ => (Plain.whenever plain_callback).bind fun _ => .done _
  · exact plain_dispatchRead.bind fun _ => plain_dispatchQueue.bind fun _ => .done _

/-- One load, of which every use in the rest of the dispatch is behind its test. -/
theorem plain_dispatchTcp : Plain (dispatchTcp h p flags) := by
  refine (Plain.getIfActive _).bind fun s => ?_
  cases s with
  | none => exact .done 0
  | some s =>
    refine (plain_isCurrent _).bind fun _ => .ite (fun _ => .done _) fun _ => (Plain.ask s _).bind fun _ => ?_
    exact .ite (fun _ => plain_dispatchListener) fun _ => plain_dispatchStream

theorem plain_dispatchUdp : Plain (dispatchUdp h p flags) := by
  refine (Plain.getIfActive _).bind fun s => ?_
  cases s with
  | none => exact .done 0
  | some s =>
    refine (plain_isCurrent _).bind fun _ => .ite (fun _ => .done _) fun _ => .ite (fun _ => ?_) fun _ => ?_
    · refine (Plain.native _).bind fun received => .ite (fun _ => ?_) fun _ => ?_
      · exact (Plain.touch s).bind fun _ => plain_bothCallbacks.bind fun _ => .done _
      · exact .ite (fun _ => .done _) fun _ => plain_reportError.bind fun _ => .done _
    · refine .ite (fun _ => ?_) fun _ => .done _
      exact plain_descriptorError.bind fun _ => plain_reportError.bind fun _ => .done _

theorem plain_dispatch : Plain (dispatch h p flags) := by
  refine plain_isDue.bind fun _ => .ite (fun _ => .done _) fun _ => ?_
  exact .ite (fun _ => plain_dispatchUdp) fun _ => plain_dispatchTcp

theorem plain_dispatchAll (ps : List (PendingWatch × Flags)) : Plain (dispatchAll h ps) := by
  induction ps with
  | nil => exact .done 0
  | cons p rest ih => exact plain_dispatch.bind fun _ => ih.bind fun _ => .done _

theorem plain_pollOwned (fuel : ℕ) (timeoutMs : Int) : Plain (pollOwned h fuel timeoutMs) := by
  refine (Plain.locked _).bind fun tcp => (Plain.locked _).bind fun udp => ?_
  refine (plain_watchAll tcp).bind fun _ => (plain_watchAll udp).bind fun _ => ?_
  refine (plain_askAny _ _).bind fun buffered => (plain_waitReady _ _ _ _).bind fun ready => ?_
  refine .ite (fun _ => .done _) fun _ => ?_
  refine plain_readiness.bind fun _ => .ite (fun _ => .done _) fun _ => ?_
  exact (plain_dispatchAll _).bind fun _ => .done _

theorem plain_poll (fuel : ℕ) (timeoutMs : Int) : Plain (poll h fuel timeoutMs) := by
  refine .ite (fun _ => .done _) fun _ => (Plain.locked _).bind fun _ => .ite (fun _ => .done _) fun _ => ?_
  exact (plain_pollOwned fuel timeoutMs).bind fun _ => (Plain.locked _).bind fun _ => .done _

theorem plain_start (o : PollOp S) : Plain ((object h).start o) := by
  cases o with
  | poll fuel timeoutMs => exact (plain_poll fuel timeoutMs).bind fun _ => .done _
  | edit o => exact (Plain.edit o).bind fun _ => .done _

end Handlers

section Runs

variable [DecidableEq S] {ι : Type}

/-- No step takes a registration away between two loads of its token of which the
second one is called through untested. -/
def Undisturbed (c : Config (PollShared S) (PollCode S PollReply) ι) (i : ι) : Prop :=
  ∀ j m t k, c.calls j = some m → m.exposed = some t → c.calls i = some k →
    (c.shared.state.getIfActive t).isSome = true →
    ((k.step c.shared).2.state.getIfActive t).isSome = true

/-- Where a thread stands: a load of it that is called through untested gives a pointer. -/
structure Covered (w : PollShared S) (m : PollCode S PollReply) : Prop where
  careful : Careful m
  active : ∀ t, m.exposed = some t → (w.state.getIfActive t).isSome = true

omit [DecidableEq S] in
theorem Covered.of_plain (hm : Plain m) (w : PollShared S) : Covered w m :=
  ⟨hm.careful, fun _ ht => nomatch hm.covered.symm.trans ht⟩

omit [DecidableEq S] in
/-- One step of a thread: it calls through no null pointer, and stands covered again. -/
theorem Covered.step {w : PollShared S} {m : PollCode S PollReply} (hm : Covered w m) :
    (m.step w).2.nullCall = w.nullCall ∧ Covered (m.step w).2 (m.step w).1 := by
  have plain {m : PollCode S PollReply} {w : PollShared S} (h : Careful m ∧ m.exposed = none) :
      Covered w m := .of_plain ⟨h.1, h.2⟩ w
  cases m with
  | done a => exact ⟨rfl, hm⟩
  | waiting => exact ⟨rfl, hm⟩
  | atomic f k => exact ⟨rfl, plain (hm.careful _)⟩
  | member s k =>
    cases s with
    | none => exact absurd rfl hm.careful.1
    | some s => exact ⟨rfl, plain (hm.careful.2 _)⟩
  | load t k =>
    refine ⟨rfl, ?_⟩
    show Covered w (k (w.state.getIfActive t))
    cases hload : w.state.getIfActive t with
    | some s =>
      refine ⟨(hm.careful.1 s).1, fun t' ht => ?_⟩
      rw [(hm.careful.1 s).2 t' ht, hload]
      rfl
    | none =>
      rcases hm.careful.2 with hnull | hnone
      · have hactive := hm.active t (if_pos hnull)
        rw [hload] at hactive
        cases hactive
      · exact plain hnone

variable [DecidableEq ι]

/-- As long as no registration goes between the two loads at the entry of the dispatch,
no thread calls a member through a null pointer. -/
theorem poll_loads {w : SetState S} {tr : List (Label (PollOp S) PollReply ι)}
    {c : Config (PollShared S) (PollCode S PollReply) ι}
    (hrun : Run (object h) Undisturbed (.start { state := w }) tr c) : c.shared.nullCall = false := by
  have hcovered : c.shared.nullCall = false ∧ ∀ i m, c.calls i = some m → Covered c.shared m := by
    refine hrun.keeps (I := fun _ c => c.shared.nullCall = false ∧
      ∀ i m, c.calls i = some m → Covered c.shared m) ⟨?call, ?step, ?ret⟩ ⟨rfl, nofun⟩
    case call =>
      rintro tr c i o - ⟨hnull, hall⟩
      refine ⟨hnull, fun j m hm => ?_⟩
      by_cases hji : j = i
      · subst hji
        rw [Config.set_self] at hm
        obtain rfl := Option.some.inj hm
        exact .of_plain (plain_start o) _
      · rw [Config.set_other hji] at hm
        exact hall j m hm
    case step =>
      rintro tr c i k running - hundisturbed ⟨hnull, hall⟩
      obtain ⟨hstep, hnext⟩ := (hall i k running).step
      refine ⟨hstep.trans hnull, fun j m hm => ?_⟩
      by_cases hji : j = i
      · subst hji
        rw [Config.set_self] at hm
        obtain rfl := Option.some.inj hm
        exact hnext
      · rw [Config.set_other hji] at hm
        have hj := hall j m hm
        exact ⟨hj.careful, fun t ht => hundisturbed j m t k hm ht running (hj.active t ht)⟩
    case ret =>
      rintro tr c i k r - - ⟨hnull, hall⟩
      refine ⟨hnull, fun j m hm => ?_⟩
      by_cases hji : j = i
      · subst hji
        rw [Config.set_self] at hm
        cases hm
      · rw [Config.set_other hji] at hm
        exact hall j m hm
  exact hcovered.1

end Runs

end PollThread

open PollThread

/-- A TLS socket, open on descriptor 3, whose handshake deadline has passed. -/
def overdue : PollAnswers ℕ where
  isValidSocket _ := true
  sockfd _ := 3
  pollWantsWrite _ := true
  pollHasBufferedInput _ := false
  pollTimeoutMs _ := 0
  isListener _ := false
  pollStep _ := -1
  getError _ := errTimeout
  pollReadReady _ := false
  pollReceive _ := ⟨-1, Errno.EAGAIN⟩
  pollErrorTerminal _ := true
  pollQueueReady _ := false
  flushQueued _ := {}
  close _ := true
  poll _ _ _ := (0, [])
  getsockopt _ := ⟨0, 0⟩
  recvfrom _ := ⟨-1, Errno.EAGAIN⟩
  handler _ := []

def oneSocket : SetState ℕ := { registries := { sockets := ⟨[⟨7, true⟩], [0]⟩ } }

/-- One thread polls for `n` steps, then another one removes the socket, and then the
first one goes on. -/
def removedAfter (n : ℕ) (allowed : Config (PollShared ℕ) (PollCode ℕ PollReply) Bool → Bool) :
    Config (PollShared ℕ) (PollCode ℕ PollReply) Bool :=
  let O := object overdue
  let c := (Config.start { state := oneSocket }).set false (some (O.start (.poll 1 0)))
    { state := oneSocket }
  let c := O.advance allowed false n c
  let c := c.set true (some (O.start (.edit (.removeSocket (some 7))))) c.shared
  O.advance allowed false 40 (O.advance allowed true 2 c)

theorem removed_run {ok : Config (PollShared ℕ) (PollCode ℕ PollReply) Bool → Bool → Prop}
    {allowed : Config (PollShared ℕ) (PollCode ℕ PollReply) Bool → Bool}
    (hok : ∀ i c, allowed c = true → ok c i) (n : ℕ) :
    Run (object overdue) ok (.start { state := oneSocket })
      [.call false (.poll 1 0), .call true (.edit (.removeSocket (some 7)))] (removedAfter n allowed) := by
  have hstart : Run (object overdue) ok (.start { state := oneSocket }) []
    (.start { state := oneSocket } (ι := Bool)) := .start
  have hpolling := (hstart.call false (.poll 1 0) rfl).advance false (hok false) n
  have hcalled := hpolling.call true (.edit (.removeSocket (some 7)))
    ((Object.advance_other (by decide) n _).trans rfl)
  have hremoved := hcalled.advance true (hok true) 2
  exact hremoved.advance false (hok false) 40

/-- The removal comes between the two loads at the entry of the dispatch. -/
theorem poll_loads_disturbed : ¬∀ (h : PollAnswers ℕ) (w : SetState ℕ)
    (tr : List (Label (PollOp ℕ) PollReply Bool)) (c : Config (PollShared ℕ) (PollCode ℕ PollReply) Bool),
    Run (object h) (fun _ _ => True) (.start { state := w }) tr c → c.shared.nullCall = false := by
  intro hall
  have hrun := hall overdue oneSocket _ (removedAfter 21 fun _ => true)
    (removed_run (fun _ _ _ => trivial) 21)
  exact absurd hrun (by decide +kernel)

/-- No thread is about to load a token whose pointer it calls through untested. -/
def unexposed (c : Config (PollShared ℕ) (PollCode ℕ PollReply) Bool) : Bool :=
  ((c.calls false).elim none PollCode.exposed).isNone &&
    ((c.calls true).elim none PollCode.exposed).isNone

theorem unexposed_undisturbed (i : Bool) (c : Config (PollShared ℕ) (PollCode ℕ PollReply) Bool)
    (hc : unexposed c = true) : Undisturbed c i := by
  intro j m t k hm ht
  obtain ⟨hfalse, htrue⟩ := Bool.and_eq_true_iff.mp hc
  have hnone : m.exposed = none := by
    cases j with
    | false => rwa [hm, Option.isNone_iff_eq_none] at hfalse
    | true => rwa [hm, Option.isNone_iff_eq_none] at htrue
  rw [hnone] at ht
  cases ht

/-- A removal while `poll` still collects what it watches. -/
theorem poll_loads_removed : (removedAfter 10 unexposed).calls true = some (.done (.edited (.flag true))) ∧
    (removedAfter 10 unexposed).calls false = some (.done (.handled 0)) ∧
    (removedAfter 10 unexposed).shared.nullCall = false := by
  exact ⟨rfl, rfl, poll_loads (removed_run unexposed_undisturbed 10)⟩

end Aeon
