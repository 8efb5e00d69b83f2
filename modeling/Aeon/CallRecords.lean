import Aeon.HandlerCalls
import Aeon.NoticeScopes

/-!
# What a history tells is what was called

The history of a TLS object and the calls of its handlers are kept apart: the object
notes what it has to tell, and the operation that has used it calls the handler.  In
every program the two agree, but for the calls that the running operation still owes.
-/

namespace Aeon

open Program Reentrant EventWorld EventLoop

/-- What the handlers of the object have been told by these calls. -/
def callsOn (id : ℕ) (calls : List EventNote) : List Notice :=
  calls.filterMap fun n => if n.level = .socket ∧ n.socket = id then some n.notice else none

/-- The calls of the handlers of `i` with these notices. -/
def EventObject.tells (i : ℕ) (ns : List Notice) : List EventNote := ns.map (⟨.socket, i, ·⟩)

theorem callsOn_append (id : ℕ) (calls owed : List EventNote) :
    callsOn id (calls ++ owed) = callsOn id calls ++ callsOn id owed := List.filterMap_append ..

theorem callsOn_set (id i : ℕ) (n : Notice) : callsOn id [⟨.set, i, n⟩] = [] := rfl

theorem callsOn_other {id i : ℕ} (hi : i ≠ id) (ns : List Notice) :
    callsOn id (EventObject.tells i ns) = [] := by
  simp [callsOn, EventObject.tells, hi]

theorem callsOn_own (id : ℕ) (ns : List Notice) : callsOn id (EventObject.tells id ns) = ns := by
  simp [callsOn, EventObject.tells]

/-- What holds of the registry from some state onward, with the datagram sockets. -/
structure Onward (id : ℕ) (K : EventWorld → Prop) : Prop where
  forward : ∀ w w', Forward id w w' → K w → K w'
  streams : ∀ w, K w → StreamOnly id w

theorem Onward.streamOnly (id : ℕ) : Onward id (StreamOnly id) := ⟨fun _ _ => .forward, fun _ hw => hw⟩

theorem Onward.and {id : ℕ} {K J : EventWorld → Prop} (hK : Onward id K)
    (hJ : ∀ w w', Forward id w w' → J w → J w') : Onward id fun w => K w ∧ J w :=
  ⟨fun w w' h hw => ⟨hK.forward w w' h hw.1, hJ w w' h hw.2⟩, fun w hw => hK.streams w hw.1⟩

/-- The handlers of the object `id`, if it is a TLS object, have been told what its
history says, except for the calls that are `owed`. -/
structure Linked (id : ℕ) (K : EventWorld → Prop) (owed : List EventNote) (w : EventWorld) : Prop where
  told : ∀ ns, (w.find id).bind EventObject.told = some ns → ns = callsOn id (w.calls ++ owed)
  fresh : w.objects.length ≤ id → callsOn id (w.calls ++ owed) = []
  onward : K w

namespace Linked

variable {α : Type} {h : LoopHost} {id i : ℕ} {K J : EventWorld → Prop} {owed : List EventNote}
variable {w w' : EventWorld} {o o' : EventObject} {ns : List Notice} {n : Notice}

theorem of_eq (hw : Linked id K owed w) (hobjects : w'.objects = w.objects) (hcalls : w'.calls = w.calls)
    (hK : K w') : Linked id K owed w' := by
  refine ⟨?_, hobjects ▸ hcalls ▸ hw.fresh, hK⟩
  rw [hcalls, EventWorld.find, hobjects]
  exact hw.told

/-- Other calls are owed, but none of them to the object. -/
theorem owes {owed' : List EventNote} (hw : Linked id K owed w)
    (ho : callsOn id owed' = callsOn id owed) : Linked id K owed' w := by
  have hcalls : callsOn id (w.calls ++ owed') = callsOn id (w.calls ++ owed) := by
    rw [callsOn_append, callsOn_append, ho]
  exact ⟨hcalls ▸ hw.told, hcalls ▸ hw.fresh, hw.onward⟩

theorem weaken (hw : Linked id (fun w => K w ∧ J w) owed w) : Linked id K owed w :=
  ⟨hw.told, hw.fresh, hw.onward.1⟩

/-- To an object of another class anything may be told. -/
theorem unheard (hw : Linked id K [] w) (hnot : i = id → NotTls id w) (ns : List Notice) :
    Linked id K (EventObject.tells i ns) w := by
  by_cases hi : i = id
  · have hnot := hnot hi
    refine ⟨fun ns' htold => ?_, fun hle => absurd hnot.le (Nat.not_le.mpr (Nat.lt_succ_of_le hle)), hw.onward⟩
    cases ho : w.find id with
    | none => rw [ho] at htold; cases htold
    | some o =>
      rw [ho] at htold
      cases o with
      | tls s => exact absurd rfl (hnot.each id _ ho rfl)
      | _ => cases htold
  · exact hw.owes (callsOn_other hi ns)

/-- Nothing is owed to an object that is gone. -/
theorem gone (hw : Linked id K (EventObject.tells i ns) w) (ho : w.find i = none) :
    Linked id K [] w := by
  by_cases hi : i = id
  · subst hi
    refine ⟨fun ns' htold => ?_, fun hle => ?_, hw.onward⟩
    · rw [ho] at htold
      cases htold
    · have hfresh := hw.fresh hle
      rw [callsOn_append] at hfresh ⊢
      exact List.append_eq_nil_iff.mpr ⟨(List.append_eq_nil_iff.mp hfresh).1, rfl⟩
  · exact hw.owes (callsOn_other hi ns).symm

/-- A handler is called. -/
theorem called {c : EventNote} (hw : Linked id K [c] w) (hK : K { w with calls := w.calls ++ [c] }) :
    Linked id K [] { w with calls := w.calls ++ [c] } := by
  refine ⟨?_, ?_, hK⟩
  · rw [List.append_nil]
    exact hw.told
  · rw [List.append_nil]
    exact hw.fresh

section Objects

variable (hK : Onward id K)

include hK

/-- An object that has noted something. -/
theorem store (hw : Linked id K [] w) (ho : w.find i = some o) (hcls : o'.cls = o.cls)
    (htold : o'.told = o.told.map (· ++ ns)) :
    Linked id K (EventObject.tells i ns) (w.store i o') := by
  have honward := hK.forward _ _ (.store ho hcls) hw.onward
  have hlength : (w.store i o').objects.length = w.objects.length := List.length_set
  by_cases hi : i = id
  · subst hi
    refine ⟨fun ns' hns => ?_, fun hle => ?_, honward⟩
    · rw [find_store_same ho, Option.bind_some, htold] at hns
      rw [callsOn_append, callsOn_own]
      cases hbefore : o.told with
      | none => rw [hbefore] at hns; cases hns
      | some before =>
        have hlinked := hw.told before (by rw [ho]; exact hbefore)
        rw [hbefore] at hns
        rw [List.append_nil] at hlinked
        exact (Option.some.inj hns).symm.trans (congr_arg (· ++ ns) hlinked)
    · exact absurd (lt_of_find ho) (Nat.not_lt.mpr (hlength ▸ hle))
  · have hkept : Linked id K [] (w.store i o') := by
      refine ⟨?_, hlength ▸ hw.fresh, honward⟩
      rw [find_store_ne (Ne.symm hi)]
      exact hw.told
    exact hkept.owes (callsOn_other hi ns)

/-- An object that has noted nothing. -/
theorem storeMute (hw : Linked id K owed w) (ho : w.find i = some o) (hcls : o'.cls = o.cls)
    (htold : o'.told = o.told) : Linked id K owed (w.store i o') := by
  have hlength : (w.store i o').objects.length = w.objects.length := List.length_set
  refine ⟨fun ns' hns => ?_, hlength ▸ hw.fresh, hK.forward _ _ (.store ho hcls) hw.onward⟩
  refine hw.told ns' ?_
  by_cases hi : i = id
  · subst hi
    rw [find_store_same ho, Option.bind_some, htold] at hns
    rwa [ho]
  · rwa [find_store_ne (Ne.symm hi)] at hns

theorem made (hnew : NewObject (h.objects w.objects.length) o) (hw : Linked id K [] w) :
    Linked id K [] { w with objects := w.objects ++ [some o] } := by
  have hforward : Forward id w { w with objects := w.objects ++ [some o] } := by
    refine .of_notTls (by simp) (fun hnot => hnot.made fun hi => ?_) rfl rfl
    exact absurd hi (Nat.ne_of_gt hnot.le)
  refine ⟨fun ns hns => ?_, fun hle => hw.fresh ?_, hK.forward _ _ hforward hw.onward⟩
  · cases ho : EventWorld.find id { w with objects := w.objects ++ [some o] } with
    | none => rw [ho] at hns; cases hns
    | some o' =>
      rw [ho, Option.bind_some] at hns
      rcases find_made ho with ⟨hid, rfl⟩ | hold
      · have hfresh := hw.fresh hid.ge
        rcases EventObject.told_new hnew with hnone | hnone
        · rw [hnone] at hns
          cases hns
        · rw [hnone] at hns
          exact (Option.some.inj hns).symm.trans hfresh.symm
      · exact hw.told ns (by rw [hold]; exact hns)
  · have hlength : (w.objects ++ [some o]).length ≤ id := hle
    rw [List.length_append] at hlength
    exact Nat.le_of_add_right_le hlength

theorem forget (hw : Linked id K [] w) (i : ℕ) :
    Linked id K [] { w with objects := w.objects.set i none } := by
  have hforward : Forward id w { w with objects := w.objects.set i none } :=
    .of_notTls (by simp) (fun hnot => hnot.forget i) rfl rfl
  refine ⟨fun ns hns => ?_, fun hle => hw.fresh ?_, hK.forward _ _ hforward hw.onward⟩
  · cases ho : EventWorld.find id { w with objects := w.objects.set i none } with
    | none => rw [ho] at hns; cases hns
    | some o' =>
      rw [ho, Option.bind_some] at hns
      exact hw.told ns (by rw [find_forget ho]; exact hns)
  · rwa [List.length_set] at hle

theorem unregistered (hw : Linked id K owed w) (hobjects : w'.objects = w.objects)
    (hregs : w'.registrations = w.registrations) (hudp : w'.udpSockets = w.udpSockets)
    (hcalls : w'.calls = w.calls) : Linked id K owed w' := by
  refine hw.of_eq hobjects hcalls (hK.forward w w' ?_ hw.onward)
  exact .of_notTls (hobjects ▸ le_rfl) (·.of_eq hobjects) hregs hudp

theorem added (hw : Linked id K [] w) (i : Option ℕ) : Linked id K [] (add i w).2 := by
  refine hw.of_eq (add_objects i w) ?_ (hK.forward _ _ (.added i w) hw.onward)
  rcases add_cases i w with he | ⟨j, o, -, -, he⟩ <;> rw [he]

theorem removed (hw : Linked id K [] w) (t : ℕ) : Linked id K [] (deactivate t w) :=
  hw.of_eq rfl rfl (hK.forward _ _ (.removed t w) hw.onward)

/-- What `poll` asks and notes is nobody's business. -/
theorem inquiring : Inquiring h (Linked id K []) where
  asked _ _ _ _ ho hquestion hw :=
    hw.storeMute hK ho hquestion.ordinary.part.step.cls (EventObject.Question.told hquestion)
  logged _ _ _ hw := hw.unregistered hK rfl rfl rfl rfl

end Objects

end Linked

/-- Handlers that leave the records in agreement, and what holds onward. -/
def Agreeing (id : ℕ) (cb : EventNote → Code EventWorld Unit) : Prop :=
  ∀ n K, Onward id K → Keeps (Linked id K []) (cb n)

namespace Linked

variable {α : Type} {h : LoopHost} {id i : ℕ} {K J : EventWorld → Prop} {owed : List EventNote}
variable {cb : EventNote → Code EventWorld Unit} {fuel : ℕ} {p : Watch}
variable (hK : Onward id K)

section Uses

include hK

/-- A call that notes what it has to tell. -/
theorem call {f : EventObject → α × EventObject} {ns : α → List Notice} (hf : EventObject.Tells f ns)
    (hcls : ∀ o, (f o).2.cls = o.cls) : Triple (Linked id K []) (EventWorld.call i f)
      (fun a => Linked id K (EventObject.tells i (ns a))) fun _ => Linked id K [] := by
  intro w hw
  unfold EventWorld.call
  cases ho : w.find i with
  | none => exact hw
  | some o => exact hw.store hK ho (hcls o) (hf o)

theorem callMute {f : EventObject → α × EventObject} (hf : EventObject.Mute f)
    (hcls : ∀ o, (f o).2.cls = o.cls) : Keeps (Linked id K []) (EventWorld.call i f) :=
  keeps_iff.mpr (call hK hf.tells hcls)

theorem use {t : ℕ} {e : ℕ → PollEvent} {f : EventObject → α × EventObject} {ns : α → List Notice}
    (hf : EventObject.Tells f ns) (hcls : ∀ o, (f o).2.cls = o.cls) :
    Triple (Linked id K []) (EventWorld.use t i e f)
      (fun a => Linked id K (EventObject.tells i (ns a))) fun _ => Linked id K [] := by
  intro w hw
  unfold EventWorld.use
  cases ho : w.find i with
  | none => exact hw.unregistered hK rfl rfl rfl rfl
  | some o => exact (hw.store hK ho (hcls o) (hf o)).unregistered hK rfl rfl rfl rfl

/-- What is owed is still owed. -/
theorem useMute {t : ℕ} {e : ℕ → PollEvent} {ns : List Notice} {f : EventObject → α × EventObject}
    (hf : EventObject.Mute f) (hcls : ∀ o, (f o).2.cls = o.cls) :
    Triple (Linked id K (EventObject.tells i ns)) (EventWorld.use t i e f)
      (fun _ => Linked id K (EventObject.tells i ns)) fun _ => Linked id K [] := by
  intro w hw
  unfold EventWorld.use
  cases ho : w.find i with
  | none => exact (hw.gone ho).unregistered hK rfl rfl rfl rfl
  | some o => exact (hw.storeMute hK ho (hcls o) (hf o)).unregistered hK rfl rfl rfl rfl

theorem note {E : Halt → EventWorld → Prop} (e : PollEvent) :
    Triple (Linked id K owed) (EventWorld.note e) (fun _ => Linked id K owed) E :=
  fun _ hw => hw.unregistered hK rfl rfl rfl rfl

end Uses

section Handlers

variable (hcb : Agreeing id cb)

include hK hcb

/-- The call of a handler settles what is owed to it. -/
theorem handler (n : EventNote) : Triple (Linked id K [n]) (recording cb n) (fun _ => Linked id K [])
    fun _ => Linked id K [] := by
  refine Triple.bind (Triple.modify.pre fun w hw => hw.called ?_) fun _ => keeps_iff.mp (hcb n K hK)
  exact hK.forward w _ (.of_notTls le_rfl (fun hnot => ⟨hnot.le, hnot.each⟩) rfl rfl) hw.onward

/-- A handler of the set is owed nothing. -/
theorem callback (pending : Pending) (level : CallbackLevel) (n : Notice) :
    Triple (Linked id K [⟨level, p.socket, n⟩]) (callback (recording cb) pending p level n)
      (fun _ => Linked id K []) fun _ => Linked id K [] := by
  refine Triple.bind (note hK _) fun _ => Triple.bind (handler hK hcb _) fun _ => ?_
  refine Triple.bind (Triple.modify.pre fun w hw => ?_) fun _ => note hK _
  exact hw.unregistered hK rfl rfl rfl rfl

theorem setCallback (pending : Pending) (n : Notice) :
    Keeps (Linked id K []) (setCallback (recording cb) pending p n) := by
  refine (Keeps.read _).bind fun _ => .whenever (keeps_iff.mpr ?_)
  exact (callback hK hcb pending .set n).pre fun _ hw => hw.owes (callsOn_set id p.socket n)

theorem bothCallbacks (pending : Pending) (n : Notice) :
    Triple (Linked id K (EventObject.tells p.socket [n])) (bothCallbacks (recording cb) pending p n)
      (fun _ => Linked id K []) fun _ => Linked id K [] :=
  Triple.bind (callback hK hcb pending .socket n) fun _ => keeps_iff.mp (setCallback hK hcb pending n)

theorem closeSocket (pending : Pending) :
    Keeps (Linked id K []) (closeSocket h (recording cb) pending p) := by
  refine keeps_iff.mpr (Triple.bind (use hK EventObject.tells_close fun o => (ObjectStep.close o).cls) fun closed => ?_)
  cases closed with
  | false => exact .ret fun _ hw => hw
  | true => exact callback hK hcb pending .socket .close

theorem reportClose (pending : Pending) :
    Keeps (Linked id K []) (reportClose h (recording cb) pending p) := by
  refine (keeps_iff.mpr (note hK _)).bind fun _ => (closeSocket hK hcb pending).bind fun _ => ?_
  exact setCallback hK hcb pending _

theorem reportError (pending : Pending) (code : Int) :
    Keeps (Linked id K []) (reportError (recording cb) pending p code) := by
  refine (keeps_iff.mpr (note hK _)).bind fun _ => keeps_iff.mpr ?_
  refine Triple.bind (use hK (EventObject.tells_fail code) fun o => ?_) fun _ => ?_
  · exact (o.withBase_cls _ ▸ EventObject.notify_cls _ _ : (o.fail code).cls = o.cls)
  · exact bothCallbacks hK hcb pending _

theorem closeTerminal (pending : Pending) :
    Keeps (Linked id K []) (closeTerminal h (recording cb) pending p) :=
  ((inquiring (h := h) hK).currentAnd fun o => .same o).bind fun _ =>
    .whenever (closeSocket hK hcb pending)

theorem setAndReportError (pending : Pending) (code : Int) :
    Keeps (Linked id K []) (setAndReportError (recording cb) pending p code) := by
  refine Keeps.bind ?_ fun _ => reportError hK hcb pending code
  exact keeps_iff.mpr (use hK (EventObject.mute_setError fun _ => code).tells fun o => o.withBase_cls _)

theorem failStep (ps : List Watch) : Keeps (Linked id K []) (failStep h (recording cb) ps p) := by
  refine (inquiring (h := h) hK).inspect.bind fun code => (reportError hK hcb _ code).bind fun _ => ?_
  refine (Keeps.read _).bind fun active => .ite (fun _ => ?_) fun _ => .pure _
  exact (inquiring (h := h) hK).inspect.bind fun _ => .whenever (closeSocket hK hcb _)

theorem dispatchListener (ps : List Watch) (flags : Flags) :
    Keeps (Linked id K []) (dispatchListener h (recording cb) ps p flags) := by
  refine .ite (fun _ => ?_) fun _ => .ite (fun _ => ?_) fun _ => .pure _
  · refine Keeps.bind (keeps_iff.mpr ((callback hK hcb _ .set .listen).pre fun _ hw => ?_)) fun _ => .pure _
    exact hw.owes (callsOn_set id p.socket .listen)
  · refine ((inquiring (h := h) hK).descriptorError flags).bind fun code => ?_
    exact (setAndReportError hK hcb _ code).bind fun _ => .pure _

theorem dispatchRead (pending : Pending) (flags : Flags) :
    Keeps (Linked id K []) (dispatchRead h (recording cb) pending p flags) := by
  refine (inquiring (h := h) hK).inspect.bind fun ready => .ite (fun _ => ?_) fun _ => .ite (fun _ => ?_)
    fun _ => .pure _
  · refine keeps_iff.mpr (Triple.bind (use hK EventObject.tells_pollReceive
      fun o => (ObjectStep.pollReceive o).cls) fun received => .ite (fun hdata => ?_) fun hdata => ?_)
    · rw [if_pos hdata]
      refine Triple.bind (note hK _) fun _ => Triple.bind (useMute hK ?_ fun o => o.withBase_cls _) fun _ => ?_
      · exact fun o => EventObject.told_withBase (.of_eq rfl)
      · exact Triple.bind (bothCallbacks hK hcb pending _) fun _ => .ret fun _ hw => hw
    · rw [if_neg hdata]
      refine keeps_iff.mp (.ite (fun _ => ?_) fun _ => .ite (fun _ => .pure _) fun _ => ?_)
      · exact (reportClose hK hcb pending).bind fun _ => .pure _
      · refine (inquiring (h := h) hK).inspect.bind fun code => ?_
        refine (setAndReportError hK hcb pending code).bind fun _ => ?_
        exact (closeTerminal hK hcb pending).bind fun _ => .pure _
  · refine ((inquiring (h := h) hK).descriptorError flags).bind fun code => ?_
    exact (setAndReportError hK hcb pending code).bind fun _ => .pure _

theorem dispatchQueue (ps : List Watch) (flags : Flags) :
    Keeps (Linked id K []) (dispatchQueue h (recording cb) ps p flags) := by
  refine ((inquiring (h := h) hK).currentAnd fun o => .same o).bind fun ready =>
    .ite (fun _ => .pure _) fun _ => keeps_iff.mpr ?_
  refine Triple.bind (use hK EventObject.tells_flushQueued fun o => (ObjectStep.flushQueued o).cls)
    fun flushed => .ite (fun herror => ?_) fun herror => ?_
  · rw [if_pos herror]
    refine keeps_iff.mp ((setAndReportError hK hcb _ _).bind fun _ => ?_)
    exact (closeTerminal hK hcb _).bind fun _ => .pure _
  · rw [if_neg herror]
    refine .ite (fun hdrained => ?_) fun hdrained => ?_
    · rw [if_pos hdrained]
      refine Triple.bind (note hK _) fun _ => Triple.bind (bothCallbacks hK hcb _ _) fun _ => ?_
      exact .ret fun _ hw => hw
    · rw [if_neg hdrained]
      exact .ret fun _ hw => hw

theorem pollStep (ps : List Watch) (flags : Flags) :
    Keeps (Linked id K []) (pollStep h (recording cb) ps p flags) := by
  refine keeps_iff.mpr (Triple.bind (use hK (EventObject.tells_pollStep flags)
    fun o => (ObjectStep.pollStep flags o).cls) fun progress => ?_)
  refine Triple.bind (Triple.whenever (fun hdone => ?_) fun hdone => ?_) fun _ => .ret fun _ hw => hw
  · rw [if_pos (of_decide_eq_true hdone)]
    exact callback hK hcb _ .socket .connect
  · rw [if_neg (of_decide_eq_false hdone)]
    exact fun _ hw => hw

theorem dispatchStream (ps : List Watch) (flags : Flags) :
    Keeps (Linked id K []) (dispatchStream h (recording cb) ps p flags) := by
  refine (pollStep hK hcb ps flags).bind fun progress => .ite (fun _ => ?_) fun _ => ?_
  · exact (failStep hK hcb ps).bind fun _ => .pure _
  · refine .ite (fun _ => .pure _) fun _ => .ite (fun _ => ?_) fun _ => .ite (fun _ => ?_) fun _ => ?_
    · exact (reportClose hK hcb _).bind fun _ => .pure _
    · refine ((inquiring (h := h) hK).currentAnd fun o => .same o).bind fun here => ?_
      refine Keeps.bind (.whenever (keeps_iff.mpr ?_)) fun _ => .pure _
      exact (callback hK hcb _ .set .connect).pre fun _ hw => hw.owes (callsOn_set id p.socket .connect)
    · refine (dispatchRead hK hcb _ flags).bind fun read => ?_
      exact (dispatchQueue hK hcb ps flags).bind fun _ => .pure _

theorem dispatchTcp (ps : List Watch) (flags : Flags) :
    Keeps (Linked id K []) (dispatchTcp h (recording cb) ps p flags) := by
  refine ((inquiring (h := h) hK).currentAnd fun o => .same o).bind fun here => .ite (fun _ => .pure _) fun _ => ?_
  refine (inquiring (h := h) hK).inspect.bind fun listening => ?_
  exact .ite (fun _ => dispatchListener hK hcb ps flags) fun _ => dispatchStream hK hcb ps flags

/-- A datagram is for an object of another class. -/
theorem dispatchUdp (hnot : ∀ w, K w → p.socket = id → NotTls id w) (ps : List Watch) (flags : Flags) :
    Keeps (Linked id K []) (dispatchUdp h (recording cb) ps p flags) := by
  refine ((inquiring (h := h) hK).currentAnd fun o => .same o).bind fun here => .ite (fun _ => .pure _) fun _ => ?_
  have herror (code : Int) : Keeps (Linked id K []) (do
      EventLoop.setAndReportError (recording cb) (later ps) p code
      return 1) := (setAndReportError hK hcb _ code).bind fun _ => .pure _
  refine .ite (fun _ => ?_) fun _ => .ite (fun _ => ?_) fun _ => .pure _
  · refine ((inquiring (h := h) hK).recvfrom p).bind fun received => .ite (fun _ => ?_) fun _ => ?_
    · refine (keeps_iff.mpr (note hK _)).bind fun _ => keeps_iff.mpr ?_
      refine Triple.bind (use hK (EventObject.mute_datagramFrom _ _).tells
        fun o => (ObjectStep.datagramFrom (e := h.objects p.socket) _ _ o).cls) fun _ => ?_
      refine Triple.bind ((bothCallbacks hK hcb _ _).pre fun w hw => ?_) fun _ => .ret fun _ hw => hw
      exact hw.unheard (hnot w hw.onward) _
    · exact .ite (fun _ => .pure _) fun _ => herror _
  · exact ((inquiring (h := h) hK).descriptorError flags).bind fun code => herror code

theorem dispatch (hnot : ∀ w, K w → p.udp = true → p.socket = id → NotTls id w) (ps : List Watch)
    (flags : Flags) : Keeps (Linked id K []) (dispatch h (recording cb) ps p flags) := by
  refine ((inquiring (h := h) hK).isDue flags).bind fun due => .ite (fun _ => .pure _) fun _ => ?_
  refine .ite (fun hudp => ?_) fun _ => dispatchTcp hK hcb ps flags
  exact dispatchUdp hK hcb (fun w hw => hnot w hw hudp) ps flags

theorem dispatchAll {ps : List Watch} (watched : List (Watch × Flags)) (hps : ∀ p ∈ watched, p.1 ∈ ps) :
    Keeps (Linked id (fun w => K w ∧ OwnWatches id ps w) []) (dispatchAll h (recording cb) watched) := by
  have hown : Onward id fun w => K w ∧ OwnWatches id ps w := hK.and fun _ _ => OwnWatches.forward
  induction watched with
  | nil => exact .pure _
  | cons p rest ih =>
    obtain ⟨hp, hrest⟩ := List.forall_mem_cons.mp hps
    refine Keeps.bind ?_ fun _ => (ih hrest).bind fun _ => .pure _
    exact dispatch hown hcb (fun w hw hudp hid => (hw.2 p.1 hp hid).2.2 hudp) _ _

theorem pollOwned (timeoutMs : Int) :
    Keeps (Linked id K []) (pollOwned h (recording cb) fuel timeoutMs) := by
  refine keeps_iff.mpr (.assume fun w hw => ?_)
  refine Triple.bind (Q := fun tokens t => t = w ∧ tokens = (w.sockets, w.udpSockets)) ?_
    fun tokens => .assume fun w₁ hw₁ => ?_
  · rintro _ rfl
    exact ⟨rfl, rfl⟩
  obtain ⟨rfl, rfl⟩ := hw₁
  have hlooked {w' : EventWorld} (h' : Looked w₁ w') : Linked id K [] w' := by
    obtain ⟨log, rfl⟩ := h'
    exact hw.unregistered hK rfl rfl rfl rfl
  refine Triple.bind (Q := fun _ => Looked w₁) ?_ fun _ => ?_
  · rintro _ rfl
    exact ⟨_, rfl⟩
  refine Triple.bind ((watchAll_looks w₁ false w₁.sockets).mono (fun _ ht => ht) (fun _ _ ht => ht)
    fun _ _ => hlooked) fun streams => .assume fun w₂ hw₂ => ?_
  refine Triple.bind ((watchAll_looks w₁ true w₁.udpSockets).mono (fun _ ht => ht ▸ hw₂.1)
    (fun _ _ ht => ht) fun _ _ => hlooked) fun datagrams => .assume fun w₃ hw₃ => ?_
  have hown : OwnWatches id (streams ++ datagrams) w₃ := by
    obtain ⟨log, rfl⟩ := hw₃.1
    refine OwnWatches.forward (w := w₁) (.of_notTls le_rfl (fun hnot => ⟨hnot.le, hnot.each⟩) rfl rfl) ?_
    exact .of_looks (hK.streams w₁ hw.onward) hw₂.2 hw₃.2
  have hps : Onward id fun w => K w ∧ OwnWatches id (streams ++ datagrams) w :=
    hK.and fun _ _ => OwnWatches.forward
  refine Triple.mono (keeps_iff.mp ((inquiring (h := h) hps).afterWatch _ timeoutMs fun watched hsame => ?_))
    (fun t ht => ?_) (fun _ _ hend => hend.weaken) fun _ _ hend => hend.weaken
  · exact dispatchAll hK hcb watched fun p hp => hsame ▸ List.mem_map_of_mem hp
  · have hlast := hlooked hw₃.1
    exact ht ▸ ⟨hlast.told, hlast.fresh, hlast.onward, hown⟩

theorem poll (timeoutMs : Int) : Keeps (Linked id K []) (poll h (recording cb) fuel timeoutMs) := by
  have hlock (w : EventWorld) (polling : Bool) (hw : Linked id K [] w) :
      Linked id K [] { w with polling := polling } := hw.unregistered hK rfl rfl rfl rfl
  refine .ite (fun _ => .pure _) fun _ => Keeps.bind (fun w hw => hlock w true hw) fun owns => ?_
  refine .ite (fun _ => .pure _) fun _ w hw => ?_
  have hend : Linked id K [] (EventLoop.pollOwned h (recording cb) fuel timeoutMs w).2 :=
    pollOwned hK hcb timeoutMs w hw
  exact hend.unregistered hK rfl rfl rfl rfl

end Handlers

section Operations

variable (hcb : Agreeing id cb)

include hK hcb

omit hcb in
theorem spawn {make : NetHost → EventObject} (hmake : ∀ e, NewObject e (make e)) :
    Keeps (Linked id K []) (EventLoop.spawn h make) := fun _ hw => hw.made hK (hmake _)

omit hcb in
theorem adoptTcp (fd : ℕ) (blocking : Bool) : Keeps (Linked id K []) (EventLoop.adoptTcp h fd blocking) := by
  intro w hw
  unfold EventLoop.adoptTcp
  rw [Code.bind_run, Code.read_run]
  dsimp only
  cases hs : acceptedTcp fd blocking (h.objects w.objects.length) with
  | none => exact hw
  | some s => exact hw.made hK (.acceptedTcp hs)

omit hcb in
theorem adoptTls (fd : ℕ) (retained : Bool) (timeoutMs : Int) :
    Keeps (Linked id K []) (EventLoop.adoptTls h fd retained timeoutMs) := by
  intro w hw
  unfold EventLoop.adoptTls
  rw [Code.bind_run, Code.read_run]
  dsimp only
  cases hs : acceptedTls fd retained timeoutMs (h.objects w.objects.length) with
  | none => exact hw
  | some s => exact hw.made hK (.acceptedTls hs)

omit hcb in
theorem removeToken (token : Option ℕ) : Keeps (Linked id K []) (removeToken token) := by
  cases token with
  | none => exact .pure _
  | some t => exact Keeps.bind (fun _ hw => hw.removed hK t) fun _ => .pure _

omit hcb in
theorem removeSocket (udp : Bool) (i : Option ℕ) : Keeps (Linked id K []) (removeSocket udp i) := by
  cases i with
  | none => exact .pure _
  | some i => exact (Keeps.read _).bind fun token => removeToken hK token

omit hcb in
theorem callSame {f : EventObject → α × EventObject} (hf : ∀ o, (f o).2 = o) :
    Keeps (Linked id K []) (EventWorld.call i f) :=
  callMute hK (fun o => by rw [hf o]) fun o => by rw [hf o]

omit hcb in
theorem callBase {f : Socket → α × Socket} (hf : Socket.Unopened f) :
    Keeps (Linked id K []) (EventWorld.call i (EventObject.onSocket f)) :=
  callMute hK (EventObject.mute_unopened hf) fun o => EventObject.onSocket_cls f o

omit hcb in
theorem callSetBlocking (mode : Bool) : Keeps (Linked id K [])
    (EventWorld.call i (EventObject.onSocket (Socket.setBlocking (h.objects i).tls.toHost mode))) :=
  callBase hK fun s =>
    ⟨(Socket.aside_setBlocking _ mode s).log, (Socket.aside_setBlocking _ mode s).sockfd⟩

omit hcb in
theorem setError (code : EventObject → Int) :
    Keeps (Linked id K []) (EventWorld.call i fun o => ((), o.setError (code o))) :=
  callMute hK (EventObject.mute_setError code) fun o => o.withBase_cls _

omit hcb in
theorem closeOwnedPeers : Keeps (Linked id K []) (EventWorld.call i EventObject.closeOwnedPeers) :=
  callMute hK EventObject.mute_closeOwnedPeers fun o => by
    cases o with
    | udp server s => cases server <;> rfl
    | _ => rfl

omit hcb in
theorem closeBase : Keeps (Linked id K []) (EventLoop.closeBase h i) :=
  callMute hK (fun o => EventObject.mute_closeBase _ o) fun o => EventObject.onSocket_cls _ o

/-- The handler of an object of another class. -/
theorem fire (hnot : ∀ w, K w → i = id → NotTls id w) (n : Notice) :
    Keeps (Linked id K []) (EventLoop.fire (recording cb) i n) :=
  keeps_iff.mpr ((handler hK hcb _).pre fun w hw => hw.unheard (hnot w hw.onward) [n])

theorem close (i : ℕ) : Keeps (Linked id K []) (EventLoop.close h (recording cb) i) := by
  refine keeps_iff.mpr (Triple.bind (call hK EventObject.tells_close fun o => (ObjectStep.close o).cls)
    fun closed => Triple.bind (Q := fun _ => Linked id K []) (.whenever (fun hclosed => ?_) fun hkept w hw => ?_)
      fun _ => keeps_iff.mp ((closeOwnedPeers hK).bind fun _ => .pure _))
  · rw [hclosed]
    exact handler hK hcb _
  · rwa [hkept] at hw

theorem destroy (i : ℕ) : Keeps (Linked id K []) (EventLoop.destroy h (recording cb) i) := by
  refine (callSame hK fun _ => rfl).bind fun closes => ?_
  have hrest : Keeps (Linked id K []) (do
      let _ ← EventLoop.closeBase h i
      let registered ← Code.read fun w => w.registrations.any fun r => r.active && r.socket == i
      if registered then Code.halt .undefined
      else Code.modify fun w => { w with objects := w.objects.set i none }) := by
    refine (closeBase hK).bind fun _ => (Keeps.read _).bind fun registered => ?_
    exact .ite (fun _ => .halt _) fun _ => .modify fun w hw => hw.forget hK i
  exact .ite (fun _ => (close hK hcb i).bind fun _ => hrest) fun _ => hrest

theorem preserves (i : ℕ) : This.Preserves (h.objects i).tls.toHost (this h (recording cb) i)
    (Linked id K []) (Linked id K []) where
  weaken _ hw := hw
  run _ hf := callBase hK hf
  create _ hf := keeps_iff.mp
    (callMute hK (EventObject.mute_creates hf) fun o => EventObject.onSocket_cls _ o)
  close := keeps_iff.mp (close hK hcb i)

theorem tcpConnect (i : ℕ) (target : TcpTarget) :
    Keeps (Linked id K []) (EventLoop.tcpConnect h (recording cb) i target) :=
  Scoped.tcpConnect (preserves hK hcb i) target

/-- What follows a `tcp_connect` or a `tcp_listen` that has succeeded. -/
theorem finish (hnot : ∀ w, K w → i = id → NotTls id w) (n : Notice) : Keeps (Linked id K []) (do
    let set ← EventWorld.call i
      (EventObject.onSocket (Socket.setBlocking (h.objects i).tls.toHost false))
    if !set then
      let _ ← EventLoop.closeBase h i
      return false
    else
      EventLoop.fire (recording cb) i n
      return true) := by
  refine (callSetBlocking hK false).bind fun set => ?_
  refine .ite (fun _ => (closeBase hK).bind fun _ => .pure _) fun _ => ?_
  exact (fire hK hcb hnot n).bind fun _ => .pure _

/-- A function of a class that is not that of the TLS objects. -/
theorem onlyOther {c : EventObject → Bool} {m : Code EventWorld Unit} (hc : ∀ s, c (.tls s) = false)
    (hm : Keeps (Linked id (fun w => K w ∧ (i = id → NotTls id w)) []) m) :
    Keeps (Linked id K []) (only c i m) := by
  intro w hw
  unfold EventLoop.only
  rw [Code.bind_run, Code.read_run]
  dsimp only
  split
  · rename_i hclass
    obtain ⟨o, ho, hco⟩ : ∃ o, w.find i = some o ∧ c o = true := by
      cases ho : w.find i with
      | none => rw [ho] at hclass; cases hclass
      | some o => exact ⟨o, rfl, by rwa [ho] at hclass⟩
    refine (hm w ⟨hw.told, hw.fresh, hw.onward, ?_⟩).weaken
    rintro rfl
    refine ⟨lt_of_find ho, fun j o' ho' hj => ?_⟩
    rintro hcls
    obtain ⟨s, rfl⟩ := EventObject.exists_of_cls hcls
    obtain rfl := Option.some.inj (ho.symm.trans (hj ▸ ho'))
    simp [hc] at hco
  · exact hw

theorem writeSized (i : ℕ) (data : List UInt8) :
    Keeps (Linked id K []) (EventLoop.writeSized h (recording cb) i data) := by
  refine (callSame hK fun _ => rfl).bind fun valid => .ite (fun _ => ?_) fun _ => keeps_iff.mpr ?_
  · exact (setError hK _).bind fun _ => .pure _
  · refine Triple.bind (call hK (EventObject.tells_directWrite data) fun o => (ObjectStep.directWrite data o).cls)
      fun sent => Triple.bind (Q := fun _ => Linked id K []) (.whenever (fun herror => ?_) fun hsent w hw => ?_)
        fun _ => ?_
    · rw [if_pos (of_decide_eq_true herror)]
      exact handler hK hcb _
    · rwa [if_neg (of_decide_eq_false hsent)] at hw
    · refine Triple.bind (call hK (EventObject.tells_notify _) fun o => EventObject.notify_cls _ o) fun _ => ?_
      exact Triple.bind (handler hK hcb _) fun _ => .ret fun _ hw => hw

theorem writeText (i : ℕ) (data : Option (List UInt8)) :
    Keeps (Linked id K []) (EventLoop.writeText h (recording cb) i data) := by
  cases data with
  | none => exact .pure _
  | some data =>
    refine (callSame hK fun _ => rfl).bind fun valid => ?_
    refine .ite (fun _ => .pure _) fun _ => .ite (fun _ => .pure _) fun _ => ?_
    exact .ite (fun _ => .pure _) fun _ => writeSized hK hcb i data

theorem writeString (i : ℕ) (data : List UInt8) :
    Keeps (Linked id K []) (EventLoop.writeString h (recording cb) i data) := by
  refine (callSame hK fun _ => rfl).bind fun valid => ?_
  exact .ite (fun _ => .pure _) fun _ => writeSized hK hcb i data

theorem write (i : ℕ) (c : WriteCall) :
    Keeps (Linked id K []) (EventLoop.write h (recording cb) i c) := by
  cases c with
  | sized data => exact writeSized hK hcb i _
  | text data => exact writeText hK hcb i data
  | string data => exact writeString hK hcb i data
  | shiftText data => exact writeText hK hcb i data
  | shiftString data => exact writeString hK hcb i data

theorem connectTls (i : ℕ) (target : TlsTarget) :
    Keeps (Linked id K []) (EventLoop.connectTls h (recording cb) i target) := by
  have hread {β : Type} (f : SslEventSocket → β) (other : β) :
      Keeps (Linked id K []) (EventWorld.call i (EventObject.onTls (fun s => (f s, s)) other)) :=
    callSame hK fun o => by cases o <;> rfl
  unfold EventLoop.connectTls
  refine (hread _ _).bind fun server => ?_
  split
  · exact (setError hK _).bind fun _ => .pure _
  · rename_i identity _
    refine (hread _ _).bind fun busy => ?_
    have hrest : Keeps (Linked id K []) (do
        let _ ← EventWorld.call i
          (EventObject.onSocket (Socket.setBlocking (h.objects i).tls.toHost true))
        let ok ← EventLoop.tcpConnect h (recording cb) i target.tcp
        if !ok then return false
        else
          let started ← EventWorld.call i (EventObject.onTls
            (SslEventSocket.startClient (h.objects i).tls identity) (false, false))
          Code.whenever started.2 (EventLoop.fire (recording cb) i .close)
          return started.1) := by
      refine (callSetBlocking hK true).bind fun _ => ?_
      refine (tcpConnect hK hcb i _).bind fun ok => .ite (fun _ => .pure _) fun _ => keeps_iff.mpr ?_
      refine Triple.bind (call hK (EventObject.tells_startClient identity) fun o => EventObject.onTls_cls _ _ o)
        fun started => Triple.bind (Q := fun _ => Linked id K [])
          (.whenever (fun hclosed => ?_) fun hkept w hw => ?_) fun _ => .ret fun _ hw => hw
      · rw [hclosed]
        exact handler hK hcb _
      · rwa [hkept] at hw
    exact .ite (fun _ => (close hK hcb i).bind fun _ => hrest) fun _ => hrest

theorem exec (o : EventOp) : Keeps (Linked id K []) (exec h (recording cb) fuel o) := by
  have hvoid {β : Type} {m : Code EventWorld β} {J : EventWorld → Prop} (hm : Keeps J m) :
      Keeps J (do let _ ← m) := hm.bind fun _ => .pure ()
  have hother (i : ℕ) : Onward id fun w => K w ∧ (i = id → NotTls id w) :=
    hK.and fun _ _ hforward hnot hi => hforward.notTls (hnot hi)
  have hnot (i : ℕ) (w : EventWorld) (hw : K w ∧ (i = id → NotTls id w)) : i = id → NotTls id w := hw.2
  cases o with
  | createTcp => exact hvoid (spawn hK fun _ => .tcp)
  | createListener => exact hvoid (spawn hK fun _ => .listener)
  | createTls ctx => exact hvoid (spawn hK fun _ => .tls ctx)
  | createUdp server => exact hvoid (spawn hK fun _ => .udp server)
  | adoptTcp fd blocking => exact adoptTcp hK fd blocking
  | adoptTls fd retained timeoutMs => exact adoptTls hK fd retained timeoutMs
  | destroy i => exact destroy hK hcb i
  | add i => exact hvoid fun _ hw => hw.added hK i
  | removeAt index => exact hvoid ((Keeps.read _).bind fun token => removeToken hK token)
  | removeSocket udp i => exact hvoid (removeSocket hK udp i)
  | close i => exact hvoid (close hK hcb i)
  | call i c => exact callMute hK (EventObject.mute_exec c) fun o => EventObject.exec_cls c o
  | write i c => exact keeps_only (hvoid (write hK hcb i c))
  | connectTcp i target =>
    refine onlyOther hK hcb (fun _ => rfl) (hvoid ?_)
    refine (tcpConnect (hother i) hcb i target).bind fun ok => .ite (fun _ => .pure _) fun _ => ?_
    exact finish (hother i) hcb (hnot i) .connect
  | connectTls i target => exact keeps_only (hvoid (connectTls hK hcb i target))
  | listen i ip port =>
    refine onlyOther hK hcb (fun _ => rfl) (hvoid ?_)
    refine ((preserves (hother i) hcb i).tcpListen ip port).bind fun ok => .ite (fun _ => .pure _) fun _ => ?_
    exact finish (hother i) hcb (hnot i) .listen
  | listenUdp i port =>
    refine onlyOther hK hcb (fun _ => rfl) (hvoid ?_)
    refine (callMute (hother i) EventObject.mute_onUdp fun o => ?_).bind fun ok => .ite (fun _ => ?_) fun _ => .pure _
    · exact (ObjectStep.onUdp (e := h.objects i) _ _ o).cls
    · refine (closeOwnedPeers (hother i)).bind fun _ => ?_
      exact (fire (hother i) hcb (hnot i) _).bind fun _ => .pure _
  | connectUdp i target =>
    refine onlyOther hK hcb (fun _ => rfl) (hvoid ?_)
    refine (callMute (hother i) EventObject.mute_onUdp fun o => ?_).bind fun ok => ?_
    · exact (ObjectStep.onUdp (e := h.objects i) _ _ o).cls
    · exact (Keeps.whenever (fire (hother i) hcb (hnot i) _)).bind fun _ => .pure _
  | poll timeoutMs => exact hvoid (poll hK hcb timeoutMs)

end Operations

end Linked

section Programs

variable {h : LoopHost} {fuel : ℕ} {ok okIn : EventWorld → EventOp → Prop} {hs : EventWorld → Halt → Prop}
variable {w : EventWorld}

/-- Handlers of a program leave the records in agreement. -/
theorem Agreeing.of_realizable {cb : EventNote → Code EventWorld Unit} (id : ℕ)
    (real : Realizable (system h fuel) okIn hs cb) : Agreeing id cb := by
  refine fun n K hK t => ?_
  refine (real.steps n t).within (R := fun a b => ∀ K, Onward id K → Linked id K [] a → Linked id K [] b)
    (fun _ _ _ ha => ha) (fun _ _ _ hab hbc K hK ha => hbc K hK (hab K hK ha)) ?_ K hK
  exact fun o cb _ hcb t _ K hK => Linked.exec hK (fun n K hK u hu => hcb n u K hK hu) o t

/-- In every program the history of a TLS object tells what its handlers were called with. -/
theorem Linked.of_run (id : ℕ) (hw : Run (system h fuel) ok okIn hs {} w) :
    Linked id (StreamOnly id) [] w := by
  refine hw.keeps (fun o cb real t _ => ?_) ⟨fun ns hns => ?_, fun _ => rfl, fun t ht => ?_⟩
  · exact Linked.exec (.streamOnly id) (.of_realizable id real) o t
  · simp [EventWorld.find] at hns
  · simp at ht

theorem SslEventSocket.told_calls {id : ℕ} {s : SslEventSocket}
    (hw : Run (system h fuel) ok okIn hs {} w) (hs : w.find id = some (.tls s)) :
    s.told = callsOn id w.calls := by
  have htold := (Linked.of_run id hw).told s.told (by rw [hs]; rfl)
  rwa [List.append_nil] at htold

end Programs

end Aeon
