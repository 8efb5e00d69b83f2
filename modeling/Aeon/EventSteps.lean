import Aeon.EventScopes

/-!
# Invariants of the whole world

An invariant of the world that the functions of all objects keep, and the changes of
the registry, is kept by every operation.
-/

namespace Aeon

open Program Reentrant

open EventWorld EventLoop

/-- An invariant that the functions of the objects and of the registry keep. -/
structure Stable (h : LoopHost) (I : EventWorld → Prop) : Prop where
  object : ∀ w id o o', w.find id = some o → ObjectStep (h.objects id) o o' → I w →
    I (w.store id o')
  made : ∀ w o, NewObject (h.objects w.objects.length) o → I w →
    I { w with objects := w.objects ++ [some o] }
  forget : ∀ w id, (∀ r ∈ w.registrations, r.active = true → r.socket ≠ id) → I w →
    I { w with objects := w.objects.set id none }
  added : ∀ w id, I w → I (add id w).2
  removed : ∀ w t, t ∈ w.sockets ++ w.udpSockets → I w → I (deactivate t w)

/-- An invariant of the registry and of the objects while none of them connects or listens. -/
structure Undialled (h : LoopHost) (I : EventWorld → Prop) : Prop where
  object : ∀ w id o o', w.find id = some o → Part (h.objects id) Socket.Aside o o' → I w →
    I (w.store id o')
  made : ∀ w o, NewObject (h.objects w.objects.length) o → I w →
    I { w with objects := w.objects ++ [some o] }
  forget : ∀ w id, (∀ r ∈ w.registrations, r.active = true → r.socket ≠ id) → I w →
    I { w with objects := w.objects.set id none }
  added : ∀ w id, I w → I (add id w).2
  removed : ∀ w t, t ∈ w.sockets ++ w.udpSockets → I w → I (deactivate t w)

theorem Stable.undialled {h : LoopHost} {I : EventWorld → Prop} (hI : Stable h I) : Undialled h I where
  object w id o o' ho hpart := hI.object w id o o' ho hpart.step
  made := hI.made
  forget := hI.forget
  added := hI.added
  removed := hI.removed

/-- Such an invariant is kept by what works on any object. -/
theorem Undialled.global {h : LoopHost} {I : EventWorld → Prop} (hI : Undialled h I) :
    Scoped h (fun _ => True) I where
  object w id o o' _ := hI.object w id o o'
  ordinary w id o o' ho hpart := hI.object w id o o' ho hpart.part
  made := hI.made
  forget w id _ := hI.forget w id
  added := hI.added
  removed w t ht _ := hI.removed w t ht

/-- Any operation works within the set of all objects. -/
theorem EventOp.within_all (w : EventWorld) (o : EventOp) : o.Within (fun _ => True) w := by
  cases o with
  | removeAt index => exact fun _ _ _ _ => trivial
  | removeSocket udp id => exact fun _ _ => trivial
  | _ => trivial

namespace Stable

variable {α : Type} {h : LoopHost} {I : EventWorld → Prop} {cb : EventNote → Code EventWorld Unit}
variable {fuel : ℕ} (hI : Stable h I) (hcb : ∀ n, Keeps I (cb n))

include hI

theorem call {id : ℕ} {f : EventObject → α × EventObject}
    (hf : ∀ o, ObjectStep (h.objects id) o (f o).2) : Keeps I (call id f) :=
  Scoped.callOpening (S := fun _ => True) (fun w id o o' _ => hI.object w id o o') trivial hf

include hcb

/-- Every operation keeps the invariant, when `poll` does. -/
theorem exec (hpoll : ∀ timeoutMs, Keeps I (poll h cb fuel timeoutMs)) (o : EventOp) :
    Keeps I (exec h cb fuel o) := fun w =>
  hI.undialled.global.execOpening hcb (fun w id o o' _ => hI.object w id o o') hpoll o w
    (o.within_all w)

end Stable

/-- Such an invariant of the objects alone. -/
structure Undialled.Objective (h : LoopHost) (I : EventWorld → Prop) : Prop extends Undialled h I where
  objects : ∀ w w', w'.objects = w.objects → I w → I w'

namespace Undialled.Objective

variable {h : LoopHost} {I : EventWorld → Prop} {cb : EventNote → Code EventWorld Unit} {fuel : ℕ}
variable (hI : Undialled.Objective h I)

include hI

theorem global : Scoped.Objective h (fun _ => True) I :=
  { hI.toUndialled.global with logged := fun w _ _ hw => hI.objects w _ rfl hw }

theorem poll (hcb : ∀ n, Keeps I (cb n)) (timeoutMs : Int) : Keeps I (poll h cb fuel timeoutMs) :=
  hI.global.poll hcb (fun _ => trivial) (fun w _ => hI.objects w _ rfl) timeoutMs

end Undialled.Objective

/-- An invariant of the objects alone. -/
structure Objective (h : LoopHost) (I : EventWorld → Prop) : Prop extends Stable h I where
  objects : ∀ w w', w'.objects = w.objects → I w → I w'

theorem Objective.undialled {h : LoopHost} {I : EventWorld → Prop} (hI : Objective h I) :
    Undialled.Objective h I :=
  ⟨hI.toStable.undialled, hI.objects⟩

theorem EventWorld.lt_of_find {w : EventWorld} {id : ℕ} {o : EventObject}
    (h : w.find id = some o) : id < w.objects.length := by
  by_contra hge
  simp [EventWorld.find, List.getElem?_eq_none (Nat.le_of_not_lt hge)] at h

theorem EventWorld.find_store {w : EventWorld} {id i : ℕ} {o o' : EventObject}
    (h : (w.store id o).find i = some o') : i = id ∧ o' = o ∨ i ≠ id ∧ w.find i = some o' := by
  simp only [EventWorld.find, EventWorld.store, List.getD_eq_getElem?_getD,
    List.getElem?_set] at h ⊢
  split at h
  · rename_i heq
    split at h
    · exact .inl ⟨heq.symm, by simpa using h.symm⟩
    · cases h
  · rename_i hne
    exact .inr ⟨Ne.symm hne, h⟩

theorem EventWorld.find_forget {w : EventWorld} {id i : ℕ} {o : EventObject}
    (h : find i { w with objects := w.objects.set id none } = some o) : w.find i = some o := by
  simp only [EventWorld.find, List.getD_eq_getElem?_getD, List.getElem?_set] at h ⊢
  split at h
  · split at h <;> cases h
  · exact h

theorem EventWorld.find_made {w : EventWorld} {i : ℕ} {o o' : EventObject}
    (h : find i { w with objects := w.objects ++ [some o] } = some o') :
    i = w.objects.length ∧ o' = o ∨ w.find i = some o' := by
  simp only [EventWorld.find, List.getD_eq_getElem?_getD, List.getElem?_append] at h ⊢
  split at h
  · exact .inr h
  · rename_i hlt
    rcases Nat.eq_or_lt_of_le (Nat.le_of_not_lt hlt) with heq | hgt
    · exact .inl ⟨heq.symm, by simpa [heq] using h.symm⟩
    · rw [List.getElem?_eq_none (by simp; omega)] at h
      cases h

/-- Everything that `add` can do. -/
theorem add_cases (id : Option ℕ) (w : EventWorld) :
    (add id w).2 = w ∨ ∃ i o, w.find i = some o ∧
      (∀ t ∈ if o.isUdp then w.udpSockets else w.sockets, w.registrations[t]? ≠ some ⟨i, true⟩) ∧
      (add id w).2 = { w with
        registrations := w.registrations ++ [⟨i, true⟩]
        sockets := if o.isUdp then w.sockets else w.sockets ++ [w.registrations.length]
        udpSockets := if o.isUdp then w.udpSockets ++ [w.registrations.length] else w.udpSockets
        log := w.log ++ [.registered w.registrations.length i] } := by
  unfold add
  cases id with
  | none => exact .inl rfl
  | some i =>
    dsimp only
    cases ho : w.find i with
    | none => exact .inl rfl
    | some o =>
      dsimp only
      generalize hfound : List.any (if o.isUdp then w.udpSockets else w.sockets) _ = found
      cases found with
      | true => exact .inl rfl
      | false =>
        rw [List.any_eq_false] at hfound
        exact .inr ⟨i, o, ho, fun t ht he => hfound t ht (decide_eq_true he), rfl⟩

theorem add_objects (id : Option ℕ) (w : EventWorld) : (add id w).2.objects = w.objects := by
  rcases add_cases id w with he | ⟨i, o, -, -, he⟩ <;> rw [he]

/-- There are at least `first` objects, and each satisfies what is said of its place. -/
structure Objects (first : ℕ) (J : ℕ → EventObject → Prop) (w : EventWorld) : Prop where
  le : first ≤ w.objects.length
  each : ∀ i o, w.find i = some o → J i o

namespace Objects

variable {h : LoopHost} {first : ℕ} {J : ℕ → EventObject → Prop} {w w' : EventWorld}

theorem of_eq (he : w'.objects = w.objects) (hw : Objects first J w) : Objects first J w' := by
  refine ⟨he ▸ hw.le, fun i o hi => hw.each i o ?_⟩
  rwa [EventWorld.find, he] at hi

theorem store {id : ℕ} {o : EventObject} (ho : J id o) (hw : Objects first J w) :
    Objects first J (w.store id o) := by
  refine ⟨by simpa [EventWorld.store] using hw.le, fun i o' hi => ?_⟩
  rcases EventWorld.find_store hi with ⟨rfl, rfl⟩ | ⟨-, hold⟩
  · exact ho
  · exact hw.each i o' hold

theorem made {o : EventObject} (ho : J w.objects.length o) (hw : Objects first J w) :
    Objects first J { w with objects := w.objects ++ [some o] } := by
  refine ⟨by simpa using Nat.le_succ_of_le hw.le, fun i o' hi => ?_⟩
  rcases EventWorld.find_made hi with ⟨rfl, rfl⟩ | hold
  · exact ho
  · exact hw.each i o' hold

theorem forget (id : ℕ) (hw : Objects first J w) :
    Objects first J { w with objects := w.objects.set id none } :=
  ⟨by simpa using hw.le, fun i o hi => hw.each i o (EventWorld.find_forget hi)⟩

/-- What the functions of the objects in `S` keep, and the ordinary ones. -/
theorem within {S : ℕ → Prop} (new : ∀ i o, first ≤ i → NewObject (h.objects i) o → J i o)
    (step : ∀ i o o', S i → Part (h.objects i) Socket.Aside o o' → J i o → J i o')
    (ordinary : ∀ i o o', Ordinary (h.objects i) o o' → J i o → J i o') :
    Scoped.Objective h S (Objects first J) where
  object _ id o o' hid ho hstep hw := hw.store (step id o o' hid hstep (hw.each id o ho))
  ordinary _ id o o' ho hstep hw := hw.store (ordinary id o o' hstep (hw.each id o ho))
  made _ o hnew hw := hw.made (new _ o hw.le hnew)
  forget _ id _ _ hw := hw.forget id
  added w id hw := hw.of_eq (add_objects id w)
  removed _ _ _ _ hw := ⟨hw.le, hw.each⟩
  logged _ _ _ hw := ⟨hw.le, hw.each⟩

/-- What the functions of all objects keep. -/
theorem undialled (new : ∀ i o, first ≤ i → NewObject (h.objects i) o → J i o)
    (step : ∀ i o o', Part (h.objects i) Socket.Aside o o' → J i o → J i o') :
    Undialled.Objective h (Objects first J) where
  object _ id o o' ho hstep hw := hw.store (step id o o' hstep (hw.each id o ho))
  made _ o hnew hw := hw.made (new _ o hw.le hnew)
  forget _ id _ hw := hw.forget id
  added w id hw := hw.of_eq (add_objects id w)
  removed _ _ _ hw := ⟨hw.le, hw.each⟩
  objects _ _ he hw := hw.of_eq he

/-- The same for everything that can happen to an object. -/
theorem objective (new : ∀ i o, first ≤ i → NewObject (h.objects i) o → J i o)
    (step : ∀ i o o', ObjectStep (h.objects i) o o' → J i o → J i o') :
    Objective h (Objects first J) :=
  have hparts := undialled new fun i o o' hpart => step i o o' hpart.step
  { object := fun _ id o o' ho hstep hw => hw.store (step id o o' hstep (hw.each id o ho))
    made := hparts.made
    forget := hparts.forget
    added := hparts.added
    removed := hparts.removed
    objects := hparts.objects }

end Objects

/-- The operations of the system keep an invariant of the objects, when the handlers do. -/
theorem Objective.execSystem {h : LoopHost} {fuel : ℕ} {I : EventWorld → Prop}
    {cb : EventNote → Code EventWorld Unit} (hI : Objective h I) (hcb : ∀ n, Keeps I (cb n)) (o : EventOp) :
    Keeps I ((system h fuel).exec cb o) := by
  have hrecorded := recording_keeps (fun w _ => hI.objects w _ rfl) hcb
  exact hI.exec hrecorded (fun timeoutMs => hI.undialled.poll hrecorded timeoutMs) o

/-- An invariant of the objects holds in every state that a program reaches. -/
theorem EventLoop.Reaches.objective {h : LoopHost} {fuel : ℕ} {I : EventWorld → Prop}
    {w : EventWorld} (hw : Reaches h fuel w) (hI : Objective h I) (hstart : I {}) : I w := by
  refine hw.keeps (fun o cb real t _ ht => ?_) hstart
  exact hI.execSystem (real.keeps fun o cb _ hcb t _ => hI.execSystem hcb o t) o t ht

/-- What a new object satisfies and every function keeps, every object of a program satisfies. -/
theorem EventLoop.Reaches.each {h : LoopHost} {fuel id : ℕ} {J : EventObject → Prop} {w : EventWorld}
    {o : EventObject} (hw : Reaches h fuel w) (new : ∀ e o, NewObject e o → J o)
    (step : ∀ e o o', ObjectStep e o o' → J o → J o') (ho : w.find id = some o) : J o := by
  have hobjects : Objective h (Objects 0 fun _ => J) :=
    Objects.objective (fun _ o _ => new _ o) fun _ o o' => step _ o o'
  refine (hw.objective hobjects ⟨Nat.zero_le _, fun i o hi => ?_⟩).each id o ho
  simp [EventWorld.find] at hi

end Aeon
