import Aeon.SessionUpkeep

/-!
# Properties of the TLS objects of a program

What the functions of a TLS object keep, every program keeps, whatever its
handlers do.  While a TLS object connects, a weaker property may hold of it.
-/

namespace Aeon

open Program Reentrant EventWorld EventLoop

namespace Socket

variable (h : Host)

theorem aside_pendingConnect : Aside fun s => (s.pendingConnect h).2 := by
  intro s
  unfold pendingConnect
  dsimp only
  split
  · exact ⟨rfl, rfl, rfl, Nat.le_add_right _ 1⟩
  · split
    · split
      · split <;> exact ⟨rfl, rfl, rfl, Nat.le_add_right _ 3⟩
      · split <;> exact ⟨rfl, rfl, rfl, Nat.le_add_right _ 2⟩
    · exact ⟨rfl, rfl, rfl, Nat.le_add_right _ 1⟩

theorem aside_nativeConnect : Aside fun s => (s.nativeConnect h).2 := by
  intro s
  unfold nativeConnect
  dsimp only
  split
  · unfold guardedConnect
    dsimp only
    have hmode := aside_setBlocking h false s
    split
    · exact hmode.trans ⟨rfl, rfl, rfl, le_rfl⟩
    · have hpending := aside_pendingConnect h (s.setBlocking h false).2
      have hback := aside_setBlocking h s.blocking ((s.setBlocking h false).2.pendingConnect h).2
      have hall := (hmode.trans hpending).trans hback
      split
      · exact hall.trans ⟨rfl, rfl, rfl, le_rfl⟩
      · exact hall
  · unfold plainConnect
    dsimp only
    split <;> exact ⟨rfl, rfl, rfl, Nat.le_succ _⟩

end Socket

/-- The functions of the base class keep `I` while they connect an object, and leave
it in `M` when they have connected it. -/
structure This.Dials {σ : Type} (h : Host) (this : This σ) (I M : σ → Prop) : Prop where
  aside : ∀ {α : Type} (f : Socket → α × Socket), Socket.Aside (fun s => (f s).2) →
    Keeps I (this.run f)
  create : ∀ family, Keeps I (this.run fun s =>
    ((s.create h family).1, { (s.create h family).2 with connected := false }))
  close : Keeps I this.close
  done : Triple I (this.run fun s => ((), s.connectDone)) (fun _ => M) fun _ => I
  failed : Keeps I (this.run fun s => ((), { s with connected := false }))
  connected : Triple M (this.run fun s => ((), { s with connected := true })) (fun _ => M) fun _ => I

namespace This.Dials

variable {σ : Type} {h : Host} {this : This σ} {I M : σ → Prop} (hd : this.Dials h I M)

/-- What a function that connects leaves. -/
abbrev Outcome (I M : σ → Prop) (ok : Bool) (s : σ) : Prop := if ok then M s else I s

include hd

theorem tcpConnectAddress (family : Family) :
    Triple I (tcpConnectAddress h this family) (Outcome I M) fun _ => I := by
  have hfalse : Triple I (pure false : Code σ Bool) (Outcome I M) fun _ => I := .ret fun _ hs => hs
  unfold Aeon.tcpConnectAddress
  refine .ite (fun _ => ?_) fun _ => ?_
  · exact (keeps_iff.mp (hd.aside _ fun _ => ⟨rfl, rfl, rfl, le_rfl⟩)).bind fun _ => hfalse
  · refine (keeps_iff.mp hd.close).bind fun _ => ?_
    refine (keeps_iff.mp (hd.create family)).bind fun made => .ite (fun _ => hfalse) fun _ => ?_
    refine (keeps_iff.mp (hd.aside _ (Socket.aside_nativeConnect h))).bind fun succeeded => ?_
    refine .ite (fun _ => ?_) fun _ => ?_
    · exact (keeps_iff.mp hd.close).bind fun _ => hfalse
    · exact hd.done.bind fun _ => .ret fun _ hs => hs

theorem tcpConnectEntries (entries : List Family) :
    Triple I (tcpConnectEntries h this entries) (Outcome I M) fun _ => I := by
  induction entries with
  | nil => exact .ret fun _ hs => hs
  | cons family entries ih =>
    have hfirst : Triple I (do
        let success ← Aeon.tcpConnectAddress h this family
        if success then return true else Aeon.tcpConnectEntries h this entries)
        (Outcome I M) fun _ => I := by
      refine (hd.tcpConnectAddress family).bind fun success => ?_
      cases success with
      | true => exact .ret fun _ hs => hs
      | false => exact ih
    cases family with
    | inet => exact hfirst
    | inet6 => exact hfirst
    | other => exact ih

theorem tcpConnectStored : Triple I (tcpConnectStored h this) (Outcome I M) fun _ => I := by
  unfold Aeon.tcpConnectStored
  refine (keeps_iff.mp (hd.aside _ fun s => ?_)).bind fun entries => ?_
  · dsimp only
    split
    · exact ⟨rfl, rfl, rfl, le_rfl⟩
    · cases h.getaddrinfo s.tick <;> exact ⟨rfl, rfl, rfl, Nat.le_succ _⟩
  · cases entries with
    | none => exact .ret fun _ hs => hs
    | some entries =>
      refine (hd.tcpConnectEntries entries).bind fun success => ?_
      cases success with
      | true => exact hd.connected.bind fun _ => .ret fun _ hs => hs
      | false => exact (keeps_iff.mp hd.failed).bind fun _ => .ret fun _ hs => hs

theorem tcpConnectHost (hostname : Option String) (port : Int) :
    Triple I (tcpConnectHost h this hostname port) (Outcome I M) fun _ => I := by
  unfold Aeon.tcpConnectHost
  refine .ite (fun _ => ?_) fun _ => ?_
  · exact (keeps_iff.mp (hd.aside _ fun _ => ⟨rfl, rfl, rfl, le_rfl⟩)).bind fun _ => .ret fun _ hs => hs
  · exact (keeps_iff.mp (hd.aside _ fun _ => ⟨rfl, rfl, rfl, le_rfl⟩)).bind fun _ => hd.tcpConnectStored

end This.Dials

/-- `P` holds of the object, if it is a TLS object. -/
def EventObject.Tls (P : SslEventSocket → Prop) : EventObject → Prop
  | .tls s => P s
  | _ => True

theorem EventObject.Tls.of_cls {P : SslEventSocket → Prop} {o : EventObject} (h : o.cls ≠ .tls) :
    o.Tls P := by
  cases o with
  | tls s => exact absurd rfl h
  | _ => trivial

theorem EventObject.Tls.imp {P Q : SslEventSocket → Prop} {o : EventObject} (h : o.Tls P)
    (hPQ : ∀ s, P s → Q s) : o.Tls Q := by
  cases o with
  | tls s => exact hPQ s h
  | _ => trivial

/-- Every TLS object satisfies what is said of its place. -/
abbrev Sessions (first : ℕ) (P : ℕ → SslEventSocket → Prop) : EventWorld → Prop :=
  Objects first fun i o => o.Tls (P i)

/-- The object has been made, and it is of another class or gone. -/
abbrev NotTls (id : ℕ) : EventWorld → Prop := Objects (id + 1) fun i o => i = id → o.cls ≠ .tls

theorem NotTls.objective (h : LoopHost) (id : ℕ) : Objective h (NotTls id) :=
  Objects.objective (fun _ _ hle _ hi => absurd hi (Nat.ne_of_gt hle)) fun _ _ _ hstep ho hi =>
    hstep.cls ▸ ho hi

/-- Every TLS object is in a state that satisfies `P`, except that the one which is
being connected satisfies `K`. -/
structure Carried (h : LoopHost) (first : ℕ) (P K : ℕ → SslEventSocket → Prop) : Prop where
  weaken : ∀ i s, P i s → K i s
  made : ∀ i s, first ≤ i → NewObject (h.objects i) (.tls s) → P i s
  part : ∀ i s o, Part (h.objects i) Socket.Aside (.tls s) o → P i s → ∃ t, o = .tls t ∧ P i t
  create : ∀ i (s : SslEventSocket) family, P i s → P i { s with
    toSocket := { (s.toSocket.create (h.objects i).tls.toHost family).2 with connected := false } }
  failed : ∀ i (s : SslEventSocket), P i s → P i { s with connected := false }
  done : ∀ i (s : SslEventSocket), P i s → K i { s with toSocket := s.toSocket.connectDone }
  connected : ∀ i (s : SslEventSocket), K i s → K i { s with connected := true }
  start : ∀ i (s : SslEventSocket) identity, K i s →
    P i (s.startClient (h.objects i).tls identity).2

/-- What any code of the system does: it keeps `I`, and which objects are TLS objects. -/
structure Carries (I : EventWorld → Prop) (a b : EventWorld) : Prop where
  keep : I a → I b
  notTls : ∀ id, NotTls id a → NotTls id b

namespace Carries

variable {I : EventWorld → Prop} {a b c : EventWorld}

theorem refl (a : EventWorld) : Carries I a a := ⟨fun hw => hw, fun _ hw => hw⟩

theorem trans (hab : Carries I a b) (hbc : Carries I b c) : Carries I a c :=
  ⟨fun hw => hbc.keep (hab.keep hw), fun id hw => hbc.notTls id (hab.notTls id hw)⟩

end Carries

namespace Sessions

variable {α : Type} {first id : ℕ} {P Q R : ℕ → SslEventSocket → Prop}

/-- A function of one TLS object. -/
theorem call {f : EventObject → α × EventObject}
    (hf : ∀ s, ∃ t, (f (.tls s)).2 = .tls t ∧ (P id s → Q id t))
    (hcls : ∀ o, (f o).2.cls = o.cls) (hQ : ∀ i t, i ≠ id → P i t → Q i t)
    (hR : ∀ i t, i ≠ id → P i t → R i t) :
    Triple (Sessions first P) (EventWorld.call id f) (fun _ => Sessions first Q)
      fun _ => Sessions first R := by
  intro w hw
  unfold EventWorld.call
  cases ho : w.find id with
  | none =>
    refine ⟨hw.le, fun i o hi => (hw.each i o hi).imp fun t => hR i t fun heq => ?_⟩
    rw [heq, ho] at hi
    cases hi
  | some o =>
    refine ⟨by simpa [EventWorld.store] using hw.le, fun i o' hi => ?_⟩
    rcases find_store hi with ⟨rfl, rfl⟩ | ⟨hne, hold⟩
    · by_cases hclass : o.cls = .tls
      · obtain ⟨s, rfl⟩ := EventObject.exists_of_cls hclass
        obtain ⟨t, ht, hkeep⟩ := hf s
        rw [ht]
        exact hkeep (hw.each i _ ho)
      · exact .of_cls ((hcls o).symm ▸ hclass)
    · exact (hw.each i o' hold).imp fun t => hQ i t hne

/-- A function of the base object of one TLS object. -/
theorem onSocket {f : Socket → α × Socket}
    (hf : ∀ s : SslEventSocket, P id s → Q id { s with toSocket := (f s.toSocket).2 })
    (hQ : ∀ i t, i ≠ id → P i t → Q i t) (hR : ∀ i t, i ≠ id → P i t → R i t) :
    Triple (Sessions first P) (EventWorld.call id (EventObject.onSocket f))
      (fun _ => Sessions first Q) fun _ => Sessions first R :=
  call (fun s => ⟨_, rfl, hf s⟩) (EventObject.onSocket_cls f) hQ hR

/-- What is done to an object of another class. -/
theorem other {f : EventObject → α × EventObject} (hf : ∀ o, (f o).2.cls = o.cls) {w : EventWorld}
    (hw : Sessions first P w) (hnot : NotTls id w) : Sessions first P (EventWorld.call id f w).2 := by
  unfold EventWorld.call
  cases ho : w.find id with
  | none => exact hw
  | some o => exact hw.store (.of_cls ((hf o).symm ▸ hnot.each id o ho rfl))

end Sessions

namespace Carried

variable {h : LoopHost} {first fuel id : ℕ} {P K : ℕ → SslEventSocket → Prop}
variable {cb : EventNote → Code EventWorld Unit} (hP : Carried h first P K)

include hP

theorem object (i : ℕ) (o o' : EventObject) (hpart : Part (h.objects i) Socket.Aside o o')
    (ho : o.Tls (P i)) : o'.Tls (P i) := by
  by_cases hclass : o.cls = .tls
  · obtain ⟨s, rfl⟩ := EventObject.exists_of_cls hclass
    obtain ⟨t, rfl, ht⟩ := hP.part i s o' hpart ho
    exact ht
  · exact .of_cls (hpart.step.cls.symm ▸ hclass)

theorem objective : Undialled.Objective h (Sessions first P) := by
  refine Objects.undialled (fun i o hle hnew => ?_) hP.object
  cases o with
  | tls s => exact hP.made i s hle hnew
  | _ => trivial

section Handlers

variable (hcb : ∀ n, Keeps (Sessions first P) (cb n))

include hcb

/-- A connect of an object, whose handlers keep `P`. -/
theorem dials (id : ℕ) : This.Dials (h.objects id).tls.toHost (this h cb id) (Sessions first P)
    (Sessions first fun i t => K i t ∧ (i ≠ id → P i t)) where
  aside _ hf := hP.objective.toUndialled.global.callSocket hf
  create family := keeps_iff.mpr
    (Sessions.onSocket (fun s hs => hP.create id s family hs) (fun _ _ _ ht => ht) fun _ _ _ ht => ht)
  close := hP.objective.toUndialled.global.close hcb id
  done := Sessions.onSocket (fun s hs => ⟨hP.done id s hs, fun hne => absurd rfl hne⟩)
    (fun i t _ ht => ⟨hP.weaken i t ht, fun _ => ht⟩) fun _ _ _ ht => ht
  failed := keeps_iff.mpr
    (Sessions.onSocket (fun s hs => hP.failed id s hs) (fun _ _ _ ht => ht) fun _ _ _ ht => ht)
  connected := Sessions.onSocket
    (fun s hs => ⟨hP.connected id s hs.1, fun hne => absurd rfl hne⟩) (fun _ _ _ ht => ht)
    fun _ _ hi ht => ht.2 hi

theorem connectTls (target : TlsTarget) : Keeps (Sessions first P) (connectTls h cb id target) := by
  have hd := hP.dials hcb id
  refine hP.objective.toUndialled.global.connectTls hcb
    (M := Sessions first fun i t => K i t ∧ (i ≠ id → P i t)) target ?_ fun identity => ?_
  · cases target with
    | host hostname port => exact hd.tcpConnectHost hostname port
    | address family text port => exact hd.tcpConnectAddress family
  · exact Sessions.call (fun s => ⟨_, rfl, fun hs => hP.start id s identity hs.1⟩)
      (EventObject.onTls_cls _ _) (fun i t hi ht => ht.2 hi) fun i t hi ht => ht.2 hi

end Handlers

theorem and_notTls (id : ℕ) :
    Scoped h (fun _ => True) fun w => Sessions first P w ∧ NotTls id w :=
  hP.objective.toUndialled.global.and (NotTls.objective h id).undialled.toUndialled.global

section OtherClasses

variable (hcb : ∀ n, Keeps (fun w => Sessions first P w ∧ NotTls id w) (cb n))

include hcb

/-- The base functions of an object of another class. -/
theorem preserves : This.Preserves (h.objects id).tls.toHost (this h cb id)
    (fun w => Sessions first P w ∧ NotTls id w) fun w => Sessions first P w ∧ NotTls id w where
  weaken _ hw := hw
  run f hf := fun w hw => ⟨Sessions.other (EventObject.onSocket_cls f) hw.1 hw.2,
    (NotTls.objective h id).call (fun o => .socket f hf o) w hw.2⟩
  create family hf := by
    refine keeps_iff.mp fun w hw => ⟨Sessions.other (EventObject.onSocket_cls _) hw.1 hw.2, ?_⟩
    exact (NotTls.objective h id).call (fun o => .create family _ hf o) w hw.2
  close := keeps_iff.mp ((hP.and_notTls id).close hcb id)

end OtherClasses

omit hP in
/-- An operation on an object of another class. -/
theorem only_other {c : EventObject → Bool} {m : Code EventWorld Unit}
    (hclass : ∀ s, c (.tls s) = false) (hm : Keeps (fun w => Sessions first P w ∧ NotTls id w) m) :
    Keeps (Sessions first P) (only c id m) := by
  intro w hw
  unfold only
  rw [Code.bind_run, Code.read_run]
  dsimp only
  split
  · rename_i hany
    cases ho : w.find id with
    | none =>
      rw [ho] at hany
      cases hany
    | some o =>
      rw [ho, Option.any_some] at hany
      refine (hm w ⟨hw, lt_of_find ho, fun i o' ho' hi => ?_⟩).1
      rw [hi, ho] at ho'
      obtain rfl := Option.some.inj ho'
      intro hcls
      obtain ⟨s, rfl⟩ := EventObject.exists_of_cls hcls
      rw [hclass] at hany
      cases hany
  · exact hw

theorem exec (hcb : ∀ n t, Carries (Sessions first P) t (cb n t).2) (o : EventOp) (a : EventWorld) :
    Carries (Sessions first P) a (exec h cb fuel o a).2 := by
  have hkeep (n : EventNote) : Keeps (Sessions first P) (cb n) := fun t => (hcb n t).keep
  have hnot (id : ℕ) (n : EventNote) : Keeps (NotTls id) (cb n) := fun t => (hcb n t).notTls id
  have hboth (id : ℕ) (n : EventNote) : Keeps (fun w => Sessions first P w ∧ NotTls id w) (cb n) :=
    fun t ht => ⟨hkeep n t ht.1, hnot id n t ht.2⟩
  refine ⟨?_, fun id => ?_⟩
  · have hI := hP.objective
    refine hI.toUndialled.global.exec hkeep (fun timeoutMs => hI.poll hkeep timeoutMs)
      (fun id target _ => ?_) (fun id target _ => ?_) (fun id ip port _ => ?_) o a (o.within_all a)
    · refine only_other (fun _ => rfl) (Keeps.bind ?_ fun _ => .pure _)
      exact (hP.and_notTls id).connectTcp (hboth id) (hP.preserves (hboth id)) trivial target
    · exact keeps_only ((hP.connectTls hkeep target).bind fun _ => .pure _)
    · refine only_other (fun _ => rfl) (Keeps.bind ?_ fun _ => .pure _)
      exact (hP.and_notTls id).listen (hboth id) (hP.preserves (hboth id)) trivial ip port
  · have hI := NotTls.objective h id
    exact hI.exec (hnot id) (fun timeoutMs => hI.undialled.poll (hnot id) timeoutMs) o a

/-- The same for the operations of the system. -/
theorem execSystem (hcb : ∀ n t, Carries (Sessions first P) t (cb n t).2) (o : EventOp)
    (a : EventWorld) : Carries (Sessions first P) a ((system h fuel).exec cb o a).2 :=
  hP.exec (fun n t => Carries.trans (b := { t with calls := t.calls ++ [n] })
    ⟨.of_eq rfl, fun _ => .of_eq rfl⟩ (hcb n _)) o a

/-- Handlers keep `P`. -/
theorem handlers (real : Realizable (system h fuel) (fun _ _ => True) (fun _ _ => True) cb)
    (n : EventNote) (t : EventWorld) : Carries (Sessions first P) t (cb n t).2 :=
  (real.steps n t).within .refl (fun _ _ _ => .trans) fun o _ _ hcb t _ => hP.execSystem hcb o t

end Carried

/-- A property of the TLS objects holds in every state that a program reaches. -/
theorem EventLoop.Reaches.carried {h : LoopHost} {fuel id : ℕ} {P K : ℕ → SslEventSocket → Prop}
    {w : EventWorld} {s : SslEventSocket} (hw : Reaches h fuel w) (hP : Carried h 0 P K)
    (hs : w.find id = some (.tls s)) : P id s := by
  have hsessions : Sessions 0 P w := by
    refine hw.keeps (fun o cb real t _ ht => (hP.execSystem (hP.handlers real) o t).keep ht)
      ⟨Nat.zero_le _, fun i o hi => ?_⟩
    simp [EventWorld.find] at hi
  exact hsessions.each id _ hs

end Aeon
