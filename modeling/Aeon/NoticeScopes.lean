import Aeon.PollNotices
import Aeon.TlsPrograms

/-!
# What handlers respect of a TLS socket

Handlers may do anything to other objects, and to the socket `id` what an
application may do at any time.  `Respected` lists invariants about the socket that
such handlers keep.  A `poll` that such handlers run in keeps the account of what it
has told the handlers of the socket.
-/

namespace Aeon

open Program Reentrant EventWorld EventLoop SslEventSocket

section Registrations

variable {w : EventWorld} {t i : ℕ} {b : Bool}

theorem add_registration (id : Option ℕ) {r : Registration} (hr : w.registrations[t]? = some r) :
    (add id w).2.registrations[t]? = some r := by
  rcases add_cases id w with he | ⟨j, o, -, -, he⟩
  · rwa [he]
  · rw [he]
    exact (List.getElem?_append_left (List.getElem?_eq_some_iff.mp hr).1).trans hr

theorem deactivate_registration (u : ℕ) (hr : w.registrations[t]? = some ⟨i, b⟩) :
    (deactivate u w).registrations[t]? = some ⟨i, b && decide (t ≠ u)⟩ := by
  by_cases hu : u = t
  · simp [deactivate, hr, hu]
  · simp [deactivate, hr, hu, Ne.symm hu]

end Registrations

/-- What no step of a program takes back: a token stays with its object, an object
stays what it is, and a new datagram token is not that of a TLS object. -/
structure Forward (id : ℕ) (w w' : EventWorld) : Prop where
  registrations : ∀ (t i : ℕ) (b : Bool), w.registrations[t]? = some ⟨i, b⟩ →
    ∃ b' : Bool, w'.registrations[t]? = some ⟨i, b'⟩
  objects : w.objects.length ≤ w'.objects.length
  notTls : NotTls id w → NotTls id w'
  datagrams : ∀ t ∈ w'.udpSockets, t ∈ w.udpSockets ∨
    ∃ i b, w'.registrations[t]? = some ⟨i, b⟩ ∧ (i = id → NotTls id w')

namespace Forward

variable {h : LoopHost} {S : ℕ → Prop} {id : ℕ} {w w' : EventWorld} {I : EventWorld → Prop}

/-- Only objects change. -/
theorem of_notTls (hobjects : w.objects.length ≤ w'.objects.length) (hnot : NotTls id w → NotTls id w')
    (hregs : w'.registrations = w.registrations) (hudp : w'.udpSockets = w.udpSockets) :
    Forward id w w' where
  registrations _ _ b hr := ⟨b, hregs ▸ hr⟩
  objects := hobjects
  notTls := hnot
  datagrams _ ht := .inl (hudp ▸ ht)

theorem store {i : ℕ} {o o' : EventObject} (ho : w.find i = some o) (hcls : o'.cls = o.cls) :
    Forward id w (w.store i o') := by
  refine .of_notTls (by simp [EventWorld.store]) (fun hnot => ?_) rfl rfl
  exact Objects.store (fun hi => hcls ▸ hnot.each i o ho hi) hnot

theorem added (i : Option ℕ) (w : EventWorld) : Forward id w (add i w).2 := by
  refine ⟨fun t j b hr => ⟨b, add_registration i hr⟩, by rw [add_objects], fun hnot => ?_, fun t ht => ?_⟩
  · exact hnot.of_eq (add_objects i w)
  · rcases add_cases i w with he | ⟨j, o, ho, -, he⟩
    · rw [he] at ht
      exact .inl ht
    · rw [he] at ht ⊢
      dsimp only at ht ⊢
      split at ht
      · rename_i hudp
        refine (List.mem_append.mp ht).imp (fun hold => hold) fun hnew => ?_
        obtain rfl := List.mem_singleton.mp hnew
        refine ⟨j, true, by simp, ?_⟩
        rintro rfl
        refine ⟨lt_of_find ho, fun k o' ho' hk => ?_⟩
        subst hk
        obtain rfl := Option.some.inj (ho.symm.trans ho')
        cases o with
        | udp server s => simp [EventObject.cls]
        | _ => cases hudp
      · exact .inl ht

theorem removed (u : ℕ) (w : EventWorld) : Forward id w (deactivate u w) where
  registrations _ _ _ hr := ⟨_, deactivate_registration u hr⟩
  objects := le_rfl
  notTls hnot := ⟨hnot.le, hnot.each⟩
  datagrams _ ht := .inl (List.mem_of_mem_erase ht)

/-- An invariant that holds from some state onward. -/
theorem objective (hI : ∀ w w', Forward id w w' → I w → I w') : Scoped.Objective h S I where
  object _ _ _ _ _ ho hpart := hI _ _ (.store ho hpart.step.cls)
  ordinary _ _ _ _ ho hpart := hI _ _ (.store ho hpart.part.step.cls)
  made w o hnew := by
    refine hI _ _ (.of_notTls (by simp) (fun hnot => hnot.made fun hi => ?_) rfl rfl)
    exact absurd hi (Nat.ne_of_gt hnot.le)
  forget w i _ _ := hI _ _ (.of_notTls (by simp) (fun hnot => hnot.forget i) rfl rfl)
  added w i := hI _ _ (.added i w)
  removed w t _ _ := hI _ _ (.removed t w)
  logged w _ _ := hI _ _ (.of_notTls le_rfl (fun hnot => ⟨hnot.le, hnot.each⟩) rfl rfl)

end Forward

/-- No token of the datagram sockets is that of a TLS object. -/
def StreamOnly (id : ℕ) (w : EventWorld) : Prop :=
  ∀ t ∈ w.udpSockets, ∃ i b, w.registrations[t]? = some ⟨i, b⟩ ∧ (i = id → NotTls id w)

theorem StreamOnly.forward {id : ℕ} {w w' : EventWorld} (h : Forward id w w') (hw : StreamOnly id w) :
    StreamOnly id w' := by
  intro t ht
  rcases h.datagrams t ht with hold | hnew
  · obtain ⟨i, b, hr, hnot⟩ := hw t hold
    obtain ⟨b', hr'⟩ := h.registrations t i b hr
    exact ⟨i, b', hr', fun hi => h.notTls (hnot hi)⟩
  · exact hnew

/-- The watches of the socket are those of its tokens, and a datagram watch is not
that of a TLS object. -/
def OwnWatches (id : ℕ) (ps : List Watch) (w : EventWorld) : Prop :=
  ∀ p ∈ ps, p.socket = id → (∃ b, w.registrations[p.token]? = some ⟨id, b⟩) ∧ id < w.objects.length ∧
    (p.udp = true → NotTls id w)

theorem OwnWatches.forward {id : ℕ} {ps : List Watch} {w w' : EventWorld} (h : Forward id w w')
    (hw : OwnWatches id ps w) : OwnWatches id ps w' := by
  intro p hp hid
  obtain ⟨⟨b, hr⟩, hlt, hnot⟩ := hw p hp hid
  exact ⟨h.registrations _ _ b hr, hlt.trans_le h.objects, fun hudp => h.notTls (hnot hudp)⟩

/-- Which descriptors a session of the socket may have: any at all, or none while the
socket is being connected.  An object that is still to be made may have any. -/
structure Footing (id first : ℕ) (F : Option ℕ → Prop) : Prop where
  le : first ≤ id + 1
  closed : ¬F none
  made : first ≤ id → F = Attached

theorem Footing.live (id : ℕ) : Footing id 0 Attached := ⟨Nat.zero_le _, fun h => h rfl, fun _ => rfl⟩

theorem Footing.dialled (id : ℕ) : Footing id (id + 1) fun _ => False :=
  ⟨le_rfl, fun h => h, fun hle => absurd hle (Nat.not_succ_le_self id)⟩

/-- What the handlers of the TLS object `id` have been told, if it is one. -/
abbrev Noted (id first : ℕ) (F : Option ℕ → Prop) (w : EventWorld) : Prop :=
  Sessions first (fun i s => i = id → Account .underway F s) w ∧ StreamOnly id w

theorem Noted.of_eq {id first : ℕ} {F : Option ℕ → Prop} {w w' : EventWorld} (hw : Noted id first F w)
    (hobjects : w'.objects = w.objects) (hregs : w'.registrations = w.registrations)
    (hudp : w'.udpSockets = w.udpSockets) : Noted id first F w' :=
  ⟨hw.1.of_eq hobjects, hw.2.forward (.of_notTls (hobjects ▸ le_rfl) (·.of_eq hobjects) hregs hudp)⟩

section Scopes

variable {h : LoopHost} {id first : ℕ} {F : Option ℕ → Prop}
variable (hclose : ∀ tick, (h.objects id).tls.close tick = 0)

include hclose

theorem Noted.scope (hF : Footing id first F) :
    Scoped.Objective h (· ≠ id) (Noted id first F) := by
  refine .and (Objects.within (fun i o hle hnewo => ?_) (fun i o o' hi _ _ => ?_)
    fun i o o' hord ho => ?_) (Forward.objective fun _ _ => StreamOnly.forward)
  · cases o with
    | tls s =>
      rintro rfl
      exact hF.made hle ▸ EventObject.account_new hnewo rfl
    | _ => trivial
  · cases o' with
    | tls s => exact fun heq => absurd heq hi
    | _ => trivial
  · by_cases hi : i = id
    · subst hi
      by_cases hcls : o.cls = .tls
      · obtain ⟨s, rfl⟩ := EventObject.exists_of_cls hcls
        obtain ⟨t, rfl, ht⟩ := EventObject.account_ordinary hclose hF.closed hord (ho rfl)
        exact fun _ => ht
      · exact .of_cls (hord.part.step.cls.symm ▸ hcls)
    · cases o' with
      | tls s => exact fun heq => absurd heq hi
      | _ => trivial

theorem Serving.scope {p : Watch} {σ : Stage} (hp : p.socket = id) (hF : ¬F none) :
    Scoped.Objective h (· ≠ id) (Serving p (Account σ F)) where
  object w i o o' hi ho _ hw := by
    obtain ⟨s, hs, haccount⟩ := hw.object
    refine ⟨hw.polling, hw.registered, s, ?_, haccount⟩
    rwa [find_store_ne (hp.trans_ne (Ne.symm hi))]
  ordinary w i o o' ho hord hw := by
    obtain ⟨s, hs, haccount⟩ := hw.object
    by_cases hi : p.socket = i
    · subst hi
      obtain rfl := Option.some.inj (ho.symm.trans hs)
      obtain ⟨t, rfl, ht⟩ := EventObject.account_ordinary (hp ▸ hclose) hF hord haccount
      exact ⟨hw.polling, hw.registered, t, find_store_same hs, ht⟩
    · exact ⟨hw.polling, hw.registered, s, (find_store_ne hi).trans hs, haccount⟩
  made w o _ hw := by
    obtain ⟨s, hs, haccount⟩ := hw.object
    exact ⟨hw.polling, hw.registered, s, find_made_old hs, haccount⟩
  forget w i hi _ hw := by
    obtain ⟨s, hs, haccount⟩ := hw.object
    have hne : p.socket ≠ i := hp.trans_ne (Ne.symm hi)
    exact ⟨hw.polling, hw.registered, s, (find_forget_ne hne).trans hs, haccount⟩
  added w i hw := by
    obtain ⟨s, hs, haccount⟩ := hw.object
    refine ⟨?_, add_registration i hw.registered, s, ?_, haccount⟩
    · rcases add_cases i w with he | ⟨j, o, -, -, he⟩ <;> rw [he] <;> exact hw.polling
    · rwa [EventWorld.find, add_objects]
  removed w t _ hfree hw := by
    have hne : p.token ≠ t := by
      rintro rfl
      exact hfree _ hw.registered hp
    obtain ⟨s, hs, haccount⟩ := hw.object
    refine ⟨hw.polling, ?_, s, hs, haccount⟩
    simpa [hne] using deactivate_registration t hw.registered
  logged _ _ _ hw := hw.of_eq rfl rfl rfl

end Scopes

theorem locked_scope (h : LoopHost) (S : ℕ → Prop) :
    Scoped.Objective h S fun w => w.polling = true where
  object _ _ _ _ _ _ _ hw := hw
  ordinary _ _ _ _ _ _ hw := hw
  made _ _ _ hw := hw
  forget _ _ _ _ hw := hw
  added w i hw := by
    rcases add_cases i w with he | ⟨j, o, -, -, he⟩ <;> rw [he] <;> exact hw
  removed _ _ _ _ hw := hw
  logged _ _ _ hw := hw

/-- The invariants about the socket `id` that handlers keep. -/
inductive Respected (id : ℕ) : (EventWorld → Prop) → Prop
  | forward (I : EventWorld → Prop) (hI : ∀ w w', Forward id w w' → I w → I w') : Respected id I
  | locked : Respected id fun w => w.polling = true
  | serving (p : Watch) (hp : p.socket = id) (σ : Stage) (F : Option ℕ → Prop) (hF : ¬F none) :
      Respected id (Serving p (Account σ F))
  | noted (first : ℕ) (F : Option ℕ → Prop) (hF : Footing id first F) :
      Respected id (Noted id first F)

/-- Handlers that keep them, and that do not end a `poll` they are called from. -/
structure Respectful (id : ℕ) (cb : EventNote → Code EventWorld Unit) : Prop where
  keeps : ∀ n I, Respected id I → Keeps I (cb n)
  returns : ∀ n w e, w.polling = true → (cb n w).1 ≠ .error e

namespace Respected

variable {h : LoopHost} {id : ℕ} {I : EventWorld → Prop}

theorem scope (hI : Respected id I) (hclose : ∀ tick, (h.objects id).tls.close tick = 0) :
    Scoped.Objective h (· ≠ id) I := by
  cases hI with
  | forward _ hI => exact Forward.objective hI
  | locked => exact locked_scope h _
  | serving p hp σ F hF => exact Serving.scope hclose hp hF
  | noted first F hF => exact Noted.scope hclose hF

/-- Other objects may also connect and listen. -/
theorem opening (hI : Respected id I) (w : EventWorld) (i : ℕ) (o o' : EventObject) (hi : i ≠ id)
    (ho : w.find i = some o) (hstep : ObjectStep (h.objects i) o o') (hw : I w) : I (w.store i o') := by
  have hforward : Forward id w (w.store i o') := .store ho hstep.cls
  cases hI with
  | forward _ hI => exact hI _ _ hforward hw
  | locked => exact hw
  | serving p hp σ F _ =>
    obtain ⟨s, hs, haccount⟩ := hw.object
    refine ⟨hw.polling, hw.registered, s, ?_, haccount⟩
    rwa [find_store_ne (hp.trans_ne (Ne.symm hi))]
  | noted first F =>
    refine ⟨hw.1.store ?_, hw.2.forward hforward⟩
    cases o' with
    | tls s => exact fun heq => absurd heq hi
    | _ => trivial

/-- They do not depend on which handlers have been called. -/
theorem recorded (hI : Respected id I) (w : EventWorld) (n : EventNote) (hw : I w) :
    I { w with calls := w.calls ++ [n] } := by
  cases hI with
  | forward _ hI => exact hI w _ (.of_notTls le_rfl (fun hnot => ⟨hnot.le, hnot.each⟩) rfl rfl) hw
  | locked => exact hw
  | serving => exact hw.of_eq rfl rfl rfl
  | noted => exact hw.of_eq rfl rfl rfl

end Respected

theorem Respectful.recording {id : ℕ} {cb : EventNote → Code EventWorld Unit}
    (hcb : Respectful id cb) : Respectful id (recording cb) where
  keeps n _ hI := recording_keeps hI.recorded (fun n => hcb.keeps n _ hI) n
  returns n _ e hlock := hcb.returns n _ e hlock

section Polls

variable {h : LoopHost} {cb : EventNote → Code EventWorld Unit} {fuel : ℕ} {w : EventWorld}

/-- A `poll` inside of another one gives up. -/
theorem poll_locked (hw : w.polling = true) (timeoutMs : Int) :
    (poll h cb fuel timeoutMs w).2 = w := by
  have hsame : { w with polling := true } = w := by rw [← hw]
  unfold poll
  split
  · rfl
  · simpa [Code.bind_run, hw] using hsame

/-- A watch whose token is not active any more is left alone. -/
theorem dispatch_inactive {p : Watch} (hoff : w.active p.token = false) (ps : List Watch)
    (flags : Flags) : (dispatch h cb ps p flags w).2 = w := by
  have hcurrent : current p w = (.ok false, w) := by
    simp [current, currentAnd, getIfActive, Code.bind_run, hoff]
  have hdue : (isDue h p flags w).2 = w ∧ ∃ due, (isDue h p flags w).1 = .ok due := by
    unfold isDue deadlineDue
    split
    · exact ⟨rfl, _, rfl⟩
    · simp [getIfActive, Code.bind_run, hoff]
  obtain ⟨hsame, due, hdue⟩ := hdue
  have hrun : isDue h p flags w = (.ok due, w) := Prod.ext hdue hsame
  unfold dispatch
  rw [Code.bind_run, hrun]
  cases due with
  | false => rfl
  | true =>
    dsimp only
    cases hudp : p.udp <;> simp [dispatchUdp, dispatchTcp, Code.bind_run, hcurrent]

/-- Only the history may have changed. -/
def Looked (w w' : EventWorld) : Prop := ∃ log, w' = { w with log := log }

theorem look_looks {α : Type} {t i : ℕ} (f : EventObject → α) :
    Triple (Looked w) (look t i fun o => (f o, o)) (fun a w' => Looked w w' ∧
      ∃ o, w.find i = some o ∧ a = f o) fun _ => Looked w := by
  rintro _ ⟨log, rfl⟩
  unfold EventWorld.look EventWorld.use
  have hfind : EventWorld.find i { w with log := log } = w.find i := rfl
  rw [hfind]
  cases ho : w.find i with
  | none => exact ⟨_, rfl⟩
  | some o =>
    refine ⟨⟨log ++ [.looked t], ?_⟩, o, rfl, rfl⟩
    have hlt := lt_of_find ho
    have hset : w.objects.set i (some o) = w.objects := by
      simp only [EventWorld.find, List.getD_eq_getElem?_getD, List.getElem?_eq_getElem hlt,
        Option.getD_some] at ho
      rw [← ho, List.set_getElem_self]
    simp only [EventWorld.store, hset]

/-- What is watched are objects of active tokens. -/
theorem watchAll_looks (w : EventWorld) (udp : Bool) (ts : List ℕ) :
    Triple (Looked w) (watchAll udp ts) (fun ps w' => Looked w w' ∧ ∀ p ∈ ps, p.udp = udp ∧ p.token ∈ ts ∧
      w.registrations[p.token]? = some ⟨p.socket, true⟩ ∧ p.socket < w.objects.length)
      fun _ => Looked w := by
  induction ts with
  | nil => exact .ret fun _ hw => ⟨hw, by simp⟩
  | cons t ts ih =>
    have hskip : Triple (Looked w) (watchAll udp ts) (fun ps w' => Looked w w' ∧ ∀ p ∈ ps, p.udp = udp ∧
        p.token ∈ t :: ts ∧ w.registrations[p.token]? = some ⟨p.socket, true⟩ ∧
        p.socket < w.objects.length) fun _ => Looked w :=
      ih.post fun ps w' hw => ⟨hw.1, fun p hp => by
        obtain ⟨hudp, hmem, hrest⟩ := hw.2 p hp
        exact ⟨hudp, List.mem_cons_of_mem t hmem, hrest⟩⟩
    refine Triple.bind (Q := fun active w' => Looked w w' ∧ active = w.active t) ?_ fun active => ?_
    · rintro _ ⟨log, rfl⟩
      exact ⟨⟨log, rfl⟩, rfl⟩
    refine .ite (fun _ => hskip.pre fun _ hw => hw.1) fun hon => ?_
    refine Triple.bind (Q := fun id w' => Looked w w' ∧ w.registrations[t]? = some ⟨id, true⟩) ?_ fun id => ?_
    · rintro _ ⟨⟨log, rfl⟩, rfl⟩
      refine ⟨⟨log, rfl⟩, ?_⟩
      dsimp only
      rw [Bool.not_eq_true', Bool.not_eq_false, EventWorld.active] at hon
      cases hreg : w.registrations[t]? with
      | none => simp [hreg] at hon
      | some r =>
        obtain ⟨i, b⟩ := r
        simpa [hreg] using hon
    refine .assume fun w₁ hw₁ => ?_
    obtain ⟨hlooked, hreg⟩ := hw₁
    refine Triple.bind ((look_looks _).pre fun _ ht => ht ▸ hlooked) fun seen => .assume fun w₂ hw₂ => ?_
    obtain ⟨hlooked, o, ho, -⟩ := hw₂
    have hlt := lt_of_find ho
    obtain ⟨_ | fd, wants, connection⟩ := seen
    · exact hskip.pre fun _ ht => ht ▸ hlooked
    · refine Triple.bind (hskip.pre fun _ ht => ht ▸ hlooked) fun ps => .ret fun w' hw => ⟨hw.1, ?_⟩
      exact List.forall_mem_cons.mpr ⟨⟨rfl, List.mem_cons_self, hreg, hlt⟩, hw.2⟩

/-- The watches of a `poll` that begins. -/
theorem OwnWatches.of_looks {id : ℕ} {streams datagrams : List Watch} (hw : StreamOnly id w)
    (hstreams : ∀ p ∈ streams, p.udp = false ∧ p.token ∈ w.sockets ∧
      w.registrations[p.token]? = some ⟨p.socket, true⟩ ∧ p.socket < w.objects.length)
    (hdatagrams : ∀ p ∈ datagrams, p.udp = true ∧ p.token ∈ w.udpSockets ∧
      w.registrations[p.token]? = some ⟨p.socket, true⟩ ∧ p.socket < w.objects.length) :
    OwnWatches id (streams ++ datagrams) w := by
  intro p hp hid
  rcases List.mem_append.mp hp with hmem | hmem
  · obtain ⟨hudp, -, hreg, hlt⟩ := hstreams p hmem
    exact ⟨⟨true, hid ▸ hreg⟩, hid ▸ hlt, fun hyes => by simp [hudp] at hyes⟩
  · obtain ⟨-, hlisted, hreg, hlt⟩ := hdatagrams p hmem
    refine ⟨⟨true, hid ▸ hreg⟩, hid ▸ hlt, fun _ => ?_⟩
    obtain ⟨i, b, hreg', hnot⟩ := hw _ hlisted
    have hsame : i = p.socket := by simpa using congr_arg (Option.map (·.socket)) (hreg'.symm.trans hreg)
    exact hnot (hsame.trans hid)

section Handlers

variable {id first : ℕ} {F : Option ℕ → Prop}
variable (hclose : ∀ tick, (h.objects id).tls.close tick = 0)
variable (hcb : Respectful id cb) (hF : Footing id first F)

/-- What a dispatch of the watches `ps` keeps. -/
abbrev Dispatching (id first : ℕ) (F : Option ℕ → Prop) (ps : List Watch) (w : EventWorld) : Prop :=
  Noted id first F w ∧ w.polling = true ∧ OwnWatches id ps w

include hclose hcb hF

/-- The turn of the socket itself. -/
theorem Dispatching.own {ps : List Watch} {p : Watch} (hp : p ∈ ps) (hid : p.socket = id)
    (rest : List Watch) (flags : Flags) (hw : Dispatching id first F ps w) :
    Sessions first (fun i s => i = id → Account .underway F s) (dispatch h cb rest p flags w).2 := by
  obtain ⟨⟨hsessions, -⟩, hlock, hown⟩ := hw
  obtain ⟨⟨b, hreg⟩, hlt, hudp⟩ := hown p hp hid
  cases b with
  | false =>
    rw [dispatch_inactive (by simp [EventWorld.active, hreg])]
    exact hsessions
  | true =>
    by_cases hnot : NotTls id w
    · have hscope : Scoped.Objective h (fun _ => True) (NotTls id) :=
        Forward.objective fun _ _ hforward => hforward.notTls
      have hafter := hscope.dispatch (p := p)
        (fun n => hcb.keeps n _ (.forward _ fun _ _ hforward => hforward.notTls)) trivial rest flags w hnot
      exact ⟨hF.le.trans hafter.le, fun i o ho => by
        by_cases hi : i = id
        · exact .of_cls (hafter.each i o ho hi)
        · cases o with
          | tls s => exact fun heq => absurd heq hi
          | _ => trivial⟩
    · obtain ⟨s, hs⟩ : ∃ s, w.find id = some (.tls s) := by
        by_contra hno
        refine hnot ⟨hlt, fun i o ho hi hcls => ?_⟩
        subst hi
        obtain ⟨s, rfl⟩ := EventObject.exists_of_cls hcls
        exact hno ⟨s, ho⟩
      subst hid
      have hserving : Serving p (Account .underway F) w :=
        ⟨hlock, hreg, s, hs, hsessions.each _ _ hs rfl⟩
      have hattentive : Attentive p cb :=
        ⟨fun n σ G hG => hcb.keeps n _ (.serving p rfl σ G hG), hcb.returns⟩
      have hafter := Serving.dispatch hattentive hclose
        (Bool.eq_false_of_not_eq_true fun hyes => hnot (hudp hyes)) rest flags w hserving
      revert hafter
      rcases EventLoop.dispatch h cb rest p flags w with ⟨_ | _, w'⟩
      · exact False.elim
      · intro hafter
        obtain ⟨t, ht, haccount⟩ := hafter.object
        refine ⟨hF.le.trans (lt_of_find ht), fun i o ho => ?_⟩
        cases o with
        | tls u =>
          rintro rfl
          obtain rfl := EventObject.tls.inj (Option.some.inj (ht.symm.trans ho))
          exact haccount
        | _ => trivial

theorem Dispatching.dispatch {ps : List Watch} {p : Watch} (hp : p ∈ ps) (rest : List Watch)
    (flags : Flags) : Keeps (Dispatching id first F ps) (dispatch h cb rest p flags) := by
  have hstream (n : EventNote) : Keeps (StreamOnly id) (cb n) :=
    hcb.keeps n _ (.forward _ fun _ _ => .forward)
  have hown (n : EventNote) : Keeps (OwnWatches id ps) (cb n) :=
    hcb.keeps n _ (.forward _ fun _ _ => .forward)
  have hlock (n : EventNote) : Keeps (fun w => w.polling = true) (cb n) := hcb.keeps n _ .locked
  by_cases hid : p.socket = id
  · intro w hw
    have hothers : Scoped.Objective h (fun _ => True) fun w =>
        StreamOnly id w ∧ w.polling = true ∧ OwnWatches id ps w :=
      (Forward.objective fun _ _ => .forward).and
        ((locked_scope h _).and (Forward.objective fun _ _ => .forward))
    have hrest := hothers.dispatch (p := p)
      (fun n w hw => ⟨hstream n w hw.1, hlock n w hw.2.1, hown n w hw.2.2⟩) trivial rest flags w
      ⟨hw.1.2, hw.2⟩
    exact ⟨⟨Dispatching.own hclose hcb hF hp hid rest flags hw, hrest.1⟩, hrest.2⟩
  · have hscope : Scoped.Objective h (· ≠ id) (Dispatching id first F ps) :=
      (Noted.scope hclose hF).and ((locked_scope h _).and (Forward.objective fun _ _ => .forward))
    refine hscope.dispatch (fun n w hw => ⟨?_, hlock n w hw.2.1, hown n w hw.2.2⟩) hid rest flags
    exact hcb.keeps n _ (.noted first F hF) w hw.1

theorem Dispatching.dispatchAll {ps : List Watch} (watched : List (Watch × Flags))
    (hps : ∀ p ∈ watched, p.1 ∈ ps) :
    Keeps (Dispatching id first F ps) (dispatchAll h cb watched) := by
  induction watched with
  | nil => exact .pure _
  | cons p rest ih =>
    obtain ⟨hp, hrest⟩ := List.forall_mem_cons.mp hps
    refine (Dispatching.dispatch hclose hcb hF hp _ _).bind fun _ => ?_
    exact (ih hrest).bind fun _ => .pure _

/-- A `poll` tells the handlers of the socket what its sessions allow. -/
theorem Noted.pollOwned (timeoutMs : Int) (hw : Noted id first F w) (hlock : w.polling = true) :
    Noted id first F (pollOwned h cb fuel timeoutMs w).2 := by
  have hkept {α : Type} {m : Code EventWorld α} (hm : Triple (fun t => t = w) m
      (fun _ => Noted id first F) fun _ => Noted id first F) : Noted id first F (m w).2 := by
    have hend := hm w rfl
    revert hend
    rcases m w with ⟨_ | _, w'⟩ <;> exact fun hend => hend
  refine hkept (Triple.bind (Q := fun tokens t => t = w ∧ tokens = (w.sockets, w.udpSockets)) ?_
    fun tokens => .assume fun w₁ hw₁ => ?_)
  · rintro _ rfl
    exact ⟨rfl, rfl⟩
  obtain ⟨rfl, rfl⟩ := hw₁
  have hlooked {w' : EventWorld} (h' : Looked w₁ w') : Noted id first F w' := by
    obtain ⟨log, rfl⟩ := h'
    exact hw.of_eq rfl rfl rfl
  refine Triple.bind (Q := fun _ => Looked w₁) ?_ fun _ => ?_
  · rintro _ rfl
    exact ⟨_, rfl⟩
  refine Triple.bind ((watchAll_looks w₁ false w₁.sockets).mono (fun _ ht => ht) (fun _ _ ht => ht)
    fun _ _ => hlooked) fun streams => .assume fun w₂ hw₂ => ?_
  refine Triple.bind ((watchAll_looks w₁ true w₁.udpSockets).mono (fun _ ht => ht ▸ hw₂.1)
    (fun _ _ ht => ht) fun _ _ => hlooked) fun datagrams => .assume fun w₃ hw₃ => ?_
  have hown : OwnWatches id (streams ++ datagrams) w₃ := by
    obtain ⟨log, rfl⟩ := hw₃.1
    refine OwnWatches.forward (w := w₁) (.of_notTls le_rfl (fun hnot => ⟨hnot.le, hnot.each⟩) rfl rfl) ?_
    exact .of_looks hw.2 hw₂.2 hw₃.2
  have hscope : Scoped.Objective h (· ≠ id) (Dispatching id first F (streams ++ datagrams)) :=
    (Noted.scope hclose hF).and ((locked_scope h _).and (Forward.objective fun _ _ => .forward))
  refine Triple.mono (keeps_iff.mp (hscope.afterWatch _ timeoutMs fun watched hsame => ?_))
    (fun t ht => ?_) (fun _ _ hend => hend.1) fun _ _ hend => hend.1
  · refine Dispatching.dispatchAll hclose hcb hF watched fun p hp => ?_
    exact hsame ▸ List.mem_map_of_mem hp
  · obtain ⟨log, rfl⟩ := hw₃.1
    exact ht ▸ ⟨hw.of_eq rfl rfl rfl, hlock, hown⟩

theorem Noted.poll (timeoutMs : Int) : Keeps (Noted id first F) (poll h cb fuel timeoutMs) := by
  intro w hw
  cases hlock : w.polling with
  | true => rwa [poll_locked hlock]
  | false =>
    unfold EventLoop.poll
    split
    · exact hw
    · have hend : Noted id first F (EventLoop.pollOwned h cb fuel timeoutMs
          { w with polling := true }).2 :=
        Noted.pollOwned hclose hcb hF timeoutMs (hw.of_eq rfl rfl rfl) rfl
      rw [Code.bind_run, Code.update_run, hlock]
      exact hend.of_eq rfl rfl rfl

omit hF in
theorem Respected.poll {I : EventWorld → Prop} (hI : Respected id I) (timeoutMs : Int) :
    Keeps I (poll h cb fuel timeoutMs) := by
  cases hI with
  | forward _ hI =>
    have hscope : Scoped.Objective h (fun _ => True) I := Forward.objective hI
    refine hscope.poll (fun n => hcb.keeps n _ (.forward _ hI)) (fun _ => trivial) (fun w _ => ?_) timeoutMs
    exact hI w _ (.of_notTls le_rfl (fun hnot => ⟨hnot.le, hnot.each⟩) rfl rfl)
  | locked =>
    intro w hw
    rwa [poll_locked hw]
  | serving p hp σ F hF =>
    intro w hw
    rwa [poll_locked hw.polling]
  | noted first F hF => exact Noted.poll hclose hcb hF timeoutMs

omit hF in
/-- What does not connect the socket, and does nothing else to it that handlers may not do. -/
theorem Respected.exec {I : EventWorld → Prop} (hI : Respected id I) (o : EventOp)
    (ho : o.Within (· ≠ id) w) : I w → I (exec h cb fuel o w).2 :=
  (hI.scope hclose).execOpening (fun n => hcb.keeps n _ hI) hI.opening
    (fun timeoutMs => hI.poll hclose hcb timeoutMs) o w ho

end Handlers

end Polls

end Aeon
