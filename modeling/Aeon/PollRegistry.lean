import Aeon.PollTrace
import Mathlib.Data.List.Nodup

/-!
# The tokens of an event set

Which tokens are active, what they point to, and that the registry and its
history agree.  Every operation other than a `poll` of its own only edits the
registry.
-/

namespace Aeon

open Program Reentrant History

namespace EventWorld

variable {w : EventWorld} {id i : ℕ} {o o' : EventObject}

def logged (e : PollEvent) (w : EventWorld) : EventWorld := { w with log := w.log ++ [e] }

/-- An active token points to an object of the registry that it belongs to. -/
def Points (w : EventWorld) (t : ℕ) (udp : Bool) : Prop :=
  ∃ i o, w.registrations[t]? = some ⟨i, true⟩ ∧ w.find i = some o ∧ o.isUdp = udp

theorem find_store_same (h : w.find id = some o) : (w.store id o').find id = some o' := by
  have hlt := lt_of_find h
  simp [find, store, hlt]

theorem find_store_ne (h : i ≠ id) : (w.store id o).find i = w.find i := by
  simp [find, store, Ne.symm h]

theorem find_forget_ne (h : i ≠ id) :
    find i { w with objects := w.objects.set id none } = w.find i := by
  simp [find, Ne.symm h]

theorem find_made_old (h : w.find i = some o) :
    find i { w with objects := w.objects ++ [some o'] } = some o := by
  simp only [find, List.getD_eq_getElem?_getD, List.getElem?_append] at h ⊢
  split
  · exact h
  · rename_i hge
    rw [List.getElem?_eq_none (Nat.le_of_not_lt hge)] at h
    cases h

end EventWorld

open EventWorld EventLoop

/-- The registry agrees with the objects and with the history. -/
structure Sane (w : EventWorld) : Prop where
  nodup : (w.sockets ++ w.udpSockets).Nodup
  streams : ∀ t ∈ w.sockets, w.Points t false
  datagrams : ∀ t ∈ w.udpSockets, w.Points t true
  listed : ∀ t i : ℕ, w.registrations[t]? = some ⟨i, true⟩ → t ∈ w.sockets ++ w.udpSockets
  distinct : ∀ t t' i : ℕ, w.registrations[t]? = some ⟨i, true⟩ →
    w.registrations[t']? = some ⟨i, true⟩ → t = t'
  registered : ∀ t i, .registered t i ∈ w.log → ∃ b : Bool, w.registrations[t]? = some ⟨i, b⟩
  active : ∀ (t i : ℕ) (b : Bool), w.registrations[t]? = some ⟨i, b⟩ → (b = true ↔ .deactivated t ∉ w.log)
  deactivated : ∀ t, .deactivated t ∈ w.log → t < w.registrations.length
  began : ∀ ts, .began ts ∈ w.log → ∀ t ∈ ts, t < w.registrations.length
  proper : Always Proper w.log

/-- Changes of the registry, and of objects, which keep the tokens and the lock. -/
structure Edits (a w : EventWorld) : Prop where
  polling : w.polling = a.polling
  registrations : ∀ (t i : ℕ) (b : Bool), a.registrations[t]? = some ⟨i, b⟩ →
    ∃ b' : Bool, w.registrations[t]? = some ⟨i, b'⟩
  log : ∃ es, w.log = a.log ++ es ∧ ∀ e ∈ es, e.registry = true

namespace Edits

variable {a b c : EventWorld}

theorem refl (a : EventWorld) : Edits a a := ⟨rfl, fun _ _ b h => ⟨b, h⟩, [], by simp, by simp⟩

theorem trans (h : Edits a b) (h' : Edits b c) : Edits a c := by
  obtain ⟨es, hlog, hes⟩ := h.log
  obtain ⟨es', hlog', hes'⟩ := h'.log
  refine ⟨h'.polling.trans h.polling, fun t i x ht => ?_, es ++ es', ?_, fun e he => ?_⟩
  · obtain ⟨y, hy⟩ := h.registrations t i x ht
    exact h'.registrations t i y hy
  · rw [hlog', hlog, List.append_assoc]
  · exact (List.mem_append.mp he).elim (hes e) (hes' e)

end Edits

namespace Sane

variable {w w' : EventWorld}

theorem empty : Sane {} where
  nodup := by simp
  streams := by simp
  datagrams := by simp
  listed := by simp
  distinct := by simp
  registered := by simp
  active := by simp
  deactivated := by simp
  began := by simp
  proper := .nil

theorem of_eq (h : Sane w) (hobjects : w'.objects = w.objects)
    (hregs : w'.registrations = w.registrations) (hsockets : w'.sockets = w.sockets)
    (hudp : w'.udpSockets = w.udpSockets) (hlog : w'.log = w.log) : Sane w' := by
  have hpoints (t : ℕ) (udp : Bool) : w'.Points t udp ↔ w.Points t udp := by
    simp only [Points, find, hregs, hobjects]
  refine ⟨?_, ?_, ?_, ?_, ?_, ?_, ?_, ?_, ?_, ?_⟩
  · rw [hsockets, hudp]
    exact h.nodup
  · simpa only [hsockets, hpoints] using h.streams
  · simpa only [hudp, hpoints] using h.datagrams
  · simpa only [hregs, hsockets, hudp] using h.listed
  · simpa only [hregs] using h.distinct
  · simpa only [hregs, hlog] using h.registered
  · simpa only [hregs, hlog] using h.active
  · simpa only [hregs, hlog] using h.deactivated
  · simpa only [hregs, hlog] using h.began
  · simpa only [hlog] using h.proper

/-- Objects may change as long as those that active tokens point to stay what they are. -/
theorem objects (h : Sane w) {objects : List (Option EventObject)}
    (hfind : ∀ (t i : ℕ) (o : EventObject), w.registrations[t]? = some ⟨i, true⟩ → w.find i = some o →
      ∃ o', find i { w with objects := objects } = some o' ∧ o'.isUdp = o.isUdp) :
    Sane { w with objects := objects } := by
  have hpoints {t : ℕ} {udp : Bool} (ht : w.Points t udp) :
      Points { w with objects := objects } t udp := by
    obtain ⟨i, o, hreg, ho, hudp⟩ := ht
    obtain ⟨o', ho', hsame⟩ := hfind t i o hreg ho
    exact ⟨i, o', hreg, ho', hsame.trans hudp⟩
  exact { h with
    streams := fun t ht => hpoints (h.streams t ht)
    datagrams := fun t ht => hpoints (h.datagrams t ht) }

theorem store {id : ℕ} {o o' : EventObject} (h : Sane w) (ho : w.find id = some o)
    (hcls : o'.cls = o.cls) : Sane (w.store id o') := by
  refine h.objects fun t i o₁ _ ho₁ => ?_
  by_cases hi : i = id
  · subst hi
    obtain rfl := Option.some.inj (ho.symm.trans ho₁)
    exact ⟨o', find_store_same ho, EventObject.isUdp_of_cls hcls⟩
  · exact ⟨o₁, (find_store_ne hi).trans ho₁, rfl⟩

/-- The object that an active token points to is there. -/
theorem find (h : Sane w) {t i : ℕ} (ht : w.registrations[t]? = some ⟨i, true⟩) :
    ∃ o, w.find i = some o := by
  rcases List.mem_append.mp (h.listed t i ht) with hmem | hmem
  · obtain ⟨j, o, hj, ho, -⟩ := h.streams t hmem
    obtain rfl : i = j := by simpa using ht.symm.trans hj
    exact ⟨o, ho⟩
  · obtain ⟨j, o, hj, ho, -⟩ := h.datagrams t hmem
    obtain rfl : i = j := by simpa using ht.symm.trans hj
    exact ⟨o, ho⟩

theorem listed_active (h : Sane w) {t : ℕ} (ht : t ∈ w.sockets ++ w.udpSockets) :
    ∃ i, w.registrations[t]? = some ⟨i, true⟩ := by
  rcases List.mem_append.mp ht with hmem | hmem
  · obtain ⟨i, -, hi, -⟩ := h.streams t hmem
    exact ⟨i, hi⟩
  · obtain ⟨i, -, hi, -⟩ := h.datagrams t hmem
    exact ⟨i, hi⟩

theorem listed_lt (h : Sane w) {t : ℕ} (ht : t ∈ w.sockets ++ w.udpSockets) :
    t < w.registrations.length := by
  obtain ⟨i, hi⟩ := h.listed_active ht
  exact (List.getElem?_eq_some_iff.mp hi).1

/-- An event of `poll` is added. -/
theorem logged (h : Sane w) {e : PollEvent} (hproper : Proper w.log e)
    (hreg : e.registry = false) (hsnap : e.snapshot = none) : Sane (w.logged e) := by
  have hmem {e' : PollEvent} (he' : e'.registry = true ∨ e'.snapshot ≠ none) :
      e' ∈ w.log ++ [e] ↔ e' ∈ w.log := by
    rw [List.mem_append, List.mem_singleton, or_iff_left]
    rintro rfl
    exact he'.elim (by simp [hreg]) (by simp [hsnap])
  exact { h with
    registered := fun t i ht => h.registered t i ((hmem (.inl rfl)).mp ht)
    active := fun t i b ht => (h.active t i b ht).trans (not_congr (hmem (.inl rfl)).symm)
    deactivated := fun t ht => h.deactivated t ((hmem (.inl rfl)).mp ht)
    began := fun ts ht => h.began ts ((hmem (.inr (by simp [PollEvent.snapshot]))).mp ht)
    proper := h.proper.snoc hproper }

/-- The snapshot that `poll` takes. -/
theorem snapshot (h : Sane w) : Sane (w.logged (.began (w.sockets ++ w.udpSockets))) := by
  have hmem {e : PollEvent} (he : e.snapshot = none) :
      e ∈ w.log ++ [.began (w.sockets ++ w.udpSockets)] ↔ e ∈ w.log := by
    rw [List.mem_append, List.mem_singleton, or_iff_left]
    rintro rfl
    cases he
  have hproper : Proper w.log (.began (w.sockets ++ w.udpSockets)) := by
    refine ⟨nofun, nofun, nofun, fun ts hts t ht t' ht' i hi hi' => ?_, nofun⟩
    obtain rfl := PollEvent.began.inj hts
    obtain ⟨j, hj⟩ := h.listed_active ht
    obtain ⟨j', hj'⟩ := h.listed_active ht'
    obtain ⟨b, hb⟩ := h.registered t i hi
    obtain ⟨b', hb'⟩ := h.registered t' i hi'
    obtain ⟨rfl, rfl⟩ : i = j ∧ b = true := by simpa using hb.symm.trans hj
    obtain ⟨rfl, rfl⟩ : i = j' ∧ b' = true := by simpa using hb'.symm.trans hj'
    exact h.distinct t t' i hj hj'
  exact { h with
    registered := fun t i ht => h.registered t i ((hmem rfl).mp ht)
    active := fun t i b ht => (h.active t i b ht).trans (not_congr (hmem rfl).symm)
    deactivated := fun t ht => h.deactivated t ((hmem rfl).mp ht)
    began := fun ts ht t hts => by
      rcases List.mem_append.mp ht with hold | hnew
      · exact h.began ts hold t hts
      · obtain rfl := PollEvent.began.inj (List.mem_singleton.mp hnew)
        exact h.listed_lt hts
    proper := h.proper.snoc hproper }

theorem added (h : Sane w) {i : ℕ} {o : EventObject} (ho : w.find i = some o)
    (hnew : ∀ t ∈ if o.isUdp then w.udpSockets else w.sockets, w.registrations[t]? ≠ some ⟨i, true⟩) :
    Sane { w with
      registrations := w.registrations ++ [⟨i, true⟩]
      sockets := if o.isUdp then w.sockets else w.sockets ++ [w.registrations.length]
      udpSockets := if o.isUdp then w.udpSockets ++ [w.registrations.length] else w.udpSockets
      log := w.log ++ [.registered w.registrations.length i] } := by
  have hold {t : ℕ} (ht : t < w.registrations.length) :
      (w.registrations ++ [⟨i, true⟩])[t]? = w.registrations[t]? := List.getElem?_append_left ht
  have hlt {t : ℕ} {r : Registration} (ht : w.registrations[t]? = some r) :
      t < w.registrations.length := (List.getElem?_eq_some_iff.mp ht).1
  have hlast : (w.registrations ++ [⟨i, true⟩])[w.registrations.length]? = some ⟨i, true⟩ := by simp
  have hcases {t j : ℕ} {b : Bool} (ht : (w.registrations ++ [⟨i, true⟩])[t]? = some ⟨j, b⟩) :
      w.registrations[t]? = some ⟨j, b⟩ ∨ t = w.registrations.length ∧ j = i ∧ b = true := by
    rcases Nat.lt_trichotomy t w.registrations.length with hl | rfl | hg
    · exact .inl (hold hl ▸ ht)
    · rw [hlast] at ht
      simp only [Option.some.injEq, Registration.mk.injEq] at ht
      exact .inr ⟨rfl, ht.1.symm, ht.2.symm⟩
    · rw [List.getElem?_eq_none (by simp; omega)] at ht
      cases ht
  have hfresh : w.registrations.length ∉ w.sockets ++ w.udpSockets := fun hmem =>
    Nat.lt_irrefl _ (h.listed_lt hmem)
  have hclash {t : ℕ} (ht : w.registrations[t]? = some ⟨i, true⟩) : False := by
    rcases List.mem_append.mp (h.listed t i ht) with hmem | hmem
    · obtain ⟨j, o', hj, ho', hudp⟩ := h.streams t hmem
      obtain rfl : i = j := by simpa using ht.symm.trans hj
      obtain rfl := Option.some.inj (ho.symm.trans ho')
      exact hnew t (by simpa [hudp] using hmem) ht
    · obtain ⟨j, o', hj, ho', hudp⟩ := h.datagrams t hmem
      obtain rfl : i = j := by simpa using ht.symm.trans hj
      obtain rfl := Option.some.inj (ho.symm.trans ho')
      exact hnew t (by simpa [hudp] using hmem) ht
  have hpoints {t : ℕ} {udp : Bool} (ht : w.Points t udp) (w' : EventWorld)
      (hobjects : w'.objects = w.objects) (hregs : w'.registrations = w.registrations ++ [⟨i, true⟩]) :
      w'.Points t udp := by
    obtain ⟨j, o', hj, ho', hudp⟩ := ht
    exact ⟨j, o', by rw [hregs, hold (hlt hj)]; exact hj, by simpa [EventWorld.find, hobjects] using ho',
      hudp⟩
  have hmem (e : PollEvent) (he : e ≠ .registered w.registrations.length i) :
      e ∈ w.log ++ [.registered w.registrations.length i] ↔ e ∈ w.log := by
    rw [List.mem_append, List.mem_singleton, or_iff_left he]
  have hproper : Proper w.log (.registered w.registrations.length i) := by
    refine ⟨nofun, nofun, fun t j ht ts hts hmem => ?_, nofun, nofun⟩
    obtain ⟨rfl, -⟩ := PollEvent.registered.inj ht
    exact Nat.lt_irrefl _ (h.began ts hts _ hmem)
  have hlonger : w.registrations.length < (w.registrations ++ [(⟨i, true⟩ : Registration)]).length := by
    simp
  refine ⟨?_, fun t ht => ?_, fun t ht => ?_, fun t j ht => ?_, fun t t' j ht ht' => ?_,
    fun t j ht => ?_, fun t j b ht => ?_, fun t ht => ?_, fun ts ht t hts => ?_, h.proper.snoc hproper⟩
  · dsimp only
    split
    · rw [← List.append_assoc]
      exact List.nodup_append_comm.mp (List.nodup_cons.mpr ⟨hfresh, h.nodup⟩)
    · rw [List.append_assoc]
      exact List.nodup_middle.mpr (List.nodup_cons.mpr ⟨hfresh, h.nodup⟩)
  · cases hudp : o.isUdp with
    | true => exact hpoints (h.streams t (by simpa [hudp] using ht)) _ rfl rfl
    | false =>
      rw [hudp] at ht
      rcases List.mem_append.mp ht with hmem | hmem
      · exact hpoints (h.streams t hmem) _ rfl rfl
      · obtain rfl := List.mem_singleton.mp hmem
        exact ⟨i, o, hlast, ho, hudp⟩
  · cases hudp : o.isUdp with
    | false => exact hpoints (h.datagrams t (by simpa [hudp] using ht)) _ rfl rfl
    | true =>
      rw [hudp] at ht
      rcases List.mem_append.mp ht with hmem | hmem
      · exact hpoints (h.datagrams t hmem) _ rfl rfl
      · obtain rfl := List.mem_singleton.mp hmem
        exact ⟨i, o, hlast, ho, hudp⟩
  · have hlisted : t ∈ w.sockets ++ w.udpSockets ∨ t = w.registrations.length :=
      (hcases ht).imp (h.listed t j) And.left
    rw [List.mem_append] at hlisted
    cases hudp : o.isUdp with
    | true =>
      simp only [if_true, List.mem_append, List.mem_singleton]
      tauto
    | false =>
      simp only [Bool.false_eq_true, if_false, List.mem_append, List.mem_singleton]
      tauto
  · rcases hcases ht with hold₁ | ⟨rfl, rfl, -⟩
    · rcases hcases ht' with hold₂ | ⟨rfl, rfl, -⟩
      · exact h.distinct t t' j hold₁ hold₂
      · exact (hclash hold₁).elim
    · rcases hcases ht' with hold₂ | ⟨rfl, -, -⟩
      · exact (hclash hold₂).elim
      · rfl
  · rcases List.mem_append.mp ht with hmem' | hmem'
    · obtain ⟨b, hb⟩ := h.registered t j hmem'
      exact ⟨b, (hold (hlt hb)).trans hb⟩
    · obtain ⟨rfl, rfl⟩ := PollEvent.registered.inj (List.mem_singleton.mp hmem')
      exact ⟨true, hlast⟩
  · refine Iff.trans ?_ (not_congr (hmem (.deactivated t) nofun).symm)
    rcases hcases ht with hold₁ | ⟨rfl, rfl, rfl⟩
    · exact h.active t j b hold₁
    · exact iff_of_true rfl fun hoff => Nat.lt_irrefl _ (h.deactivated _ hoff)
  · exact Nat.lt_trans (h.deactivated t ((hmem (.deactivated t) nofun).mp ht)) hlonger
  · exact Nat.lt_trans (h.began ts ((hmem (.began ts) nofun).mp ht) t hts) hlonger

theorem removed (h : Sane w) {t : ℕ} (ht : t ∈ w.sockets ++ w.udpSockets) :
    Sane (deactivate t w) := by
  have hreg (t' : ℕ) : (deactivate t w).registrations[t']? = (w.registrations[t']?).map fun r =>
      if t' = t then { r with active := false } else r := by
    simp only [deactivate, List.getElem?_modify]
    by_cases htt : t = t' <;> simp [htt, eq_comm]
  have hother {t' j : ℕ} {b : Bool} (hne : t' ≠ t) :
      (deactivate t w).registrations[t']? = some ⟨j, b⟩ ↔ w.registrations[t']? = some ⟨j, b⟩ := by
    rw [hreg]
    simp [hne]
  have hactive {t' j : ℕ} (h' : (deactivate t w).registrations[t']? = some ⟨j, true⟩) : t' ≠ t := by
    rintro rfl
    rw [hreg] at h'
    simp at h'
  have hpoints {t' : ℕ} {udp : Bool} (hne : t' ≠ t) (h' : w.Points t' udp) :
      (deactivate t w).Points t' udp := by
    obtain ⟨j, o, hj, ho, hudp⟩ := h'
    exact ⟨j, o, (hother hne).mpr hj, ho, hudp⟩
  have hmem (e : PollEvent) (he : e ≠ .deactivated t) :
      e ∈ (deactivate t w).log ↔ e ∈ w.log := by
    show e ∈ w.log ++ [.deactivated t] ↔ e ∈ w.log
    rw [List.mem_append, List.mem_singleton, or_iff_left he]
  have hsame : (deactivate t w).registrations.length = w.registrations.length := by
    simp [deactivate]
  obtain ⟨hstreams, hdatagrams, -⟩ := List.nodup_append'.mp h.nodup
  refine ⟨?_, fun t' ht' => ?_, fun t' ht' => ?_, fun t' j ht' => ?_, fun t' t'' j ht' ht'' => ?_,
    fun t' j ht' => ?_, fun t' j b ht' => ?_, fun t' ht' => ?_, fun ts ht' t' hts => ?_,
    h.proper.snoc ⟨nofun, nofun, nofun, nofun, nofun⟩⟩
  · exact h.nodup.sublist (List.erase_sublist.append List.erase_sublist)
  · obtain ⟨hne, hmem'⟩ := hstreams.mem_erase_iff.mp ht'
    exact hpoints hne (h.streams t' hmem')
  · obtain ⟨hne, hmem'⟩ := hdatagrams.mem_erase_iff.mp ht'
    exact hpoints hne (h.datagrams t' hmem')
  · have hne := hactive ht'
    rcases List.mem_append.mp (h.listed t' j ((hother hne).mp ht')) with hmem' | hmem'
    · exact List.mem_append_left _ (hstreams.mem_erase_iff.mpr ⟨hne, hmem'⟩)
    · exact List.mem_append_right _ (hdatagrams.mem_erase_iff.mpr ⟨hne, hmem'⟩)
  · exact h.distinct t' t'' j ((hother (hactive ht')).mp ht') ((hother (hactive ht'')).mp ht'')
  · obtain ⟨b, hb⟩ := h.registered t' j ((hmem (.registered t' j) nofun).mp ht')
    rw [hreg, hb]
    by_cases hne : t' = t
    · exact ⟨false, by simp [hne]⟩
    · exact ⟨b, by simp [hne]⟩
  · by_cases hne : t' = t
    · subst hne
      rw [hreg, Option.map_eq_some_iff] at ht'
      obtain ⟨r, -, hr⟩ := ht'
      have hb : b = false := by simpa using (congr_arg Registration.active hr).symm
      refine iff_of_false (by simp [hb]) fun hoff => hoff ?_
      exact List.mem_append_right _ (List.mem_singleton_self _)
    · rw [hmem _ (fun he => hne (PollEvent.deactivated.inj he))]
      exact h.active t' j b ((hother hne).mp ht')
  · rw [hsame]
    rcases List.mem_append.mp ht' with hold | hnew
    · exact h.deactivated t' hold
    · obtain rfl := PollEvent.deactivated.inj (List.mem_singleton.mp hnew)
      exact h.listed_lt ht
  · rw [hsame]
    exact h.began ts ((hmem (.began ts) nofun).mp ht') t' hts

/-- Whatever registry edits preserve, every operation but `poll` preserves. -/
theorem stable {h : LoopHost} {X : EventWorld → Prop}
    (hX : ∀ w w', Edits w w' → Sane w' → X w → X w') : Stable h fun w => Sane w ∧ X w where
  object w id o o' ho hstep hw := by
    have hsane := hw.1.store ho hstep.cls
    refine ⟨hsane, hX w _ ⟨rfl, fun _ _ b hb => ⟨b, hb⟩, [], ?_, by simp⟩ hsane hw.2⟩
    exact (List.append_nil _).symm
  made w o _ hw := by
    have hsane : Sane { w with objects := w.objects ++ [some o] } :=
      hw.1.objects fun t i o₁ _ ho₁ => ⟨o₁, find_made_old ho₁, rfl⟩
    refine ⟨hsane, hX w _ ⟨rfl, fun _ _ b hb => ⟨b, hb⟩, [], ?_, by simp⟩ hsane hw.2⟩
    exact (List.append_nil _).symm
  forget w id hfree hw := by
    have hsane : Sane { w with objects := w.objects.set id none } := by
      refine hw.1.objects fun t i o₁ hreg ho₁ => ⟨o₁, ?_, rfl⟩
      have hne : i ≠ id := hfree ⟨i, true⟩ (List.mem_of_getElem? hreg) rfl
      exact (find_forget_ne hne).trans ho₁
    refine ⟨hsane, hX w _ ⟨rfl, fun _ _ b hb => ⟨b, hb⟩, [], ?_, by simp⟩ hsane hw.2⟩
    exact (List.append_nil _).symm
  added w id hw := by
    rcases add_cases id w with he | ⟨i, o, ho, hnew, he⟩
    · rw [he]
      exact hw
    · rw [he]
      have hsane := hw.1.added ho hnew
      refine ⟨hsane, hX w _ ⟨rfl, fun t j b hb => ⟨b, ?_⟩, [_], rfl, ?_⟩ hsane hw.2⟩
      · exact (List.getElem?_append_left (List.getElem?_eq_some_iff.mp hb).1).trans hb
      · simp [PollEvent.registry]
  removed w t ht hw := by
    have hsane := hw.1.removed ht
    refine ⟨hsane, hX w _ ⟨rfl, fun t' j b hb => ?_, [_], rfl, ?_⟩ hsane hw.2⟩
    · simp only [deactivate, List.getElem?_modify, hb]
      split
      · exact ⟨false, rfl⟩
      · exact ⟨b, rfl⟩
    · simp [PollEvent.registry]

end Sane

/-- While a `poll` is in progress, the handlers only edit the registry. -/
def Edited (cb : EventNote → Code EventWorld Unit) : Prop :=
  ∀ n w, w.polling = true → Sane w → Sane (cb n w).2 ∧ Edits w (cb n w).2

/-- So does every operation, since a `poll` inside a `poll` does not get the lock. -/
theorem Edited.exec {h : LoopHost} {fuel : ℕ} {cb : EventNote → Code EventWorld Unit}
    (hcb : Edited cb) (o : EventOp) {a : EventWorld} (hpolling : a.polling = true) (ha : Sane a) :
    Sane (exec h cb fuel o a).2 ∧ Edits a (exec h cb fuel o a).2 := by
  have hhandlers (n : EventNote) : Keeps (fun w => Sane w ∧ Edits a w) (cb n) := fun w hw => by
    obtain ⟨hsane, hedits⟩ := hcb n w (hw.2.polling.trans hpolling) hw.1
    exact ⟨hsane, hw.2.trans hedits⟩
  refine (Sane.stable fun _ _ hedits _ hw => hw.trans hedits).exec hhandlers (fun timeoutMs => ?_) o a
    ⟨ha, .refl a⟩
  refine .ite (fun _ => .pure _) fun _ w hw => ?_
  have hlocked : w.polling = true := hw.2.polling.trans hpolling
  rw [Code.bind_run, Code.update_run, hlocked]
  have hunlocked : { w with polling := true } = w := by rw [← hlocked]
  show Sane { w with polling := true } ∧ Edits a { w with polling := true }
  rw [hunlocked]
  exact hw

end Aeon
