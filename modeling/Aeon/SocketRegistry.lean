import Aeon.Library.Threads
import Mathlib.Data.List.Nodup

/-!
# The registry of a kind of sockets

`basic_socket_registry`.  Its functions hold a lock throughout, so each of them is
one atomic step.  A token is the number of a registration, which outlives its entry
in the list through the snapshots that hold it.
-/

namespace Aeon

open Threads

/-- `basic_socket_registration`. -/
structure SocketRegistration (Socket : Type) where
  socket : Socket
  active : Bool := true
  deriving DecidableEq

structure SocketRegistry (Socket : Type) where
  registrations : List (SocketRegistration Socket) := []
  entries : List ℕ := []
  deriving DecidableEq

inductive RegistryOp (Socket : Type)
  | add (socket : Option Socket)
  | removeIndex (index : ℕ)
  | removeSocket (socket : Option Socket)
  | clear
  | snapshot
  | size
  deriving DecidableEq

inductive RegistryAnswer
  | done
  | flag (b : Bool)
  | count (n : ℕ)
  | tokens (ts : List ℕ)
  deriving DecidableEq

namespace SocketRegistry

variable {Socket : Type} {r r' : SocketRegistry Socket} {t t' : ℕ} {s : Socket}

def getIfActive (t : ℕ) (r : SocketRegistry Socket) : Option Socket :=
  r.registrations[t]?.bind fun x => if x.active then some x.socket else none

/-- `deactivate` of one registration. -/
def deactivate (t : ℕ) (r : SocketRegistry Socket) : SocketRegistry Socket :=
  { r with registrations := r.registrations.modify t fun x => { x with active := false } }

theorem deactivate_getIfActive (t t' : ℕ) (r : SocketRegistry Socket) :
    (r.deactivate t).getIfActive t' = if t' = t then none else r.getIfActive t' := by
  simp only [getIfActive, deactivate, List.getElem?_modify]
  by_cases h : t = t'
  · subst h
    cases r.registrations[t]? <;> simp
  · simp [h, Ne.symm h]

def removeIndex (index : ℕ) (r : SocketRegistry Socket) : Bool × SocketRegistry Socket :=
  match r.entries[index]? with
  | none => (false, r)
  | some t => (true, { r.deactivate t with entries := r.entries.eraseIdx index })

def clear (r : SocketRegistry Socket) : SocketRegistry Socket :=
  { r.entries.foldl (fun r t => r.deactivate t) r with entries := [] }

section

variable [DecidableEq Socket]

def find (socket : Socket) (r : SocketRegistry Socket) : Option ℕ :=
  r.entries.find? fun t => r.getIfActive t = some socket

/-- A null pointer is `none`. -/
def add (socket : Option Socket) (r : SocketRegistry Socket) : Bool × SocketRegistry Socket :=
  match socket with
  | none => (false, r)
  | some socket =>
    if (r.find socket).isSome then (false, r)
    else (true, {
      registrations := r.registrations ++ [⟨socket, true⟩]
      entries := r.entries ++ [r.registrations.length] })

def removeSocket (socket : Option Socket) (r : SocketRegistry Socket) :
    Bool × SocketRegistry Socket :=
  match socket.bind r.find with
  | none => (false, r)
  | some t => (true, { r.deactivate t with entries := r.entries.erase t })

def exec : RegistryOp Socket → SocketRegistry Socket → RegistryAnswer × SocketRegistry Socket
  | .add socket, r => (.flag (r.add socket).1, (r.add socket).2)
  | .removeIndex index, r => (.flag (r.removeIndex index).1, (r.removeIndex index).2)
  | .removeSocket socket, r => (.flag (r.removeSocket socket).1, (r.removeSocket socket).2)
  | .clear, r => (.done, r.clear)
  | .snapshot, r => (.tokens r.entries, r)
  | .size, r => (.count r.entries.length, r)

end

/-- The socket has an entry. -/
def Lists (s : Socket) (r : SocketRegistry Socket) : Prop := ∃ t ∈ r.entries, r.getIfActive t = some s

/-- The listed tokens are the active ones, and no two of them have the same socket. -/
structure Sound (r : SocketRegistry Socket) : Prop where
  nodup : r.entries.Nodup
  listed : ∀ t, t ∈ r.entries ↔ (r.getIfActive t).isSome = true
  distinct : ∀ t t' s, r.getIfActive t = some s → r.getIfActive t' = some s → t = t'

/-- One entry goes, and nothing else changes. -/
structure Removes (t : ℕ) (r r' : SocketRegistry Socket) : Prop where
  listed : t ∈ r.entries
  entries : r'.entries = r.entries.erase t
  inactive : r'.getIfActive t = none
  others : ∀ t', t' ≠ t → r'.getIfActive t' = r.getIfActive t'

/-- One entry comes, with a token that nobody has. -/
structure Adds (s : Socket) (t : ℕ) (r r' : SocketRegistry Socket) : Prop where
  fresh : r.registrations.length ≤ t
  entries : r'.entries = r.entries ++ [t]
  active : r'.getIfActive t = some s
  others : ∀ t', t' ≠ t → r'.getIfActive t' = r.getIfActive t'

/-- What a call answers and does. -/
def Meets (r : SocketRegistry Socket) :
    RegistryOp Socket → RegistryAnswer × SocketRegistry Socket → Prop
  | .add socket, (a, r') =>
    (∃ s t, socket = some s ∧ ¬r.Lists s ∧ a = .flag true ∧ Adds s t r r') ∨
    (∀ s, socket = some s → r.Lists s) ∧ a = .flag false ∧ r' = r
  | .removeIndex index, (a, r') =>
    (∃ t, r.entries[index]? = some t ∧ a = .flag true ∧ Removes t r r') ∨
    r.entries.length ≤ index ∧ a = .flag false ∧ r' = r
  | .removeSocket socket, (a, r') =>
    (∃ s t, socket = some s ∧ r.getIfActive t = some s ∧ a = .flag true ∧ Removes t r r') ∨
    (∀ s, socket = some s → ¬r.Lists s) ∧ a = .flag false ∧ r' = r
  | .clear, (a, r') => a = .done ∧ r'.entries = [] ∧ ∀ t, r'.getIfActive t = none
  | .snapshot, (a, r') => a = .tokens r.entries ∧ r' = r
  | .size, (a, r') => a = .count r.entries.length ∧ r' = r

theorem lt_of_getIfActive (h : r.getIfActive t = some s) : t < r.registrations.length := by
  by_contra hge
  simp [getIfActive, List.getElem?_eq_none (Nat.le_of_not_lt hge)] at h

theorem getIfActive_append_lt (h : t < r.registrations.length) (x : SocketRegistration Socket)
    (es : List ℕ) : getIfActive t ⟨r.registrations ++ [x], es⟩ = r.getIfActive t := by
  simp [getIfActive, List.getElem?_append_left h]

theorem getIfActive_append_gt (h : r.registrations.length < t) (x : SocketRegistration Socket)
    (es : List ℕ) : getIfActive t ⟨r.registrations ++ [x], es⟩ = none := by
  rw [getIfActive, List.getElem?_eq_none (by simp; omega)]
  rfl

theorem getIfActive_none (h : r.registrations.length ≤ t) : r.getIfActive t = none := by
  rw [getIfActive, List.getElem?_eq_none h]
  rfl

theorem adds (s : Socket) (r : SocketRegistry Socket) : Adds s r.registrations.length r {
    registrations := r.registrations ++ [⟨s, true⟩]
    entries := r.entries ++ [r.registrations.length] } where
  fresh := Nat.le_refl _
  entries := rfl
  active := by simp [getIfActive]
  others t' ht' := by
    rcases Nat.lt_or_gt_of_ne ht' with hlt | hgt
    · exact getIfActive_append_lt hlt _ _
    · rw [getIfActive_append_gt hgt, getIfActive_none (Nat.le_of_lt hgt)]

theorem removes (h : t ∈ r.entries) :
    Removes t r { r.deactivate t with entries := r.entries.erase t } where
  listed := h
  entries := rfl
  inactive := (r.deactivate_getIfActive t t).trans (if_pos rfl)
  others t' ht' := (r.deactivate_getIfActive t t').trans (if_neg ht')

theorem clear_getIfActive (h : r.Sound) (t : ℕ) : r.clear.getIfActive t = none := by
  have hfold (ts : List ℕ) (r : SocketRegistry Socket) :
      (ts.foldl (fun r t => r.deactivate t) r).getIfActive t =
        if t ∈ ts then none else r.getIfActive t := by
    induction ts generalizing r with
    | nil => rfl
    | cons u ts ih =>
      rw [List.foldl_cons, ih, deactivate_getIfActive]
      by_cases hu : t = u <;> by_cases hts : t ∈ ts <;> simp [hu, hts]
  have hclear : r.clear.getIfActive t = (r.entries.foldl (fun r t => r.deactivate t) r).getIfActive t := rfl
  rw [hclear, hfold]
  split
  · rfl
  · rename_i hmem
    rw [h.listed t] at hmem
    simpa using hmem

section

variable [DecidableEq Socket]

theorem find_isSome : (r.find s).isSome = true ↔ r.Lists s := by
  simp [find, Lists]

theorem find_some (h : r.find s = some t) : t ∈ r.entries ∧ r.getIfActive t = some s :=
  ⟨List.mem_of_find?_eq_some h, by simpa using List.find?_some h⟩

/-- Every call on a sound registry does what `Meets` says. -/
theorem Sound.meets (h : r.Sound) (o : RegistryOp Socket) : r.Meets o (exec o r) := by
  cases o with
  | add socket =>
    cases socket with
    | none => exact .inr ⟨nofun, rfl, rfl⟩
    | some s =>
      by_cases hs : r.Lists s
      · refine .inr ⟨fun s' hs' => Option.some.inj hs' ▸ hs, ?_⟩
        simp [add, find_isSome.mpr hs]
      · have hfind : ¬(r.find s).isSome = true := fun hf => hs (find_isSome.mp hf)
        refine .inl ⟨s, r.registrations.length, rfl, hs, ?_⟩
        simp only [add, if_neg hfind]
        exact ⟨trivial, r.adds s⟩
  | removeIndex index =>
    cases ht : r.entries[index]? with
    | none =>
      refine .inr ⟨List.getElem?_eq_none_iff.mp ht, ?_⟩
      simp [removeIndex, ht]
    | some t =>
      refine .inl ⟨t, ht, ?_⟩
      have hmem : t ∈ r.entries := List.mem_of_getElem? ht
      obtain ⟨hlt, hget⟩ := List.getElem?_eq_some_iff.mp ht
      have herase : r.entries.eraseIdx index = r.entries.erase t := by
        rw [← hget, h.nodup.erase_getElem index hlt]
      simp only [removeIndex, ht, herase]
      exact ⟨trivial, r.removes hmem⟩
  | removeSocket socket =>
    cases socket with
    | none => exact .inr ⟨nofun, rfl, rfl⟩
    | some s =>
      cases hfind : r.find s with
      | none =>
        have hs : ¬r.Lists s := fun hs => by simpa [hfind] using find_isSome.mpr hs
        refine .inr ⟨fun s' hs' => Option.some.inj hs' ▸ hs, ?_⟩
        simp [removeSocket, hfind]
      | some t =>
        obtain ⟨hmem, hactive⟩ := find_some hfind
        refine .inl ⟨s, t, rfl, hactive, ?_⟩
        simp only [removeSocket, Option.bind_some, hfind]
        exact ⟨trivial, r.removes hmem⟩
  | clear => exact ⟨rfl, rfl, clear_getIfActive h⟩
  | snapshot => exact ⟨rfl, rfl⟩
  | size => exact ⟨rfl, rfl⟩

end

namespace Sound

theorem empty : Sound ({} : SocketRegistry Socket) := ⟨List.nodup_nil, by simp [getIfActive], by simp [getIfActive]⟩

theorem adds (h : r.Sound) (hs : ¬r.Lists s) (hadds : Adds s t r r') : r'.Sound := by
  have hnone : r.getIfActive t = none := getIfActive_none hadds.fresh
  have hfresh : t ∉ r.entries := fun hmem => by simpa [hnone] using (h.listed t).mp hmem
  have hlists {u : ℕ} (hu : r.getIfActive u = some s) : False :=
    hs ⟨u, (h.listed u).mpr (by rw [hu]; rfl), hu⟩
  refine ⟨?_, fun u => ?_, fun u u' x hu hu' => ?_⟩
  · rw [hadds.entries]
    exact List.nodup_append_comm.mp (List.nodup_cons.mpr ⟨hfresh, h.nodup⟩)
  · rw [hadds.entries, List.mem_append, List.mem_singleton]
    by_cases hut : u = t
    · simp [hut, hadds.active]
    · rw [hadds.others u hut, h.listed u]
      simp [hut]
  · by_cases hut : u = t <;> by_cases hut' : u' = t
    · rw [hut, hut']
    · rw [hut, hadds.active] at hu
      rw [hadds.others u' hut', ← hu] at hu'
      exact (hlists hu').elim
    · rw [hut', hadds.active] at hu'
      rw [hadds.others u hut, ← hu'] at hu
      exact (hlists hu).elim
    · rw [hadds.others u hut] at hu
      rw [hadds.others u' hut'] at hu'
      exact h.distinct u u' x hu hu'

theorem removes (h : r.Sound) (hremoves : Removes t r r') : r'.Sound := by
  have hother {u : ℕ} {x : Socket} (hu : r'.getIfActive u = some x) : r.getIfActive u = some x := by
    by_cases hut : u = t
    · rw [hut, hremoves.inactive] at hu
      cases hu
    · rwa [hremoves.others u hut] at hu
  refine ⟨?_, fun u => ?_, fun u u' x hu hu' => h.distinct u u' x (hother hu) (hother hu')⟩
  · rw [hremoves.entries]
    exact h.nodup.erase t
  · rw [hremoves.entries, h.nodup.mem_erase_iff]
    by_cases hut : u = t
    · simp [hut, hremoves.inactive]
    · rw [hremoves.others u hut, h.listed u]
      simp [hut]

theorem cleared (hentries : r'.entries = []) (hnone : ∀ t, r'.getIfActive t = none) : r'.Sound := by
  refine ⟨?_, fun u => ?_, fun u u' x hu => ?_⟩
  · rw [hentries]
    exact List.nodup_nil
  · rw [hentries, hnone]
    simp
  · rw [hnone] at hu
    cases hu

theorem exec [DecidableEq Socket] (h : r.Sound) (o : RegistryOp Socket) : (exec o r).2.Sound := by
  have hmeets := h.meets o
  have hsame {x : SocketRegistry Socket} (hx : x = r) : x.Sound := hx ▸ h
  cases o with
  | add socket =>
    rcases hmeets with ⟨s, t, -, hs, -, hadds⟩ | ⟨-, -, he⟩
    · exact h.adds hs hadds
    · exact hsame he
  | removeIndex index =>
    rcases hmeets with ⟨t, -, -, hremoves⟩ | ⟨-, -, he⟩
    · exact h.removes hremoves
    · exact hsame he
  | removeSocket socket =>
    rcases hmeets with ⟨s, t, -, -, -, hremoves⟩ | ⟨-, -, he⟩
    · exact h.removes hremoves
    · exact hsame he
  | clear => exact cleared hmeets.2.1 hmeets.2.2
  | snapshot => exact h
  | size => exact h

end Sound

section Runs

variable [DecidableEq Socket] {ι : Type} [DecidableEq ι] {t : ℕ}
variable {c c' : Config (SocketRegistry Socket) (RegistryOp Socket ⊕ RegistryAnswer) ι}
variable {tr tr' : List (Label (RegistryOp Socket) RegistryAnswer ι)}

/-- A token that has been deactivated. -/
def Inert (t : ℕ) (r : SocketRegistry Socket) : Prop :=
  t < r.registrations.length ∧ r.getIfActive t = none

theorem exec_length (o : RegistryOp Socket) (r : SocketRegistry Socket) :
    r.registrations.length ≤ (exec o r).2.registrations.length := by
  cases o with
  | add socket =>
    cases socket with
    | none => exact Nat.le_refl _
    | some s =>
      show _ ≤ (r.add (some s)).2.registrations.length
      unfold add
      dsimp only
      split
      · exact Nat.le_refl _
      · simp
  | removeIndex index =>
    show _ ≤ (r.removeIndex index).2.registrations.length
    unfold removeIndex
    split
    · exact Nat.le_refl _
    · simp [deactivate]
  | removeSocket socket =>
    show _ ≤ (r.removeSocket socket).2.registrations.length
    unfold removeSocket
    split
    · exact Nat.le_refl _
    · simp [deactivate]
  | clear =>
    have hfold (ts : List ℕ) (r : SocketRegistry Socket) :
        (ts.foldl (fun r t => r.deactivate t) r).registrations.length = r.registrations.length := by
      induction ts generalizing r with
      | nil => rfl
      | cons u ts ih => rw [List.foldl_cons, ih, deactivate, List.length_modify]
    exact Nat.le_of_eq (hfold r.entries r).symm
  | snapshot => exact Nat.le_refl _
  | size => exact Nat.le_refl _

theorem Inert.exec (h : r.Inert t) (hs : r.Sound) (o : RegistryOp Socket) :
    (SocketRegistry.exec o r).2.Inert t := by
  refine ⟨Nat.lt_of_lt_of_le h.1 (exec_length o r), ?_⟩
  have hmeets := hs.meets o
  have hremoved {u : ℕ} {x : SocketRegistry Socket} (hu : Removes u r x) : x.getIfActive t = none := by
    by_cases htu : t = u
    · exact htu ▸ hu.inactive
    · exact (hu.others t htu).trans h.2
  have hsame {x : SocketRegistry Socket} (hx : x = r) : x.getIfActive t = none := hx ▸ h.2
  cases o with
  | add socket =>
    rcases hmeets with ⟨s, u, -, -, -, hadds⟩ | ⟨-, -, he⟩
    · have htu : t ≠ u := Nat.ne_of_lt (Nat.lt_of_lt_of_le h.1 hadds.fresh)
      exact (hadds.others t htu).trans h.2
    · exact hsame he
  | removeIndex index =>
    rcases hmeets with ⟨u, -, -, hu⟩ | ⟨-, -, he⟩
    · exact hremoved hu
    · exact hsame he
  | removeSocket socket =>
    rcases hmeets with ⟨s, u, -, -, -, hu⟩ | ⟨-, -, he⟩
    · exact hremoved hu
    · exact hsame he
  | clear => exact hmeets.2.2 t
  | snapshot => exact h.2
  | size => exact h.2

/-- What every atomic operation keeps, every run keeps. -/
theorem keeps {I : SocketRegistry Socket → Prop} (hI : ∀ o r, I r → I (exec o r).2)
    (hrun : Run (.atomic exec) (fun _ _ => True) c tr c') (hc : I c.shared) : I c'.shared := by
  refine hrun.keeps (I := fun _ c => I c.shared) ⟨fun _ _ _ _ _ h => h, fun _ c i k _ _ _ h => ?_,
    fun _ _ _ _ _ _ _ h => h⟩ hc
  cases k with
  | inl o => exact hI o _ h
  | inr a => exact h

/-- The tokens that an answer holds are registered. -/
def Holds (r : SocketRegistry Socket) (a : RegistryAnswer) : Prop :=
  ∀ ts, a = .tokens ts → ∀ t ∈ ts, t < r.registrations.length

theorem Holds.exec {a : RegistryAnswer} (h : r.Holds a) (o : RegistryOp Socket) :
    (SocketRegistry.exec o r).2.Holds a :=
  fun ts ha t ht => Nat.lt_of_lt_of_le (h ts ha t ht) (exec_length o r)

theorem Sound.holds (h : r.Sound) (o : RegistryOp Socket) : r.Holds (SocketRegistry.exec o r).1 := by
  intro ts ha t ht
  cases o with
  | snapshot =>
    obtain rfl := RegistryAnswer.tokens.inj ha
    obtain ⟨s, hs⟩ := Option.isSome_iff_exists.mp ((h.listed t).mp ht)
    exact lt_of_getIfActive hs
  | _ => cases ha

/-- Answers given and answers still to be given hold registered tokens. -/
structure Handed (tr : List (Label (RegistryOp Socket) RegistryAnswer ι))
    (c : Config (SocketRegistry Socket) (RegistryOp Socket ⊕ RegistryAnswer) ι) : Prop where
  sound : c.shared.Sound
  given : ∀ i a, .ret i a ∈ tr → c.shared.Holds a
  ready : ∀ i a, c.calls i = some (.inr a) → c.shared.Holds a

theorem handed (hrun : Run (.atomic exec) (fun _ _ => True) (.start {}) tr c) : Handed tr c := by
  refine hrun.keeps ⟨fun tr c i o _ h => ?_, fun tr c i k hk _ _ h => ?_, fun tr c i k r hk hr h => ?_⟩
    ⟨.empty, nofun, nofun⟩
  · refine ⟨h.sound, fun j a hmem => h.given j a ?_, fun j a hj => ?_⟩
    · simpa using hmem
    · by_cases hji : j = i
      · subst hji
        rw [Config.set_self] at hj
        cases hj
      · exact h.ready j a (by rwa [Config.set_other hji] at hj)
  · cases k with
    | inr a => cases ‹Option.some a = none›
    | inl o =>
      refine ⟨h.sound.exec o, fun j a hmem => (h.given j a hmem).exec o, fun j a hj => ?_⟩
      by_cases hji : j = i
      · subst hji
        rw [Config.set_self] at hj
        obtain rfl := Sum.inr.inj (Option.some.inj hj)
        exact (h.sound.holds o).exec o
      · exact (h.ready j a (by rwa [Config.set_other hji] at hj)).exec o
  · cases k with
    | inl o => cases hr
    | inr a =>
      obtain rfl := Option.some.inj hr
      refine ⟨h.sound, fun j a' hmem => ?_, fun j a' hj => ?_⟩
      · rcases List.mem_append.mp hmem with hold | hnew
        · exact h.given j a' hold
        · obtain ⟨rfl, rfl⟩ := Label.ret.inj (List.mem_singleton.mp hnew)
          exact h.ready j a' hk
      · by_cases hji : j = i
        · subst hji
          rw [Config.set_self] at hj
          cases hj
        · exact h.ready j a' (by rwa [Config.set_other hji] at hj)

/-- However the calls of any number of threads interleave: the listed tokens are the
active ones, no two of them have the same socket, and every call does what `Meets`
says.  A token that a snapshot has handed out is active as long as it is listed, and
once it is inactive it stays inactive. -/
theorem registry_tokens (hrun : Run (.atomic exec) (fun _ _ => True) (.start {}) tr c) :
    c.shared.Sound ∧ (∀ o, c.shared.Meets o (exec o c.shared)) ∧
      ∀ i ts, .ret i (.tokens ts) ∈ tr → ∀ t ∈ ts,
        t < c.shared.registrations.length ∧
        ((c.shared.getIfActive t).isSome = true ↔ t ∈ c.shared.entries) ∧
        ∀ tr' c', c.shared.getIfActive t = none →
          Run (.atomic exec) (fun _ _ => True) c tr' c' → c'.shared.getIfActive t = none := by
  have h := handed hrun
  refine ⟨h.sound, h.sound.meets, fun i ts hts t ht => ?_⟩
  have hlt : t < c.shared.registrations.length := h.given i _ hts ts rfl t ht
  refine ⟨hlt, (h.sound.listed t).symm, fun tr' c' hnone hrun' => ?_⟩
  have hkept : c'.shared.Sound ∧ c'.shared.Inert t :=
    keeps (I := fun r => r.Sound ∧ r.Inert t) (fun o r hr => ⟨hr.1.exec o, hr.2.exec hr.1 o⟩) hrun'
      ⟨h.sound, hlt, hnone⟩
  exact hkept.2.2

end Runs

/-- One thread adds a socket, removes it and adds it again; another has taken a
snapshot in between. -/
def readding : List (Label (RegistryOp ℕ) RegistryAnswer Bool) × SocketRegistry ℕ :=
  serial exec [(false, .add (some 7)), (true, .snapshot), (false, .removeSocket (some 7)),
    (false, .add (some 7))] {}

theorem registry_tokens_readding :
    .ret true (.tokens [0]) ∈ readding.1 ∧ readding.2.entries = [1] ∧ readding.2.Sound ∧
      ((readding.2.getIfActive 0).isSome = true ↔ 0 ∈ readding.2.entries) := by
  have hmem : .ret true (.tokens [0]) ∈ readding.1 := by decide
  have hrun : Run (.atomic exec) (fun _ _ => True) (.start {}) readding.1 (.start readding.2) :=
    serial_run exec _ {}
  obtain ⟨hsound, -, htokens⟩ := registry_tokens hrun
  exact ⟨hmem, by decide, hsound, (htokens true [0] hmem 0 (by simp)).2.1⟩

end SocketRegistry

end Aeon
