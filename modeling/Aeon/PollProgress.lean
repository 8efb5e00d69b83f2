import Aeon.PollEffects
import Aeon.PollRegistry

/-!
# A `poll` in progress

`Mid` holds between the steps of `poll`, and says which sockets `poll` comes to
later.  A handler may do anything that handlers can do, and every statement of the
poll loop is proved from what is left of `Mid` then.
-/

namespace Aeon

open Program Reentrant History EventWorld EventLoop

/-- `poll` may end here. -/
def Phase.settled : Phase → Bool
  | .due .. | .owed .. => false
  | _ => true

/-- A token of the snapshot, and the object that it points to. -/
structure Known (t id : ℕ) (w : EventWorld) : Prop where
  registered : ∃ b : Bool, w.registrations[t]? = some ⟨id, b⟩
  snapshot : ∃ ts, latest PollEvent.snapshot w.log = some ts ∧ t ∈ ts

structure Ready (t id : ℕ) (w : EventWorld) : Prop extends Known t id w where
  active : w.active t = true

/-- The object is open on the connection that was watched. -/
structure Held (p : Watch) (w : EventWorld) : Prop extends Ready p.token p.socket w where
  object : ∃ o, w.find p.socket = some o ∧ o.base.isValidSocket = true ∧
    (Unreplaced w.log → o.connection = p.connection)

/-- Between two steps of a `poll` that comes to `pending` later. -/
structure Mid (h : LoopHost) (pending : Pending) (φ : Phase) (w : EventWorld) : Prop where
  sane : Sane w
  polling : w.polling = true
  phase : h.ClosesSucceed → ∃ off, track w.log = some ⟨φ, off⟩
  known : ∀ q ∈ pending, Known q.1.token q.1.socket w
  direct : Unreplaced w.log → Always Direct w.log
  kept : Unreplaced w.log → ∀ q ∈ pending, w.replaces q.1 q.2 = false

/-- `poll` ends, or is ended by an exception. -/
def Exit (h : LoopHost) (w : EventWorld) : Prop := ∃ φ : Phase, φ.settled = true ∧ Mid h [] φ w

section State

variable {h : LoopHost} {pending pending' : Pending} {φ φ' : Phase} {w w' : EventWorld} {t id : ℕ}
variable {p : Watch} {o o' : EventObject} {e : PollEvent}

theorem Unreplaced.of_append {log es : List PollEvent} (h : Unreplaced (log ++ es)) :
    Unreplaced log := fun t ht => h t (List.mem_append_left _ ht)

namespace Known

theorem of_eq (hk : Known t id w) (hregs : w'.registrations = w.registrations)
    (hsnap : latest PollEvent.snapshot w'.log = latest PollEvent.snapshot w.log) :
    Known t id w' := ⟨hregs ▸ hk.registered, hsnap ▸ hk.snapshot⟩

theorem logged (hk : Known t id w) (he : e.snapshot = none) : Known t id (w.logged e) :=
  hk.of_eq rfl (latest_append fun _ hmem => List.mem_singleton.mp hmem ▸ he)

theorem edits (hk : Known t id w) (hedits : Edits w w') : Known t id w' := by
  obtain ⟨⟨b, hb⟩, ts, hts, hmem⟩ := hk
  obtain ⟨es, hlog, hes⟩ := hedits.log
  refine ⟨hedits.registrations t id b hb, ts, ?_, hmem⟩
  rw [hlog, latest_append fun e' he' => ?_, hts]
  have hreg := hes e' he'
  cases e' with
  | began => cases hreg
  | _ => rfl

/-- An active token points to the object that it has pointed to. -/
theorem ready (hk : Known t id w) (hactive : w.active t = true) : Ready t id w :=
  { hk with active := hactive }

end Known

namespace Ready

theorem registration (hr : Ready t id w) : w.registrations[t]? = some ⟨id, true⟩ := by
  obtain ⟨b, hb⟩ := hr.registered
  have hactive := hr.active
  rw [EventWorld.active, hb] at hactive
  rw [hb, show b = true from hactive]

theorem find (hr : Ready t id w) (hs : Sane w) : ∃ o, w.find id = some o := hs.find hr.registration

/-- What `poll` does with an active token of its snapshot is proper. -/
theorem proper (hr : Ready t id w) (hs : Sane w) (he : e.touches = some t) : Proper w.log e := by
  refine ⟨fun t' ht' => ?_, fun t' ht' => ?_, ?_, ?_, ?_⟩
  · obtain rfl := Option.some.inj (he.symm.trans ht')
    exact (hs.active t id true hr.registration).mp rfl
  · obtain rfl := Option.some.inj (he.symm.trans ht')
    exact hr.snapshot
  · rintro t' i rfl
    cases he
  · rintro ts rfl
    cases he
  · rintro t' rfl
    cases he

theorem logged (hr : Ready t id w) (he : e.snapshot = none) : Ready t id (w.logged e) :=
  (hr.toKnown.logged he).ready hr.active

theorem store {i : ℕ} (hr : Ready t id w) (o : EventObject) : Ready t id (w.store i o) :=
  Known.ready (hr.toKnown.of_eq rfl rfl) hr.active

end Ready

/-- An event that is not about a token is proper. -/
theorem proper_of_untouched {pre : List PollEvent} (htouch : e.touches = none)
    (hreg : e.registry = false) (hsnap : e.snapshot = none) (hdangling : ∀ t, e ≠ .dangling t) :
    Proper pre e := by
  refine ⟨fun t ht => ?_, fun t ht => ?_, ?_, ?_, hdangling⟩
  · cases htouch.symm.trans ht
  · cases htouch.symm.trans ht
  · rintro t i rfl
    cases hreg
  · rintro ts rfl
    cases hsnap

theorem replaces_store {any : Bool} (ho : w.find id = some o) (hmild : o.Mild o')
    (h : w.replaces p any = false) : (w.store id o').replaces p any = false := by
  by_cases hid : p.socket = id
  · subst hid
    unfold replaces at h ⊢
    rw [show (w.store p.socket o').active p.token = w.active p.token from rfl,
      find_store_same ho]
    rw [ho] at h
    simp only [Option.elim_some] at h ⊢
    rw [hmild.connection]
    rcases hmild.sockfd with hfd | hfd
    · rwa [Socket.isValidSocket, hfd]
    · rw [Socket.isValidSocket, hfd]
      simp
  · unfold replaces at h ⊢
    rwa [find_store_ne hid]

namespace Held

theorem logged (hh : Held p w) (he : e.snapshot = none) : Held p (w.logged e) := by
  obtain ⟨o, ho, hvalid, hsame⟩ := hh.object
  exact { hh.toReady.logged he with object := ⟨o, ho, hvalid, fun hun => hsame hun.of_append⟩ }

theorem store (hh : Held p w) (ho : w.find p.socket = some o) (hcalm : o.Calm o') :
    Held p (w.store p.socket o') := by
  obtain ⟨o₁, ho₁, hvalid, hsame⟩ := hh.object
  obtain rfl := Option.some.inj (ho.symm.trans ho₁)
  refine { hh.toReady.store o' with object := ⟨o', find_store_same ho, ?_, fun hun => ?_⟩ }
  · rwa [Socket.isValidSocket, hcalm.sockfd]
  · exact hcalm.connection.trans (hsame hun)

theorem replaces (hh : Held p w) (any : Bool) (hun : Unreplaced w.log) :
    w.replaces p any = false := by
  obtain ⟨o, ho, -, hsame⟩ := hh.object
  simp [EventWorld.replaces, ho, hsame hun]

end Held

namespace Mid

theorem pend (hm : Mid h pending φ w) (hsub : pending' ⊆ pending) : Mid h pending' φ w :=
  { hm with
    known := fun q hq => hm.known q (hsub hq)
    kept := fun hun q hq => hm.kept hun q (hsub hq) }

theorem hold (hm : Mid h pending φ w) (hh : Held p w) (any : Bool) :
    Mid h ((p, any) :: pending) φ w :=
  { hm with
    known := List.forall_mem_cons.mpr ⟨hh.toKnown, hm.known⟩
    kept := fun hun => List.forall_mem_cons.mpr ⟨hh.replaces any hun, hm.kept hun⟩ }

/-- A pending socket that has the watched descriptor, or is open at all when that
is compared, is open on the watched connection. -/
theorem held {any : Bool} (hm : Mid h pending φ w) (hmem : (p, any) ∈ pending)
    (hr : Ready p.token p.socket w) (ho : w.find p.socket = some o)
    (hvalid : o.base.isValidSocket = true) (hfd : any = true ∨ o.base.sockfd = some p.fd) :
    Held p w := by
  refine { hr with object := ⟨o, ho, hvalid, fun hun => ?_⟩ }
  have hkept := hm.kept hun _ hmem
  by_contra hne
  simp [replaces, hr.active, ho, hvalid, hne] at hkept
  rcases hfd with rfl | hfd
  · exact Bool.noConfusion hkept.1
  · exact hkept.2 hfd

theorem exit (hm : Mid h pending φ w) (hφ : φ.settled = true) : Exit h w :=
  ⟨φ, hφ, hm.pend (List.nil_subset _)⟩

theorem rename (hm : Mid h pending φ w) (hφ : h.ClosesSucceed → φ' = φ) : Mid h pending φ' w :=
  { hm with phase := fun hclose => hφ hclose ▸ hm.phase hclose }

theorem aside (hm : Mid h pending φ w) (hobjects : w'.objects = w.objects)
    (hregs : w'.registrations = w.registrations) (hsockets : w'.sockets = w.sockets)
    (hudp : w'.udpSockets = w.udpSockets) (hpolling : w'.polling = w.polling)
    (hlog : w'.log = w.log) : Mid h pending φ w' where
  sane := hm.sane.of_eq hobjects hregs hsockets hudp hlog
  polling := hpolling.trans hm.polling
  phase hclose := hlog ▸ hm.phase hclose
  known q hq := (hm.known q hq).of_eq hregs (by rw [hlog])
  direct hun := hlog ▸ hm.direct (hlog ▸ hun)
  kept hun q hq := by
    have hkept := hm.kept (hlog ▸ hun) q hq
    simpa only [replaces, active, find, hobjects, hregs] using hkept

theorem logged (hm : Mid h pending φ w) (hproper : Proper w.log e) (hreg : e.registry = false)
    (hsnap : e.snapshot = none)
    (hphase : ∀ off, (∀ t, t ∈ off ↔ .deactivated t ∈ w.log) → φ.next off e = some φ')
    (hdirect : Unreplaced w.log → Direct w.log e) : Mid h pending φ' (w.logged e) where
  sane := hm.sane.logged hproper hreg hsnap
  polling := hm.polling
  phase hclose := track_next (hm.phase hclose) hphase
  known q hq := (hm.known q hq).logged hsnap
  direct hun := (hm.direct hun.of_append).snoc (hdirect hun.of_append)
  kept hun q hq := hm.kept hun.of_append q hq

theorem stored (hm : Mid h pending φ w) (ho : w.find id = some o) (hmild : o.Mild o') :
    Mid h pending φ (w.store id o') where
  sane := hm.sane.store ho hmild.cls
  polling := hm.polling
  phase := hm.phase
  known q hq := (hm.known q hq).of_eq rfl rfl
  direct := hm.direct
  kept hun q hq := replaces_store ho hmild (hm.kept hun q hq)

/-- A use of the object of an active token. -/
theorem used (hm : Mid h pending φ w) (hr : Ready t id w) (ho : w.find id = some o)
    (hmild : o.Mild o') (he : e.touches = some t) (hphase : ∀ off, φ.next off e = some φ')
    (hdirect : Unreplaced w.log → Direct w.log e) :
    Mid h pending φ' ((w.store id o').logged e) := by
  have hstored := hm.stored ho hmild
  refine hstored.logged ((hr.store o').proper hstored.sane he) ?_ ?_ (fun off _ => hphase off) hdirect
  · cases e <;> first | rfl | cases he
  · cases e <;> first | rfl | cases he

/-- What is left after handlers have run. -/
theorem edits (hm : Mid h pending φ w) (hs : Sane w') (hedits : Edits w w') : Mid h [] φ w' := by
  obtain ⟨es, hlog, hes⟩ := hedits.log
  refine ⟨hs, hedits.polling.trans hm.polling, fun hclose => ?_, by simp, fun hun => ?_, by simp⟩
  · rw [hlog]
    exact track_registry (hm.phase hclose) hes
  · rw [hlog] at hun ⊢
    refine (hm.direct hun.of_append).append fun e he pre t a watched current hdid => ?_
    have hreg := hes e he
    rw [hdid] at hreg
    cases hreg

theorem replaced (hm : Mid h [] φ w) (ts : List ℕ) :
    Mid h [] φ { w with log := w.log ++ ts.map .replaced } := by
  induction ts using List.reverseRecOn with
  | nil => simpa using hm
  | append_singleton ts t ih =>
    have hnext : Mid h [] φ (EventWorld.logged (.replaced t)
        { w with log := w.log ++ ts.map .replaced }) :=
      ih.logged (proper_of_untouched rfl rfl rfl nofun) rfl rfl (fun _ _ => rfl) fun _ => nofun
    simpa [EventWorld.logged] using hnext

/-- The connections are compared after a handler call. -/
theorem compared (hm : Mid h [] φ w) (hknown : ∀ q ∈ pending, Known q.1.token q.1.socket w) :
    Mid h pending φ { w with log := w.log ++
      (pending.filter fun q => w.replaces q.1 q.2).map fun q => .replaced q.1.token } := by
  have hall := hm.replaced ((pending.filter fun q => w.replaces q.1 q.2).map fun q => q.1.token)
  rw [List.map_map] at hall
  refine { hall with known := fun q hq => (hknown q hq).of_eq rfl ?_, kept := fun hun q hq => ?_ }
  · refine latest_append fun e he => ?_
    obtain ⟨q', -, rfl⟩ := List.mem_map.mp he
    rfl
  · by_contra hrep
    refine hun q.1.token (List.mem_append_right _ (List.mem_map.mpr ⟨q, ?_, rfl⟩))
    exact List.mem_filter.mpr ⟨hq, (Bool.not_eq_false _).mp hrep⟩

end Mid

end State

end Aeon
