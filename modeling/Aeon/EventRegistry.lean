import Aeon.EventOps
import Aeon.SetRegistry

/-!
# The registries of the event loop

The event loop keeps the tokens of both registries in one list.  Seen from each
registry, its operations are those of `basic_socket_registry`.
-/

namespace Aeon

open Program EventWorld EventLoop

namespace EventWorld

variable {w : EventWorld} {o : EventObject} {id : ℕ} {udp : Bool}

def registry (udp : Bool) (w : EventWorld) : SocketRegistry ℕ where
  registrations := w.registrations.map fun r => ⟨r.socket, r.active⟩
  entries := if udp then w.udpSockets else w.sockets

theorem registry_getIfActive (t : ℕ) (udp : Bool) (w : EventWorld) :
    (w.registry udp).getIfActive t = w.registrations[t]?.bind fun r =>
      if r.active then some r.socket else none := by
  simp only [SocketRegistry.getIfActive, registry, List.getElem?_map]
  cases w.registrations[t]? <;> rfl

/-- A token is active in the event loop as it is in its registry. -/
theorem registry_active (t : ℕ) (udp : Bool) (w : EventWorld) :
    w.active t = ((w.registry udp).getIfActive t).isSome := by
  rw [registry_getIfActive, active]
  cases w.registrations[t]? with
  | none => rfl
  | some r => cases hr : r.active <;> simp [hr]

theorem registry_holds (t : ℕ) (udp : Bool) (w : EventWorld) :
    w.registrations[t]? = some ⟨id, true⟩ ↔ (w.registry udp).getIfActive t = some id := by
  rw [registry_getIfActive]
  cases w.registrations[t]? with
  | none => simp
  | some r =>
    obtain ⟨i, a⟩ := r
    cases a <;> simp

theorem registry_find (udp : Bool) (w : EventWorld) :
    (w.registry udp).find id = (if udp then w.udpSockets else w.sockets).find? fun t =>
      w.registrations[t]? = some ⟨id, true⟩ := by
  refine congr_arg (List.find? · _) (funext fun t => ?_)
  rw [decide_eq_decide]
  exact (registry_holds t udp w).symm

theorem add_registry (ho : w.find id = some o) :
    (add (some id) w).1 = .ok ((w.registry o.isUdp).add (some id)).1 ∧
      (add (some id) w).2.registry o.isUdp = ((w.registry o.isUdp).add (some id)).2 := by
  have hfound : ((if o.isUdp then w.udpSockets else w.sockets).any fun t =>
      w.registrations[t]? = some ⟨id, true⟩) = ((w.registry o.isUdp).find id).isSome := by
    rw [registry_find, List.isSome_find?]
  unfold add SocketRegistry.add
  simp only [ho, hfound]
  by_cases hlisted : ((w.registry o.isUdp).find id).isSome = true
  · simp [hlisted]
  · rw [if_neg hlisted, if_neg hlisted]
    refine ⟨rfl, ?_⟩
    cases hudp : o.isUdp <;> simp [registry]

theorem deactivate_registry (t : ℕ) (udp : Bool) (w : EventWorld) :
    (deactivate t w).registry udp = { (w.registry udp).deactivate t with
      entries := (w.registry udp).entries.erase t } := by
  have hregs : (w.registrations.modify t fun r => { r with active := false }).map
      (fun r => (⟨r.socket, r.active⟩ : SocketRegistration ℕ)) =
      (w.registrations.map fun r => ⟨r.socket, r.active⟩).modify t fun x => { x with active := false } := by
    refine List.ext_getElem? fun i => ?_
    simp only [List.getElem?_map, List.getElem?_modify]
    by_cases hi : t = i <;> cases w.registrations[i]? <;> simp [hi]
  simp only [registry, deactivate, SocketRegistry.deactivate, hregs]
  cases udp <;> rfl

theorem removeSocket_registry (udp : Bool) (id : Option ℕ) (w : EventWorld) :
    (removeSocket udp id w).1 = .ok ((w.registry udp).removeSocket id).1 ∧
      (removeSocket udp id w).2.registry udp = ((w.registry udp).removeSocket id).2 := by
  cases id with
  | none => exact ⟨rfl, rfl⟩
  | some id =>
    have hfind : _ = (w.registry udp).find id := (registry_find udp w).symm
    unfold SocketRegistry.removeSocket
    rw [Option.bind_some]
    unfold removeSocket
    dsimp only
    rw [Code.bind_run, Code.read_run]
    dsimp only
    rw [hfind]
    cases (w.registry udp).find id with
    | none => exact ⟨rfl, rfl⟩
    | some t => exact ⟨rfl, deactivate_registry t udp w⟩

end EventWorld

end Aeon
