import Aeon.SocketRegistry

/-!
# The two registries of an event set

`add`, `remove` and `size` of `event_socket_set`.  The two registries have a lock
each, and `remove(index)` and `size()` take one after the other.
-/

namespace Aeon

open Threads

structure SetRegistries (S U : Type) where
  sockets : SocketRegistry S := {}
  udpSockets : SocketRegistry U := {}
  deriving DecidableEq

inductive SetOp (S U : Type)
  | add (socket : Option S)
  | addUdp (socket : Option U)
  | remove (index : ℕ)
  | removeSocket (socket : Option S)
  | removeUdpSocket (socket : Option U)
  | size
  deriving DecidableEq

inductive SetAnswer
  | flag (b : Bool)
  | count (n : ℕ)
  deriving DecidableEq

/-- Where a call stands.  `remove` and `size` have the count of the TCP sockets
before they take the second lock. -/
inductive SetCall (S U : Type)
  | calling (o : SetOp S U)
  | removing (index tcpCount : ℕ)
  | sizing (tcpCount : ℕ)
  | done (a : SetAnswer)
  deriving DecidableEq

namespace SetRegistries

variable {S U : Type}

def onSockets (f : SocketRegistry S → Bool × SocketRegistry S) (w : SetRegistries S U) :
    SetAnswer × SetRegistries S U :=
  (.flag (f w.sockets).1, { w with sockets := (f w.sockets).2 })

def onUdp (f : SocketRegistry U → Bool × SocketRegistry U) (w : SetRegistries S U) :
    SetAnswer × SetRegistries S U :=
  (.flag (f w.udpSockets).1, { w with udpSockets := (f w.udpSockets).2 })

/-- The second lock of `remove(index)`. -/
def removeAt (index tcpCount : ℕ) : SetRegistries S U → SetAnswer × SetRegistries S U :=
  if index < tcpCount then onSockets (SocketRegistry.removeIndex index)
  else onUdp (SocketRegistry.removeIndex (index - tcpCount))

variable [DecidableEq S] [DecidableEq U]

/-- A call that has returned. -/
def ended (r : SetAnswer × SetRegistries S U) : SetCall S U × SetRegistries S U := (.done r.1, r.2)

def step : SetCall S U → SetRegistries S U → SetCall S U × SetRegistries S U
  | .calling (.add socket), w => ended (w.onSockets (SocketRegistry.add socket))
  | .calling (.addUdp socket), w => ended (w.onUdp (SocketRegistry.add socket))
  | .calling (.removeSocket socket), w => ended (w.onSockets (SocketRegistry.removeSocket socket))
  | .calling (.removeUdpSocket socket), w => ended (w.onUdp (SocketRegistry.removeSocket socket))
  | .calling (.remove index), w => (.removing index w.sockets.entries.length, w)
  | .calling .size, w => (.sizing w.sockets.entries.length, w)
  | .removing index tcpCount, w => ended (w.removeAt index tcpCount)
  | .sizing tcpCount, w => ended (.count (tcpCount + w.udpSockets.entries.length), w)
  | .done a, w => (.done a, w)

def object : Object (SetRegistries S U) (SetCall S U) (SetOp S U) SetAnswer where
  start := .calling
  step := step
  result
    | .done a => some a
    | _ => none

/-- Every call executed at one instant: `remove` takes the element with the index
out of the TCP registrations followed by the UDP registrations. -/
def instant : SetOp S U → SetRegistries S U → SetAnswer × SetRegistries S U
  | .add socket, w => w.onSockets (SocketRegistry.add socket)
  | .addUdp socket, w => w.onUdp (SocketRegistry.add socket)
  | .remove index, w => w.removeAt index w.sockets.entries.length
  | .removeSocket socket, w => w.onSockets (SocketRegistry.removeSocket socket)
  | .removeUdpSocket socket, w => w.onUdp (SocketRegistry.removeSocket socket)
  | .size, w => (.count (w.sockets.entries.length + w.udpSockets.entries.length), w)

variable {ι : Type}

/-- What was read under the first lock still holds under the second: a `remove` of a
TCP socket has its index still in range, and for the others the count is the same. -/
def Current (c : Config (SetRegistries S U) (SetCall S U) ι) (i : ι) : Prop :=
  match c.calls i with
  | some (.removing index tcpCount) =>
    if index < tcpCount then index < c.shared.sockets.entries.length
    else c.shared.sockets.entries.length = tcpCount
  | some (.sizing tcpCount) => c.shared.sockets.entries.length = tcpCount
  | _ => True

/-- A call corresponds to the same call of atomic operations. -/
inductive Corresponds : SetCall S U → SetOp S U ⊕ SetAnswer → Prop
  | calling (o : SetOp S U) : Corresponds (.calling o) (.inl o)
  | removing (index tcpCount : ℕ) : Corresponds (.removing index tcpCount) (.inl (.remove index))
  | sizing (tcpCount : ℕ) : Corresponds (.sizing tcpCount) (.inl .size)
  | done (a : SetAnswer) : Corresponds (.done a) (.inr a)

theorem linearizes : Linearizes (ι := ι) (object (S := S) (U := U)) Current instant Corresponds where
  start o := .calling o
  result k a r hk hr := by
    cases hk with
    | done a => exact congr_arg Sum.inr (Option.some.inj hr)
    | _ => cases hr
  step c i k a running hk more hcurrent := by
    cases hk with
    | calling o =>
      cases o with
      | remove index => exact .inl ⟨rfl, .removing index _⟩
      | size => exact .inl ⟨rfl, .sizing _⟩
      | _ => exact .inr ⟨_, rfl, rfl, .done _⟩
    | removing index tcpCount =>
      rw [Current, running] at hcurrent
      have hsame : c.shared.removeAt index tcpCount =
          c.shared.removeAt index c.shared.sockets.entries.length := by
        unfold removeAt
        dsimp only at hcurrent
        split at hcurrent
        · rename_i hlt
          rw [if_pos hlt, if_pos hcurrent]
        · rw [hcurrent]
      refine .inr ⟨_, rfl, congr_arg Prod.snd hsame, ?_⟩
      show Corresponds (.done (c.shared.removeAt index tcpCount).1) _
      rw [hsame]
      exact .done _
    | sizing tcpCount =>
      rw [Current, running] at hcurrent
      refine .inr ⟨_, rfl, rfl, ?_⟩
      show Corresponds (.done (.count (tcpCount + c.shared.udpSockets.entries.length)))
        (.inr (.count (c.shared.sockets.entries.length + c.shared.udpSockets.entries.length)))
      rw [show c.shared.sockets.entries.length = tcpCount from hcurrent]
      exact .done _
    | done a => cases more

/-- As long as what was read under the first lock still holds under the second, every
run of any number of threads is a run of calls that are executed at one instant. -/
theorem set_linearizes [DecidableEq ι] {w : SetRegistries S U} {tr : List (Label (SetOp S U) SetAnswer ι)}
    {c : Config (SetRegistries S U) (SetCall S U) ι} (hrun : Run object Current (.start w) tr c) :
    ∃ c' : Config (SetRegistries S U) (SetOp S U ⊕ SetAnswer) ι,
      Run (.atomic instant) (fun _ _ => True) (.start w) tr c' ∧ c'.shared = c.shared := by
  obtain ⟨c', hrun', hshared, -⟩ := hrun.linearizes linearizes
  exact ⟨c', hrun', hshared⟩

section Stale

def total (w : SetRegistries S U) : ℕ := w.sockets.entries.length + w.udpSockets.entries.length

omit [DecidableEq S] [DecidableEq U] in
theorem loses_one {f : SocketRegistry S → Bool × SocketRegistry S}
    (hf : ∀ r, r.entries.length ≤ (f r).2.entries.length + 1) (w : SetRegistries S U) :
    w.total ≤ (w.onSockets f).2.total + 1 := by
  have hr := hf w.sockets
  simp only [total, onSockets]
  omega

omit [DecidableEq S] [DecidableEq U] in
theorem loses_one_udp {f : SocketRegistry U → Bool × SocketRegistry U}
    (hf : ∀ r, r.entries.length ≤ (f r).2.entries.length + 1) (w : SetRegistries S U) :
    w.total ≤ (w.onUdp f).2.total + 1 := by
  have hr := hf w.udpSockets
  simp only [total, onUdp]
  omega

/-- A call takes at most one registration away. -/
theorem instant_total (o : SetOp S U) (w : SetRegistries S U) :
    w.total ≤ (instant o w).2.total + 1 := by
  have hadd {X : Type} [DecidableEq X] (x : Option X) (r : SocketRegistry X) :
      r.entries.length ≤ (r.add x).2.entries.length + 1 := by
    unfold SocketRegistry.add
    split
    · exact Nat.le_succ _
    · split
      · exact Nat.le_succ _
      · simp only [List.length_append, List.length_singleton]
        omega
  have hindex {X : Type} (n : ℕ) (r : SocketRegistry X) :
      r.entries.length ≤ (r.removeIndex n).2.entries.length + 1 := by
    unfold SocketRegistry.removeIndex
    split
    · exact Nat.le_succ _
    · simp only [List.length_eraseIdx]
      split <;> omega
  have hsocket {X : Type} [DecidableEq X] (x : Option X) (r : SocketRegistry X) :
      r.entries.length ≤ (r.removeSocket x).2.entries.length + 1 := by
    unfold SocketRegistry.removeSocket
    split
    · exact Nat.le_succ _
    · simp only [List.length_erase]
      split <;> omega
  cases o with
  | add x => exact loses_one (hadd x) w
  | addUdp x => exact loses_one_udp (hadd x) w
  | removeSocket x => exact loses_one (hsocket x) w
  | removeUdpSocket x => exact loses_one_udp (hsocket x) w
  | size => exact Nat.le_succ _
  | remove index =>
    show w.total ≤ (w.removeAt index w.sockets.entries.length).2.total + 1
    unfold removeAt
    split
    · exact loses_one (hindex _) w
    · exact loses_one_udp (hindex _) w

theorem executes_total {w u : SetRegistries S U} {es : List (ι × SetOp S U × SetAnswer)}
    (h : Executes instant w es u) : w.total ≤ u.total + es.length := by
  induction h with
  | nil => exact Nat.le_refl _
  | snoc i o _ ih =>
    have hone := instant_total o ‹_›
    rw [List.length_append, List.length_singleton]
    omega

/-- A `remove` that fails finds no registration under its index. -/
theorem remove_fails {w : SetRegistries S U} {index : ℕ}
    (h : (instant (.remove index) w).1 = .flag false) : w.total ≤ index := by
  have hfail {X : Type} {n : ℕ} {r : SocketRegistry X} (hr : (r.removeIndex n).1 = false) :
      r.entries.length ≤ n := by
    unfold SocketRegistry.removeIndex at hr
    split at hr
    · exact List.getElem?_eq_none_iff.mp ‹_›
    · cases hr
  have h : (w.removeAt index w.sockets.entries.length).1 = .flag false := h
  unfold removeAt at h
  split at h
  · have hlen := hfail (SetAnswer.flag.inj h)
    omega
  · have hlen := hfail (SetAnswer.flag.inj h)
    rw [total]
    omega

end Stale

end SetRegistries

open SetRegistries

/-- One TCP and one UDP socket. -/
def oneEach : SetRegistries ℕ ℕ := ⟨⟨[⟨7, true⟩], [0]⟩, ⟨[⟨9, true⟩], [0]⟩⟩

/-- One thread removes index 0, and between its two locks another removes the TCP socket. -/
def staleTrace : List (Label (SetOp ℕ ℕ) SetAnswer Bool) :=
  [.call false (.remove 0), .call true (.removeSocket (some 7)), .ret true (.flag true),
    .ret false (.flag false)]

theorem stale_run : ∃ c, Run object (fun _ _ => True) (.start oneEach) staleTrace c := by
  have hstart : Run object (fun _ _ => True) (.start oneEach) [] (.start oneEach (ι := Bool)) := .start
  have hread := (hstart.call false (.remove 0) rfl).step false (.calling (.remove 0)) rfl rfl trivial
  have hremoved := (hread.call true (.removeSocket (some 7)) rfl).step true
    (.calling (.removeSocket (some 7))) rfl rfl trivial
  have hdone := (hremoved.ret true (.done (.flag true)) (.flag true) rfl rfl).step false
    (.removing 0 1) rfl rfl trivial
  have hfailed := hdone.ret false (.done (.flag false)) (.flag false) rfl rfl
  exact ⟨_, hfailed⟩

/-- Between the two locks of `size` another thread removes the UDP socket. -/
theorem set_linearizes_whole : ∃ c, Run (.atomic instant) (fun _ _ => True) (.start oneEach)
    [.call false .size, .call true (.removeUdpSocket (some 9)), .ret true (.flag true),
      .ret false (.count 1)] c := by
  have hstart : Run object Current (.start oneEach) [] (.start oneEach (ι := Bool)) := .start
  have hread := (hstart.call false .size rfl).step false (.calling .size) rfl rfl trivial
  have hremoved := (hread.call true (.removeUdpSocket (some 9)) rfl).step true
    (.calling (.removeUdpSocket (some 9))) rfl rfl trivial
  have hdone := (hremoved.ret true (.done (.flag true)) (.flag true) rfl rfl).step false
    (.sizing 1) rfl rfl rfl
  have hsized := hdone.ret false (.done (.count 1)) (.count 1) rfl rfl
  obtain ⟨c, hrun, -⟩ := set_linearizes hsized
  exact ⟨c, hrun⟩

/-- No order of the two calls explains that `remove(0)` has failed. -/
theorem set_not_linearizable :
    ¬∀ (w : SetRegistries ℕ ℕ) (tr : List (Label (SetOp ℕ ℕ) SetAnswer Bool))
      (c : Config (SetRegistries ℕ ℕ) (SetCall ℕ ℕ) Bool),
      Run object (fun _ _ => True) (.start w) tr c →
      ∃ c' : Config (SetRegistries ℕ ℕ) (SetOp ℕ ℕ ⊕ SetAnswer) Bool,
        Run (.atomic instant) (fun _ _ => True) (.start w) tr c' ∧ c'.shared = c.shared := by
  intro hall
  obtain ⟨c, hrun⟩ := stale_run
  obtain ⟨c', hrun', -⟩ := hall _ _ _ hrun
  obtain ⟨es, hes⟩ := hrun'.ordered
  obtain ⟨o, hmem⟩ := hes.answered false (.flag false) (.inr (by decide))
  have hlength : es.length ≤ 2 := by simpa [called, staleTrace] using hes.subperm.length_le
  have hcalled : (false, o) ∈ called staleTrace :=
    hes.subperm.subset (List.mem_map_of_mem hmem)
  obtain rfl : o = .remove 0 := by simpa [called, staleTrace] using hcalled
  obtain ⟨before, rest, rfl⟩ := List.append_of_mem hmem
  obtain ⟨u, hbefore, hfailed⟩ := hes.executes.before
  have hnone := remove_fails hfailed.symm
  have htotal := executes_total hbefore
  have htwo : oneEach.total = 2 := rfl
  rw [List.length_append, List.length_cons] at hlength
  omega

end Aeon
