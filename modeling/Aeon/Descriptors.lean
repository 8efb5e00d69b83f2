import Aeon.Library.Ledger
import Aeon.Tcp

/-!
# Accounts of descriptors

The history of an object says which descriptors it obtained and closed.  The
functions of the base class keep the account: what was obtained has been closed,
or the object holds it, or a handler had opened it while `close` was making room
for a new one.
-/

namespace Aeon

open Program Ledger

/-- What an event does to the descriptor it names. -/
def Event.descriptor : Event → Act ℕ
  | .opened fd => .acquire fd
  | .closed fd => .release fd
  | .recv fd | .send fd | .configured fd .. | .bound fd | .received fd _ => .use fd
  | _ => .idle

/-- A history by the descriptors that are open before and after it. -/
abbrev Handles : Multiset ℕ → List Event → Multiset ℕ → Prop := Settles Event.descriptor

/-- The descriptors that were open when a new one took their place. -/
def lost (log : List Event) : List ℕ :=
  log.filterMap fun
    | .reopened fd => some fd
    | _ => none

@[simp] theorem lost_append (log es : List Event) : lost (log ++ es) = lost log ++ lost es :=
  List.filterMap_append

namespace Socket

variable {α : Type}

/-- The descriptor that an object owns. -/
def held (s : Socket) : Multiset ℕ := s.sockfd.elim 0 ({·})

theorem held_eq (s : Socket) : s.held = s.sockfd.toList := by
  rw [held]
  cases s.sockfd <;> rfl

/-- From `s` to `t` every descriptor is accounted for. -/
def Balances (s t : Socket) : Prop :=
  ∃ es, t.log = s.log ++ es ∧ Handles s.held es (t.held + lost es)

/-- A function that neither opens nor closes a descriptor. -/
def Unopened (f : Socket → α × Socket) : Prop :=
  ∀ s, (f s).2.log = s.log ∧ (f s).2.sockfd = s.sockfd

variable {h : Host} {s t u : Socket}

theorem Balances.same (hlog : t.log = s.log) (hfd : t.sockfd = s.sockfd) : Balances s t := by
  have hheld : t.held + lost [] = s.held := by
    rw [held, hfd]
    exact Multiset.add_zero _
  exact ⟨[], by rw [hlog, List.append_nil], by rw [hheld]; exact .nil _⟩

theorem close_balances (h : Host) (s : Socket) : Balances s (s.close h).2 := by
  cases hfd : s.sockfd with
  | none =>
    rw [close_none hfd]
    exact .same rfl rfl
  | some fd =>
    refine ⟨[.closed fd], close_log hfd, ?_⟩
    rw [held_eq, held_eq, close_sockfd, hfd]
    show Handles (fd ::ₘ 0) [.closed fd] 0
    exact .release fd rfl (.nil 0)

theorem create_log (h : Host) (family : Family) (s : Socket) :
    (s.create h family).2.sockfd = h.socket s.tick ∧ (s.create h family).2.log =
      s.log ++ (s.sockfd.toList.map .reopened ++ (h.socket s.tick).toList.map .opened) := by
  have htick : s.noteReopened.tick = s.tick := by
    unfold noteReopened
    cases s.sockfd <;> rfl
  have hlog : s.noteReopened.log = s.log ++ s.sockfd.toList.map .reopened := by
    unfold noteReopened
    cases s.sockfd with
    | none => exact (List.append_nil _).symm
    | some fd => rfl
  unfold create
  dsimp only [ticked]
  rw [htick]
  cases h.socket s.tick with
  | none => exact ⟨rfl, hlog.trans (by rw [Option.toList_none, List.map_nil, List.append_nil])⟩
  | some fd =>
    refine ⟨rfl, ?_⟩
    show s.noteReopened.log ++ [.opened fd] = _
    rw [hlog, List.append_assoc]
    rfl

/-- A new descriptor takes the place of one that is then lost. -/
theorem create_balances (h : Host) (family : Family) (s : Socket) :
    Balances s (s.create h family).2 := by
  obtain ⟨hfd, hlog⟩ := create_log h family s
  refine ⟨_, hlog, ?_⟩
  rw [held_eq, held_eq, hfd]
  cases s.sockfd with
  | none =>
    cases h.socket s.tick with
    | none => exact .nil 0
    | some fd => exact .acquire fd rfl (.nil _)
  | some old =>
    cases h.socket s.tick with
    | none => exact .idle rfl (.nil _)
    | some fd => exact .idle rfl (.acquire fd rfl (.nil _))

section Unopened

variable (h : Host)

theorem unopened_setBlocking (flag : Bool) : Unopened (setBlocking h flag) := by
  intro s
  unfold setBlocking
  split
  · exact ⟨rfl, rfl⟩
  · dsimp only
    split <;> exact ⟨rfl, rfl⟩

omit h in
theorem unopened_setReadTimeout (timeoutMs : Int) : Unopened (setReadTimeout timeoutMs) := by
  intro s
  unfold setReadTimeout
  split <;> exact ⟨rfl, rfl⟩

omit h in
theorem unopened_setWriteTimeout (timeoutMs : Int) : Unopened (setWriteTimeout timeoutMs) := by
  intro s
  unfold setWriteTimeout
  split <;> exact ⟨rfl, rfl⟩

omit h in
theorem unopened_setConnectTimeout (timeoutMs : Int) :
    Unopened (setConnectTimeout timeoutMs) := by
  intro s
  unfold setConnectTimeout
  split <;> exact ⟨rfl, rfl⟩

theorem unopened_setOption : Unopened (setOption h) := by
  intro s
  unfold setOption
  split
  · exact ⟨rfl, rfl⟩
  · dsimp only
    split <;> exact ⟨rfl, rfl⟩

theorem unopened_run (setter : PlainSetter) : Unopened (setter.run h) := by
  cases setter with
  | blocking flag => exact unopened_setBlocking h flag
  | readTimeout timeoutMs => exact unopened_setReadTimeout timeoutMs
  | writeTimeout timeoutMs => exact unopened_setWriteTimeout timeoutMs
  | connectTimeout timeoutMs => exact unopened_setConnectTimeout timeoutMs
  | option => exact unopened_setOption h

theorem unopened_pendingConnect : Unopened (pendingConnect h) := by
  intro s
  unfold pendingConnect
  dsimp only
  split
  · exact ⟨rfl, rfl⟩
  · split
    · split
      · split <;> exact ⟨rfl, rfl⟩
      · split <;> exact ⟨rfl, rfl⟩
    · exact ⟨rfl, rfl⟩

theorem unopened_nativeConnect : Unopened (nativeConnect h) := by
  intro s
  unfold nativeConnect
  split
  · unfold guardedConnect
    dsimp only
    split
    · exact unopened_setBlocking h false s
    · have hmode := unopened_setBlocking h false s
      have hpending := unopened_pendingConnect h (s.setBlocking h false).2
      have hback := unopened_setBlocking h s.blocking ((s.setBlocking h false).2.pendingConnect h).2
      split <;> exact ⟨hback.1.trans (hpending.1.trans hmode.1),
        hback.2.trans (hpending.2.trans hmode.2)⟩
  · unfold plainConnect
    dsimp only
    split <;> exact ⟨rfl, rfl⟩

theorem unopened_prepareListen (family : Family) (port : Int) :
    Unopened fun s => ((), s.prepareListen h family port) := by
  intro s
  have hfirst := unopened_setOption h { s with port := port }
  have hsecond := unopened_setOption h ({ s with port := port }.setOption h).2
  unfold prepareListen
  dsimp only
  split
  · exact ⟨hsecond.1.trans hfirst.1, hsecond.2.trans hfirst.2⟩
  · exact hfirst

theorem unopened_tcpBind : Unopened (tcpBind h) := by
  intro s
  unfold tcpBind
  split
  · exact ⟨rfl, rfl⟩
  · dsimp only
    split <;> exact ⟨rfl, rfl⟩

theorem unopened_nativeListen : Unopened (nativeListen h) := by
  intro s
  unfold nativeListen
  dsimp only
  split <;> exact ⟨rfl, rfl⟩

end Unopened

/-- A function that makes a descriptor and changes nothing else of the account. -/
def Creates (h : Host) (family : Family) (f : Socket → Bool × Socket) : Prop :=
  ∀ s, (f s).2.log = (s.create h family).2.log ∧ (f s).2.sockfd = (s.create h family).2.sockfd

end Socket

open Socket

/-- The functions of the base class keep `I` on an object whose virtual `close`
leaves it in `J`, from which a new descriptor may be made. -/
structure This.Preserves {σ : Type} (h : Host) (this : This σ) (I J : σ → Prop) : Prop where
  weaken : ∀ s, J s → I s
  run : ∀ {α : Type} (f : Socket → α × Socket), Unopened f → Keeps I (this.run f)
  create : ∀ {f : Socket → Bool × Socket} (family : Family), Creates h family f →
    Triple J (this.run f) (fun _ => I) fun _ => I
  close : Triple I this.close (fun _ => J) fun _ => I

namespace This.Preserves

variable {σ : Type} {h : Host} {this : This σ} {I J : σ → Prop} (hp : this.Preserves h I J)

include hp

theorem keepsClose : Keeps I this.close := keeps_iff.mpr (hp.close.post fun _ => hp.weaken)

theorem tcpConnectAddress (family : Family) : Keeps I (tcpConnectAddress h this family) := by
  unfold Aeon.tcpConnectAddress
  refine .ite (fun _ => ?_) fun _ => keeps_iff.mpr (hp.close.bind fun _ => ?_)
  · exact (hp.run _ fun _ => ⟨rfl, rfl⟩).bind fun _ => .pure _
  · have hmade : Creates h family fun s =>
        ((s.create h family).1, { (s.create h family).2 with connected := false }) :=
      fun _ => ⟨rfl, rfl⟩
    refine (hp.create family hmade).bind fun made => keeps_iff.mp ?_
    refine .ite (fun _ => .pure _) fun _ => ?_
    refine (hp.run _ (unopened_nativeConnect h)).bind fun succeeded => ?_
    refine .ite (fun _ => hp.keepsClose.bind fun _ => .pure _) fun _ => ?_
    exact (hp.run _ fun _ => ⟨rfl, rfl⟩).bind fun _ => .pure _

theorem tcpConnectEntries (entries : List Family) : Keeps I (tcpConnectEntries h this entries) := by
  induction entries with
  | nil => exact .pure _
  | cons family entries ih =>
    have hfirst : Keeps I (do
        let success ← Aeon.tcpConnectAddress h this family
        if success then return true else Aeon.tcpConnectEntries h this entries) :=
      (hp.tcpConnectAddress family).bind fun _ => .ite (fun _ => .pure _) fun _ => ih
    cases family with
    | inet => exact hfirst
    | inet6 => exact hfirst
    | other => exact ih

theorem tcpConnectStored : Keeps I (tcpConnectStored h this) := by
  unfold Aeon.tcpConnectStored
  refine .bind (hp.run _ fun s => ?_) fun entries => ?_
  · split
    · exact ⟨rfl, rfl⟩
    · cases h.getaddrinfo s.tick <;> exact ⟨rfl, rfl⟩
  · cases entries with
    | none => exact .pure _
    | some entries =>
      refine (hp.tcpConnectEntries entries).bind fun success => ?_
      exact (hp.run _ fun _ => ⟨rfl, rfl⟩).bind fun _ => .pure _

theorem tcpConnectHost (hostname : Option String) (port : Int) :
    Keeps I (tcpConnectHost h this hostname port) := by
  unfold Aeon.tcpConnectHost
  refine .ite (fun _ => ?_) fun _ => ?_
  · exact (hp.run _ fun _ => ⟨rfl, rfl⟩).bind fun _ => .pure _
  · exact (hp.run _ fun _ => ⟨rfl, rfl⟩).bind fun _ => hp.tcpConnectStored

theorem tcpListen (ip : Option String) (port : Int) : Keeps I (tcpListen h this ip port) := by
  unfold Aeon.tcpListen
  cases listenTarget h ip port with
  | none => exact (hp.run _ fun _ => ⟨rfl, rfl⟩).bind fun _ => .pure _
  | some family =>
    refine keeps_iff.mpr (hp.close.bind fun _ => ?_)
    refine (hp.create family fun _ => ⟨rfl, rfl⟩).bind fun made => keeps_iff.mp ?_
    refine .ite (fun _ => .pure _) fun _ => ?_
    refine .bind (hp.run _ (unopened_prepareListen h family port)) fun _ => ?_
    refine .bind (hp.run _ (unopened_tcpBind h)) fun bound => .ite (fun _ => ?_) fun _ => ?_
    · exact hp.keepsClose.bind fun _ => .pure _
    · refine .bind (hp.run _ (unopened_nativeListen h)) fun listening => ?_
      exact .ite (fun _ => hp.keepsClose.bind fun _ => .pure _) fun _ => .pure _

end This.Preserves

end Aeon
