import Aeon.Descriptors
import Aeon.Udp

/-!
# Replacing a datagram descriptor

A `udp_connect` or `udp_listen` that fails gives up every descriptor it opened
and changes nothing else.  One that succeeds keeps the descriptor of the object
or swaps in one that is ready, and then closes the old one.
-/

namespace Aeon

open Errno Ledger

namespace UdpSocket

variable {h : UdpHost} {s t : UdpSocket}

/-- Two states that differ in the error fields only, and in their histories. -/
def ErrorsOnly (s t : UdpSocket) : Prop :=
  t = { s with
    errorCode := t.errorCode, errorState := t.errorState, tick := t.tick, log := t.log }

/-- A call that changed nothing and gave up what it opened.  Its history starts
and ends with no descriptor in hand, so it neither uses nor closes another. -/
structure Refused (s t : UdpSocket) : Prop where
  same : ErrorsOnly s t
  gaveUp : ∃ es, t.log = s.log ++ es ∧ Handles 0 es 0

/-- A call that selected a destination or a port on a descriptor of the family.
Whatever it opened before that descriptor has been given up. -/
structure Selected (family : Family) (s t : UdpSocket) : Prop where
  chosen : t.netFamily = family
  mode : t.blocking = s.blocking
  descriptor : ∃ fd es, t.sockfd = some fd ∧
    (s.sockfd = some fd ∧ s.netFamily = family ∧ t.log = s.log ++ es ∧ Handles 0 es 0 ∨
      t.log = s.log ++ es ++ s.sockfd.toList.map .closed ∧ Handles 0 es {fd} ∧
        .configured fd family s.blocking ∈ es)

/-- A call that has selected the destination. -/
structure Connected (target : Sockaddr) (s t : UdpSocket) : Prop where
  supported : target.family ≠ .other
  selected : Selected target.family s t
  remoteAddr : t.remoteAddr = target
  connected : t.connected = true

theorem ErrorsOnly.refl (s : UdpSocket) : ErrorsOnly s s := rfl

theorem ErrorsOnly.trans {u : UdpSocket} (h : ErrorsOnly s t) (h' : ErrorsOnly t u) :
    ErrorsOnly s u := by
  unfold ErrorsOnly at *
  rw [h', h]

theorem ErrorsOnly.fail (h : ErrorsOnly s t) (code : Int) (state : ℕ) :
    ErrorsOnly s (t.fail code state) := by
  unfold ErrorsOnly at *
  rw [h]
  rfl

theorem Refused.trans {u : UdpSocket} (h : Refused s t) (h' : Refused t u) : Refused s u := by
  obtain ⟨es, hlog, hes⟩ := h.gaveUp
  obtain ⟨es', hlog', hes'⟩ := h'.gaveUp
  exact ⟨h.same.trans h'.same, es ++ es', by rw [hlog', hlog, List.append_assoc], hes.append hes'⟩

theorem Refused.fail (h : Refused s t) (code : Int) (state : ℕ) : Refused s (t.fail code state) :=
  ⟨h.same.fail code state, h.gaveUp⟩

theorem Refused.ticked (h : Refused s t) : Refused s t.ticked := by
  refine ⟨?_, h.gaveUp⟩
  have hsame := h.same
  unfold ErrorsOnly at *
  rw [hsame]
  rfl

theorem Refused.refl (s : UdpSocket) : Refused s s := ⟨.refl s, [], by simp, .nil 0⟩

/-- A selection that follows refusals. -/
theorem Selected.after {u : UdpSocket} {family : Family} (h : Refused s t)
    (h' : Selected family t u) : Selected family s u := by
  obtain ⟨es, hlog, hes⟩ := h.gaveUp
  obtain ⟨fd, es', hfd, hcases⟩ := h'.descriptor
  have hsockfd : t.sockfd = s.sockfd := by rw [h.same]
  have hfamily : t.netFamily = s.netFamily := by rw [h.same]
  have hmode : t.blocking = s.blocking := by rw [h.same]
  refine ⟨h'.chosen, h'.mode.trans hmode, fd, es ++ es', hfd, ?_⟩
  rw [hsockfd, hfamily, hmode, hlog] at hcases
  rcases hcases with ⟨hold, hf, hl, hr⟩ | ⟨hl, hr, hm⟩
  · exact .inl ⟨hold, hf, by rw [hl, List.append_assoc], hes.append hr⟩
  · exact .inr ⟨by rw [hl]; simp, hes.append hr, List.mem_append_right _ hm⟩

/-- A selection is refused, or establishes `Q`. -/
structure Decides (s : UdpSocket) (Q : UdpSocket → Prop) (r : Bool × UdpSocket) : Prop where
  refused : r.1 = false → Refused s r.2
  done : r.1 = true → Q r.2

theorem Decides.no {Q : UdpSocket → Prop} (h : Refused s t) : Decides s Q (false, t) :=
  ⟨fun _ => h, fun hr => by cases hr⟩

theorem Decides.yes {Q : UdpSocket → Prop} (h : Q t) : Decides s Q (true, t) :=
  ⟨fun hr => (by cases hr), fun _ => h⟩

theorem closeCandidate_refused {fd : ℕ} {es : List Event} (hsame : ErrorsOnly s t)
    (hlog : t.log = s.log ++ es) (hes : Handles 0 es {fd}) : Refused s (t.closeCandidate fd) := by
  refine ⟨?_, es ++ [.closed fd], ?_, hes.append (.release fd rfl (.nil 0))⟩
  · unfold ErrorsOnly at *
    rw [hsame]
    rfl
  · rw [← List.append_assoc, ← hlog]
    rfl

theorem ErrorsOnly.ticked (h : ErrorsOnly s t) : ErrorsOnly s t.ticked := by
  unfold ErrorsOnly at *
  rw [h]
  rfl

theorem ErrorsOnly.record (h : ErrorsOnly s t) (e : Event) : ErrorsOnly s (t.record e) := by
  unfold ErrorsOnly at *
  rw [h]
  rfl

/-- A new descriptor is ready, or what was opened is closed again. -/
structure Opens (family : Family) (blocking : Bool) (s : UdpSocket) (r : Option ℕ × UdpSocket) :
    Prop where
  refused : r.1 = none → Refused s r.2
  same : ∀ fd, r.1 = some fd → ErrorsOnly s r.2
  log : ∀ fd, r.1 = some fd → r.2.log = s.log ++ [.opened fd, .configured fd family blocking]

theorem Opens.none {family : Family} {blocking : Bool} (h : Refused s t) :
    Opens family blocking s (none, t) :=
  ⟨fun _ => h, fun _ hr => (by cases hr), fun _ hr => by cases hr⟩

theorem selectFamily_spec (family : Family) (blocking : Bool) (s : UdpSocket) :
    Opens family blocking s (s.selectFamily h family blocking) := by
  unfold selectFamily
  split
  · exact .none (.refl s)
  · cases h.socket s.tick with
    | none => exact .none (Refused.refl s).ticked
    | some fd =>
      dsimp only
      have hopen : ErrorsOnly s (s.ticked.record (.opened fd)).ticked :=
        ((ErrorsOnly.refl s).ticked.record _).ticked
      split
      · exact .none (closeCandidate_refused hopen rfl (.acquire fd rfl (.nil _)))
      · refine ⟨fun hr => (by cases hr), fun _ _ => hopen.record _, fun fd' hr => ?_⟩
        obtain rfl : fd = fd' := by simpa using hr
        simp [UdpSocket.record, UdpSocket.ticked, Socket.record, Socket.ticked]

theorem handles_ready {fd : ℕ} {family : Family} {blocking : Bool} {es : List Event}
    {held : Multiset ℕ} (rest : Handles {fd} es held) :
    Handles 0 (.opened fd :: .configured fd family blocking :: es) held :=
  .acquire fd rfl (.use fd rfl (by simp) rest)

theorem closePrior_log (prior : Option ℕ) (s : UdpSocket) :
    (s.closePrior prior).log = s.log ++ prior.toList.map .closed := by
  cases prior with
  | none => simp [closePrior]
  | some fd => rfl

theorem closePrior_eq (prior : Option ℕ) (s : UdpSocket) :
    s.closePrior prior =
      { s with tick := (s.closePrior prior).tick, log := (s.closePrior prior).log } := by
  cases prior <;> rfl

/-- The new descriptor is in place, and the old one is closed after it. -/
theorem selected_new {fd : ℕ} {family : Family} {es : List Event} {u : UdpSocket}
    (hsame : ErrorsOnly s t) (hlog : t.log = s.log ++ es) (hes : Handles 0 es {fd})
    (hready : .configured fd family s.blocking ∈ es) (hfd : u.sockfd = some fd)
    (hfamily : u.netFamily = family) (hmode : u.blocking = t.blocking)
    (hclosed : u.log = t.log ++ t.sockfd.toList.map .closed) : Selected family s u := by
  have hprior : t.sockfd = s.sockfd := by rw [hsame]
  have hblocking : t.blocking = s.blocking := by rw [hsame]
  exact ⟨hfamily, hmode.trans hblocking, fd, es, hfd,
    .inr ⟨by rw [hclosed, hprior, hlog], hes, hready⟩⟩

theorem udpConnectAddress_spec (target : Sockaddr) (s : UdpSocket) :
    Decides s (Connected target s) (s.udpConnectAddress h target) := by
  unfold udpConnectAddress
  dsimp only
  split
  · exact .no ((Refused.refl s).fail _ _)
  · rename_i hf
    split
    · have hmade := s.selectFamily_spec (h := h) target.family s.blocking
      generalize s.selectFamily h target.family s.blocking = made at hmade
      obtain ⟨_ | fd, t⟩ := made
      · exact .no ((hmade.refused rfl).fail _ _)
      · refine .yes ⟨hf, selected_new (hmade.same fd rfl) (hmade.log fd rfl) (handles_ready (.nil _)) (by simp) ?_ ?_ ?_ ?_,
          rfl, rfl⟩
        · rw [closePrior_eq]
          rfl
        · rw [closePrior_eq]
          rfl
        · rw [closePrior_eq]
          rfl
        · exact closePrior_log _ _
    · rename_i hkeep
      simp only [Bool.or_eq_true, not_or, Option.isNone_iff_eq_none, decide_eq_true_eq,
        not_not] at hkeep
      obtain ⟨fd, hfd⟩ := Option.ne_none_iff_exists'.mp hkeep.1
      exact .yes ⟨hf, ⟨hkeep.2.symm, rfl, fd, [], hfd,
        .inl ⟨hfd, hkeep.2.symm, (List.append_nil _).symm, .nil 0⟩⟩, rfl, rfl⟩

theorem Connected.after {target : Sockaddr} {u : UdpSocket} (h : Refused s t)
    (h' : Connected target t u) : Connected target s u :=
  ⟨h'.supported, h'.selected.after h, h'.remoteAddr, h'.connected⟩

theorem Decides.after {Q : UdpSocket → Prop} {r : Bool × UdpSocket} (h : Refused s t)
    (h' : Decides t Q r) : Decides s Q r :=
  ⟨fun hr => h.trans (h'.refused hr), h'.done⟩

theorem Decides.mono {Q Q' : UdpSocket → Prop} {r : Bool × UdpSocket} (h : Decides s Q r)
    (hq : ∀ t, Q t → Q' t) : Decides s Q' r := ⟨h.refused, fun hr => hq _ (h.done hr)⟩

/-- A call that succeeds with one of the destinations. -/
def ConnectedTo (targets : List Sockaddr) (s t : UdpSocket) : Prop :=
  ∃ target ∈ targets, Connected target s t

theorem udpConnectEntries_spec (entries : List Sockaddr) (s : UdpSocket) :
    Decides s (ConnectedTo entries s) (udpConnectEntries h entries s) := by
  induction entries generalizing s with
  | nil => exact .no (.refl s)
  | cons target entries ih =>
    have hrest (t : UdpSocket) (ht : Refused s t) :
        Decides s (ConnectedTo (target :: entries) s) (udpConnectEntries h entries t) :=
      ((ih t).after ht).mono fun u ⟨target', hmem, hu⟩ =>
        ⟨target', List.mem_cons_of_mem _ hmem, hu.after ht⟩
    have htry : Decides s (ConnectedTo (target :: entries) s)
        (if (s.udpConnectAddress h target).1 then s.udpConnectAddress h target
          else udpConnectEntries h entries (s.udpConnectAddress h target).2) := by
      have hone := s.udpConnectAddress_spec (h := h) target
      generalize s.udpConnectAddress h target = r at hone
      obtain ⟨_ | _, t⟩ := r
      · exact hrest t (hone.refused rfl)
      · exact .yes ⟨target, List.mem_cons_self, hone.done rfl⟩
    cases target with
    | other => exact hrest s (.refl s)
    | inet port addr => exact htry
    | inet6 port flowinfo addr scope => exact htry

theorem udpConnectHost_spec (hostname : Option String) (port : Int) (s : UdpSocket) :
    Decides s (fun t => ∃ entries, h.getaddrinfoDgram s.tick = some entries ∧
      ConnectedTo entries s t) (s.udpConnectHost h hostname port) := by
  unfold udpConnectHost
  dsimp only
  split
  · exact .no ((Refused.refl s).fail _ _)
  · cases h.getaddrinfoDgram s.tick with
    | none => exact .no ((Refused.refl s).ticked.fail _ _)
    | some entries =>
      have hticked := (Refused.refl s).ticked
      have hmade := udpConnectEntries_spec (h := h) entries s.ticked
      dsimp only
      generalize udpConnectEntries h entries s.ticked = r at hmade
      obtain ⟨_ | _, t⟩ := r
      · exact .no ((hticked.trans (hmade.refused rfl)).fail _ _)
      · obtain ⟨target, hmem, hdone⟩ := hmade.done rfl
        have hafter := hdone.after hticked
        exact .yes ⟨entries, rfl, target, hmem, hafter.supported,
          ⟨hafter.selected.chosen, hafter.selected.mode, hafter.selected.descriptor⟩,
          hafter.remoteAddr, hafter.connected⟩

/-- A call that has bound the port on a descriptor of one of the families. -/
structure Bound (families : List Family) (port : Int) (s t : UdpSocket) : Prop where
  selected : ∃ family ∈ families, Selected family s t
  port : t.port = port
  remoteAddr : t.remoteAddr = .other
  connected : t.connected = false

/-- One family is bound, or refused with an error. -/
structure Tries (s : UdpSocket) (Q : UdpSocket → Prop) (r : Option Int × UdpSocket) : Prop where
  refused : ∀ error, r.1 = some error → Refused s r.2
  done : r.1 = none → Q r.2

theorem Tries.failed {Q : UdpSocket → Prop} {error : Int} (h : Refused s t) :
    Tries s Q (some error, t) := ⟨fun _ _ => h, fun hr => by cases hr⟩

theorem listenFamily_spec (bind : NativeBindFn) (port : Int) (family : Family) (s : UdpSocket) :
    Tries s (Bound [family] port s) (s.listenFamily h bind port family) := by
  unfold listenFamily
  have hmade := s.selectFamily_spec (h := h) family s.blocking
  dsimp only
  generalize s.selectFamily h family s.blocking = made at hmade
  obtain ⟨_ | candidate, t⟩ := made
  · exact .failed (hmade.refused rfl).ticked
  · have hsame := hmade.same candidate rfl
    have hlog := hmade.log candidate rfl
    dsimp only
    have hdual : ErrorsOnly s (if family = .inet6 then t.ticked else t) ∧
        (if family = .inet6 then t.ticked else t).log = t.log := by
      split
      · exact ⟨hsame.ticked, rfl⟩
      · exact ⟨hsame, rfl⟩
    obtain ⟨hsame', hlog'⟩ := hdual
    rw [hlog] at hlog'
    generalize (if family = .inet6 then t.ticked else t) = u at hsame' hlog'
    generalize (if family = .inet6 then h.setsockopt t.tick else 0) = dual
    split
    · exact .failed (closeCandidate_refused hsame' hlog' (handles_ready (.nil _)))
    · have hbound : (u.ticked.record (.bound candidate)).log =
          s.log ++ [.opened candidate, .configured candidate family s.blocking,
            .bound candidate] := by
        show u.log ++ _ = _
        rw [hlog', List.append_assoc]
        rfl
      have hes : Handles 0 [.opened candidate, .configured candidate family s.blocking,
          .bound candidate] {candidate} :=
        handles_ready (.use candidate rfl (by simp) (.nil _))
      have hsame'' := hsame'.ticked.record (.bound candidate)
      split
      · refine ⟨fun _ hr => (by cases hr), fun _ => ⟨⟨family, List.mem_singleton_self _,
          selected_new hsame'' hbound hes (by simp) ?_ ?_ ?_ ?_⟩, ?_, ?_, ?_⟩⟩
        · rw [closePrior_eq]
          rfl
        · rw [closePrior_eq]
          rfl
        · rw [closePrior_eq]
          rfl
        · exact closePrior_log _ _
        · rw [closePrior_eq]
          rfl
        · rw [closePrior_eq]
          rfl
        · rw [closePrior_eq]
          rfl
      · exact .failed (closeCandidate_refused hsame''.ticked hbound hes)

theorem Bound.after {families families' : List Family} {port : Int} {u : UdpSocket}
    (hsub : families ⊆ families') (h : Refused s t) (h' : Bound families port t u) :
    Bound families' port s u :=
  let ⟨family, hmem, hsel⟩ := h'.selected
  ⟨⟨family, hsub hmem, hsel.after h⟩, h'.port, h'.remoteAddr, h'.connected⟩

theorem listenFamilies_spec (bind : NativeBindFn) (port : Int) (families : List Family)
    (lastError : Int) (s : UdpSocket) :
    Decides s (Bound families port s) (listenFamilies h bind port families lastError s) := by
  induction families generalizing lastError s with
  | nil => exact .no ((Refused.refl s).fail _ _)
  | cons family families ih =>
    have hone := s.listenFamily_spec (h := h) bind port family
    rw [listenFamilies]
    generalize s.listenFamily h bind port family = r at hone
    obtain ⟨_ | error, t⟩ := r
    · exact .yes ((hone.done rfl).after (by simp) (.refl s))
    · have ht := hone.refused error rfl
      exact ((ih error t).after ht).mono fun u hu => hu.after (List.subset_cons_self _ _) ht

theorem udpListenWith_spec (port : Int) (bind : Option NativeBindFn) (s : UdpSocket) :
    Decides s (Bound [.inet6, .inet] port s) (s.udpListenWith h port bind) := by
  unfold udpListenWith
  cases bind with
  | none => exact .no ((Refused.refl s).fail _ _)
  | some bind =>
    dsimp only
    split
    · exact .no ((Refused.refl s).fail _ _)
    · exact listenFamilies_spec bind port _ _ s

/-- Only descriptors that were opened in it can be closed or bound in such a history. -/
theorem handles_own {es : List Event} {held : Multiset ℕ} (hes : Handles 0 es held) {fd : ℕ}
    (hfd : .opened fd ∉ es) : .closed fd ∉ es ∧ .bound fd ∉ es := by
  have hopened {e : Event} (he : e ∈ es)
      (hact : e.descriptor = .use fd ∨ e.descriptor = .release fd) : .opened fd ∈ es := by
    rcases hes.known he hact with hnone | ⟨e', he', hacq⟩
    · simp at hnone
    · cases e' with
      | opened fd' =>
        obtain rfl : fd' = fd := by simpa [Event.descriptor] using hacq
        exact he'
      | _ => cases hacq
  exact ⟨fun he => hfd (hopened he (.inr rfl)), fun he => hfd (hopened he (.inl rfl))⟩

/-- The descriptors of the object before and after a selection. -/
theorem Selected.handles {family : Family} (hsel : Selected family s t) :
    ∃ es, t.log = s.log ++ es ∧ Handles s.held es t.held := by
  obtain ⟨fd, es, hfd, ⟨hold, -, hlog, hes⟩ | ⟨hlog, hes, -⟩⟩ := hsel.descriptor
  · refine ⟨es, hlog, ?_⟩
    have hframe := hes.frame {fd}
    simpa [Socket.held, hold, hfd] using hframe
  · refine ⟨es ++ s.sockfd.toList.map .closed, by rw [hlog, List.append_assoc], ?_⟩
    cases hold : s.sockfd with
    | none =>
      rw [Socket.held, Socket.held, hold, hfd]
      simpa using hes
    | some old =>
      have hframe := hes.frame_left {old}
      have hclosed : Handles ({old} + {fd}) [.closed old] {fd} := by
        rw [Multiset.singleton_add]
        exact .release old rfl (.nil {fd})
      rw [Socket.held, Socket.held, hold, hfd]
      exact hframe.append hclosed

end UdpSocket

/-- The overloads of `udp_connect` and `udp_listen`. -/
inductive UdpCall
  | connectHost (hostname : Option String) (port : Int)
  | connectAddress (target : Sockaddr)
  | connectStored
  | listen (port : Int)
  | listenWith (port : Int) (bind : Option NativeBindFn)

namespace UdpCall

variable (h : UdpHost)

def run : UdpCall → UdpSocket → Bool × UdpSocket
  | connectHost hostname port, s => s.udpConnectHost h hostname port
  | connectAddress target, s => s.udpConnectAddress h target
  | connectStored, s => s.udpConnectStored h
  | listen port, s => s.udpListen h port
  | listenWith port bind, s => s.udpListenWith h port bind

/-- The families that a call may choose from. -/
def families : UdpCall → UdpSocket → List Family
  | connectHost _ _, s => ((h.getaddrinfoDgram s.tick).getD []).map Sockaddr.family
  | connectAddress target, _ => [target.family]
  | connectStored, s => [s.remoteAddr.family]
  | listen _, _ => [.inet6, .inet]
  | listenWith _ _, _ => [.inet6, .inet]

open UdpSocket

theorem run_decides (call : UdpCall) (s : UdpSocket) :
    Decides s (fun t => ∃ family ∈ call.families h s, Selected family s t) (call.run h s) := by
  have hconnect (target : Sockaddr) (t : UdpSocket) (ht : Connected target s t) :
      ∃ family ∈ [target.family], Selected family s t :=
    ⟨target.family, List.mem_singleton_self _, ht.selected⟩
  cases call with
  | connectHost hostname port =>
    refine (s.udpConnectHost_spec hostname port).mono fun t ⟨entries, hentries, target, hmem, ht⟩ =>
      ⟨target.family, ?_, ht.selected⟩
    rw [families, hentries]
    exact List.mem_map_of_mem hmem
  | connectAddress target => exact (s.udpConnectAddress_spec target).mono (hconnect target)
  | connectStored => exact (s.udpConnectAddress_spec s.remoteAddr).mono (hconnect s.remoteAddr)
  | listen port =>
    exact (s.udpListenWith_spec port (some (nativeBind h))).mono fun t ht => ht.selected
  | listenWith port bind => exact (s.udpListenWith_spec port bind).mono fun t ht => ht.selected

/-- A call that fails changes the error fields only, has closed what it opened
and touched no other descriptor.  A call that succeeds leaves one descriptor of
the family it chose: the one it had, or a new one in the current mode, after
which the previous one has been closed. -/
theorem run_atomic (call : UdpCall) (s : UdpSocket) :
    ((call.run h s).1 = false → ErrorsOnly s (call.run h s).2 ∧
      ∃ es, (call.run h s).2.log = s.log ++ es ∧ Handles 0 es 0 ∧
        ∀ fd, .opened fd ∉ es → .closed fd ∉ es ∧ .bound fd ∉ es) ∧
    ((call.run h s).1 = true → ∃ family ∈ call.families h s,
      Selected family s (call.run h s).2 ∧ (call.run h s).2.sockfd.isSome = true ∧
      ∃ es, (call.run h s).2.log = s.log ++ es ∧ Handles s.held es (call.run h s).2.held) := by
  have hrun := call.run_decides h s
  refine ⟨fun hr => ?_, fun hr => ?_⟩
  · obtain ⟨hsame, es, hlog, hes⟩ := hrun.refused hr
    exact ⟨hsame, es, hlog, hes, fun fd => handles_own hes⟩
  · obtain ⟨family, hmem, hsel⟩ := hrun.done hr
    obtain ⟨fd, -, hfd, -⟩ := hsel.descriptor
    exact ⟨family, hmem, hsel, by rw [hfd]; rfl, hsel.handles⟩

end UdpCall

end Aeon
