import Aeon.Library.History
import Aeon.PollEffects
import Aeon.PolledClient
import Mathlib.Data.List.Induction

/-!
# Close notifications and the descriptors they are about

`on_close` says that a descriptor of the object has been closed, connected or not.  A
connect closes the one that the object holds, and that of an attempt that fails, so
its notifications are matched by descriptors rather than by connections.
-/

namespace Aeon

open Program Reentrant History Ledger

/-- The notification `on_close` of a plain client. -/
abbrev Event.closing : Event := .notify none .close

def Event.closes : Event → Bool
  | .closed _ => true
  | _ => false

/-- A close is notified right after the descriptor has been closed. -/
def Announced (pre : List Event) (e : Event) : Prop :=
  e = Event.closing → ∃ fd, pre.getLast? = some (.closed fd)

theorem Announced.of_ne {e : Event} (he : e ≠ Event.closing) (pre : List Event) :
    Announced pre e := fun h => absurd h he

/-- Every notification uses up a close of its own, and the last one may still be unused. -/
theorem closing_count {log : List Event} (h : Always Announced log) :
    log.count Event.closing + (if (log.getLast?.any Event.closes) then 1 else 0) ≤
      log.countP Event.closes := by
  induction log using List.reverseRecOn with
  | nil => exact le_rfl
  | append_singleton log e ih =>
    obtain ⟨hlog, he⟩ := Always.snoc_iff.mp h
    have hcount := ih hlog
    rw [List.count_append, List.countP_append, List.getLast?_append]
    by_cases hclosing : e = Event.closing
    · obtain ⟨fd, hlast⟩ := he hclosing
      subst hclosing
      rw [hlast] at hcount
      simpa [Event.closes] using hcount
    · have hzero : List.count Event.closing [e] = 0 := by simp [hclosing]
      have hrest : List.count Event.closing log ≤ List.countP Event.closes log := by omega
      rw [hzero, List.getLast?_singleton, Option.some_or, Option.any_some, List.countP_singleton]
      cases e.closes with
      | true => exact Nat.add_le_add_right hrest 1
      | false => exact hrest

/-- A history with no more notifications than descriptors, at any point of it. -/
theorem closing_le_opens {log pre post : List Event} {held : Multiset ℕ}
    (hlog : log = pre ++ post) (h : Always Announced log) (hs : Handles 0 log held) :
    pre.count Event.closing ≤ pre.countP Event.opens := by
  subst hlog
  obtain ⟨b, hpre, -⟩ := hs.split
  have hcard := hpre.card_eq
  have hcount := closing_count h.of_append
  have hacquires : pre.countP (Settles.acquires Event.descriptor) = pre.countP Event.opens :=
    List.countP_congr fun e _ => by cases e <;> rfl
  have hreleases : pre.countP (Settles.releases Event.descriptor) = pre.countP Event.closes :=
    List.countP_congr fun e _ => by cases e <;> rfl
  rw [hacquires, hreleases, Multiset.card_zero] at hcard
  omega

/-- What the history of a client says about its descriptors and its notifications. -/
structure Socket.Noticed (s : Socket) : Prop where
  accounts : s.Accounts
  announced : Always Announced s.log

namespace Socket.Noticed

variable {h : Host} {s t : Socket}

theorem handles_nil (held : Multiset ℕ) : Handles held [] (held + lost []) := by
  have hheld : held + (lost [] : Multiset ℕ) = held := Multiset.add_zero held
  rw [hheld]
  exact .nil held

/-- A step that settles what it does and notifies no close. -/
theorem grow {es : List Event} (hs : s.Noticed) (hlog : t.log = s.log ++ es)
    (hes : Handles s.held es (t.held + lost es)) (hne : ∀ e ∈ es, e ≠ Event.closing) :
    t.Noticed where
  accounts := hs.accounts.balances ⟨es, hlog, hes⟩
  announced := hlog ▸ hs.announced.append fun e he => .of_ne (hne e he)

theorem same (hs : s.Noticed) (hlog : t.log = s.log) (hfd : t.sockfd = s.sockfd) : t.Noticed := by
  refine hs.grow (hlog.trans (List.append_nil _).symm) ?_ nofun
  have hheld : t.held = s.held := by rw [held, hfd, held]
  rw [hheld]
  exact handles_nil s.held

theorem close (hs : s.Noticed) (h : Host) : (s.close h).2.Noticed := by
  cases hfd : s.sockfd with
  | none =>
    rw [close_none hfd]
    exact hs
  | some fd =>
    refine ⟨hs.accounts.balances (close_balances h s), ?_⟩
    have hne : Event.closed fd ≠ Event.closing := nofun
    rw [close_log hfd]
    exact hs.announced.snoc (.of_ne hne s.log)

theorem create (hs : s.Noticed) (h : Host) (family : Family) : (s.create h family).2.Noticed := by
  refine ⟨hs.accounts.balances (create_balances h family s), ?_⟩
  rw [(create_log h family s).2]
  refine hs.announced.append fun e he => .of_ne ?_
  rintro rfl
  simp at he

/-- A call on the descriptor that the object holds. -/
theorem use {e : Event} {fd : ℕ} (hs : s.Noticed) (he : e.descriptor = .use fd)
    (hfd : s.sockfd = some fd) : (s.record e).Noticed := by
  have hlog : (s.record e).log = s.log ++ [e] := rfl
  refine hs.grow hlog ?_ fun e' he' => ?_
  · have hlost : lost [e] = [] := by cases e <;> first | rfl | cases he
    rw [hlost]
    refine .use fd he ?_ (handles_nil s.held)
    rw [held, hfd]
    exact Multiset.mem_singleton_self fd
  · obtain rfl := List.mem_singleton.mp he'
    rintro rfl
    cases he

/-- A handler call, which for a close comes right after it. -/
theorem notify (hs : s.Noticed) (n : Notice)
    (hn : n = .close → ∃ fd, s.log.getLast? = some (.closed fd)) :
    (s.record (.notify none n)).Noticed where
  accounts := hs.accounts.balances ⟨[_], rfl, .idle rfl (handles_nil s.held)⟩
  announced := hs.announced.snoc fun hclosing => hn (by cases hclosing; rfl)

theorem nativeRecv (hs : s.Noticed) (room : ℕ) : (s.nativeRecv h room).2.Noticed := by
  unfold Socket.nativeRecv
  cases hfd : s.sockfd with
  | none => exact hs
  | some fd => exact use (hs.same (t := s.ticked) rfl rfl) rfl hfd

theorem nativeSend (hs : s.Noticed) : (s.nativeSend h).2.Noticed := by
  unfold Socket.nativeSend
  cases hfd : s.sockfd with
  | none => exact hs
  | some fd => exact use (hs.same (t := s.ticked) rfl rfl) rfl hfd

theorem construct (h : Host) (tick : ℕ) :
    (EventSocket.construct h (.construct h tick)).toSocket.Noticed := by
  have hbase : (Socket.construct h tick).Noticed := by
    unfold Socket.construct
    cases h.socket tick with
    | none => exact ⟨.nil 0, .nil⟩
    | some fd =>
      have hne : Event.opened fd ≠ Event.closing := nofun
      have hmade : Always Announced [.opened fd] := Always.nil.snoc (.of_ne hne [])
      dsimp only
      split <;> exact ⟨.acquire fd rfl (.nil _), hmade⟩
  have hmode := hbase.same (unopened_setBlocking h false _).1 (unopened_setBlocking h false _).2
  unfold EventSocket.construct
  split
  · exact hbase
  · dsimp only
    split
    · exact hmode
    · exact hmode.close h

end Socket.Noticed

namespace PolledClient

variable {h : Host} {s : PolledClient}

def Noticed (s : PolledClient) : Prop := s.toSocket.Noticed

theorem flushQueued_keeps : Keeps Noticed (eventPart.run (flushQueued h)) := fun _ hs =>
  Aeon.flushQueued_keeps (I := Socket.Noticed) (fun _ _ ht => ht.nativeSend) _ _ _ hs

section Handlers

variable {cb : ClientNote → Code PolledClient Unit} (hcb : ∀ n, Keeps Noticed (cb n))
include hcb

theorem fire_keeps (n : Notice) (hn : n ≠ .close) : Keeps Noticed (fire cb n) :=
  .bind (.modify fun _ hs => hs.notify n fun h => absurd h hn) fun _ => hcb _

theorem setFire_keeps (token : ℕ) (n : Notice) : Keeps Noticed (setFire cb token n) :=
  .bind (.read _) fun _ => .whenever (hcb _)

/-- The close of the class, which notifies only what it has closed itself. -/
theorem close_keeps : Keeps Noticed (close h cb) := by
  refine keeps_iff.mpr (Triple.bind (Q := fun closed s => Noticed s ∧
    (closed = true → ∃ fd, s.log.getLast? = some (.closed fd))) (fun s hs => ?_) fun closed => ?_)
  · refine ⟨hs.close h, fun hclosed => ?_⟩
    change (s.toSocket.close h).1 = true at hclosed
    cases hfd : s.sockfd with
    | none =>
      rw [Socket.close_none hfd] at hclosed
      cases hclosed
    | some fd =>
      refine ⟨fd, ?_⟩
      show (s.toSocket.close h).2.log.getLast? = _
      rw [Socket.close_log hfd, List.getLast?_concat]
  · refine Triple.bind (Q := fun _ => Noticed) (.whenever (fun hclosed => ?_) fun _ s hs => hs.1)
      fun _ => .ret fun _ hs => hs
    refine Triple.bind (Q := fun _ => Noticed) (fun s hs => ?_) fun _ => keeps_iff.mp (hcb _)
    exact hs.1.notify .close fun _ => hs.2 hclosed

theorem this_preserves : (this h cb).Preserves h Noticed Noticed where
  weaken _ hs := hs
  run _ hf := fun _ hs => hs.same (hf _).1 (hf _).2
  create family hf := fun _ hs => (hs.create h family).same (hf _).1 (hf _).2
  close := keeps_iff.mp (close_keeps hcb)

theorem finishConnect_keeps : Keeps Noticed (finishConnect h cb) := by
  have hset := Socket.unopened_setBlocking h false
  refine .bind (fun _ hs => hs.same (hset _).1 (hset _).2) fun set => .ite (fun _ => ?_) fun _ => ?_
  · exact .bind (fun _ hs => hs.close h) fun _ => .pure false
  · exact .bind (fire_keeps hcb .connect nofun) fun _ => .pure true

theorem reportError_keeps (token : ℕ) (code : Int) : Keeps Noticed (reportError cb token code) := by
  refine .bind (.modify fun _ hs => hs.same rfl rfl) fun _ => ?_
  exact .bind (fire_keeps hcb _ nofun) fun _ => setFire_keeps hcb token _

theorem dispatchRead_keeps (token : ℕ) (flags : Flags) :
    Keeps Noticed (dispatchRead h cb token flags) := by
  have hreport := reportError_keeps hcb token
  refine .ite (fun _ => ?_) fun _ => .ite (fun _ => ?_) fun _ => .pure ()
  · refine .bind (fun _ hs => hs.nativeRecv _) fun received => .ite (fun _ => ?_) fun _ =>
      .ite (fun _ => ?_) fun _ => .ite (fun _ => hreport _) fun _ => .pure ()
    · refine .bind (.modify fun _ hs => hs.same rfl rfl) fun _ => ?_
      exact .bind (fire_keeps hcb _ nofun) fun _ => setFire_keeps hcb token _
    · exact .bind (close_keeps hcb) fun _ => setFire_keeps hcb token _
  · refine .bind (.ite (fun _ => .pure _) fun _ => ?_) fun code => hreport code
    exact fun _ hs => hs.same rfl rfl

theorem dispatchQueue_keeps (token fd : ℕ) (flags : Flags) :
    Keeps Noticed (dispatchQueue h cb token fd flags) := by
  refine .bind (.read _) fun here => .ite (fun _ => ?_) fun _ => .pure ()
  refine .bind flushQueued_keeps fun flushed => ?_
  refine .ite (fun _ => reportError_keeps hcb token _) fun _ => .ite (fun _ => ?_) fun _ => .pure ()
  exact .bind (fire_keeps hcb _ nofun) fun _ => setFire_keeps hcb token _

theorem exec_keeps (o : ClientOp) : Keeps Noticed ((system h).exec cb o) := by
  have hthis := this_preserves (h := h) hcb
  have hfinish := finishConnect_keeps (h := h) hcb
  have hconnect {connect : Code PolledClient Bool} (hc : Keeps Noticed connect) : Keeps Noticed (do
      let _ ← connect >>= fun ok => if !ok then return false else finishConnect h cb
      return ()) :=
    .bind (.bind hc fun _ => .ite (fun _ => .pure false) fun _ => hfinish) fun _ => .pure ()
  cases o with
  | connectStored => exact hconnect hthis.tcpConnectStored
  | connectHost hostname port => exact hconnect (hthis.tcpConnectHost hostname port)
  | connectAddress family => exact hconnect (hthis.tcpConnectAddress family)
  | close => exact .bind (close_keeps hcb) fun _ => .pure ()
  | set f =>
    have hf := Socket.unopened_run h f
    exact .bind (fun _ hs => hs.same (hf _).1 (hf _).2) fun _ => .pure ()
  | queueWrite data =>
    refine .bind (fun s hs => ?_) fun _ => .pure ()
    have hqueue := EventSocket.queueWrite_toSocket true data s.toEventSocket
    exact hs.same (congrArg Socket.log hqueue) (congrArg Socket.sockfd hqueue)
  | add => exact .modify fun _ hs => hs.same rfl rfl
  | remove token => exact .modify fun _ hs => hs.same rfl rfl
  | dispatch token fd flags =>
    refine .bind (.read _) fun here => .ite (fun _ => ?_) fun _ => .pure ()
    exact .bind (dispatchRead_keeps hcb token flags) fun _ => dispatchQueue_keeps hcb token fd flags

end Handlers

theorem Reaches.noticed {ok : ClientOp → Prop} (hs : Reaches h ok s) : Noticed s := by
  obtain ⟨tick, hrun⟩ := hs
  refine hrun.keeps (fun o cb real t _ => ?_) (Socket.Noticed.construct h tick)
  have hcb := real.keeps (I := Noticed) fun o cb _ hcb t _ => exec_keeps hcb o t
  exact exec_keeps hcb o t

/-- The handler calls of a history. -/
def notices (log : List Event) : List Notice :=
  log.filterMap fun
    | .notify _ n => some n
    | _ => none

/-- The notification due for a descriptor that is closed, if there is one. -/
def closing (fd : Option ℕ) : List Notice := fd.toList.map fun _ => .close

/-- The client has notified `ns` and holds `fd`. -/
def Told (ns : List Notice) (fd : Option ℕ) (s : PolledClient) : Prop :=
  notices s.log = ns ∧ s.sockfd = fd

section Idle

variable {ns : List Notice} {fd : Option ℕ}

theorem fire_tells (n : Notice) : Triple (Told ns fd) (fire (fun _ => pure ()) n)
    (fun _ => Told (ns ++ [n]) fd) fun _ _ => False := by
  rintro s ⟨rfl, rfl⟩
  exact ⟨List.filterMap_append, rfl⟩

theorem close_tells (hclose : ∀ tick, h.close tick = 0) :
    Triple (Told ns fd) (close h fun _ => pure ()) (fun _ => Told (ns ++ closing fd) none)
      fun _ _ => False := by
  have hnative : Triple (Told ns fd) (eventPart.run (EventSocket.close h))
      (fun closed s => closed = fd.isSome ∧ Told ns none s) fun _ _ => False := by
    rintro s ⟨rfl, hfd⟩
    change ((s.toSocket.close h).1 = fd.isSome) ∧
      notices (s.toSocket.close h).2.log = notices s.log ∧ (s.toSocket.close h).2.sockfd = none
    cases fd with
    | none =>
      rw [Socket.close_none hfd]
      exact ⟨rfl, rfl, hfd⟩
    | some fd =>
      rw [Socket.close_log hfd, Socket.close_sockfd]
      refine ⟨?_, (List.filterMap_append).trans (List.append_nil _), rfl⟩
      unfold Socket.close
      simp only [hfd, hclose, ne_eq, not_true_eq_false, if_false, Option.isSome_some]
  refine hnative.bind_value ?_
  refine Triple.bind (Q := fun _ => Told (ns ++ closing fd) none) ?_ fun _ => .ret fun _ hs => hs
  cases fd with
  | none => exact fun s hs => ⟨hs.1.trans (List.append_nil ns).symm, hs.2⟩
  | some fd => exact fire_tells .close

/-- A function of the base object that opens and closes nothing. -/
theorem run_tells {α : Type} {f : Socket → α × Socket} (hf : Socket.Unopened f) :
    Triple (Told ns fd) (socketPart.run f) (fun _ => Told ns fd) fun _ _ => False :=
  fun s hs => ⟨(congrArg notices (hf s.toSocket).1).trans hs.1, (hf s.toSocket).2.trans hs.2⟩

theorem create_tells (family : Family) :
    Triple (Told ns none) (socketPart.run fun s =>
        ((s.create h family).1, { (s.create h family).2 with connected := false }))
      (fun made s => ∃ fd, Told ns fd s ∧ (made = false → fd = none)) fun _ _ => False := by
  rintro s ⟨rfl, hfd⟩
  obtain ⟨hmade, hlog⟩ := Socket.create_log h family s.toSocket
  refine ⟨h.socket s.tick, ⟨?_, hmade⟩, fun hfailed => ?_⟩
  · show notices (s.toSocket.create h family).2.log = _
    rw [hlog, hfd, notices, List.filterMap_append]
    cases h.socket s.tick <;> exact List.append_nil _
  · change (s.toSocket.create h family).1 = false at hfailed
    cases hsocket : h.socket s.tick with
    | none => rfl
    | some fd =>
      simp [Socket.create, Socket.noteReopened, hfd, Socket.ticked, hsocket] at hfailed

/-- An attempt closes what the object holds, and itself if it fails. -/
theorem tcpConnectAddress_tells (hclose : ∀ tick, h.close tick = 0) {family : Family}
    (hf : family ≠ .other) :
    Triple (Told ns fd) (tcpConnectAddress h (this h fun _ => pure ()) family)
      (fun ok s => ∃ fd', if ok then Told (ns ++ closing fd) fd' s
        else Told (ns ++ closing fd ++ closing fd') none s) fun _ _ => False := by
  unfold tcpConnectAddress
  rw [if_neg hf]
  refine (close_tells hclose).bind fun _ => (create_tells family).bind fun made => ?_
  cases made with
  | false =>
    rintro s ⟨fd', hs, hnone⟩
    obtain rfl := hnone rfl
    exact ⟨none, (List.append_nil _).symm ▸ hs⟩
  | true =>
    refine .assume fun s ⟨fd', hs, _⟩ => ?_
    refine Triple.bind (Q := fun _ => Told (ns ++ closing fd) fd')
      ((run_tells (Socket.unopened_nativeConnect h)).pre fun _ ht => ht ▸ hs) fun succeeded => ?_
    cases succeeded with
    | false => exact (close_tells hclose).bind fun _ => .ret fun _ ht => ⟨fd', ht⟩
    | true =>
      have hdone : Socket.Unopened fun s => ((), s.connectDone) := fun _ => ⟨rfl, rfl⟩
      exact (run_tells hdone).bind fun _ => .ret fun _ ht => ⟨fd', ht⟩

theorem finishConnect_tells :
    Triple (Told ns fd) (finishConnect h fun _ => pure ())
      (fun ok s => notices s.log = if ok then ns ++ [.connect] else ns) fun _ _ => False := by
  have hset : Triple (Told ns fd) (socketPart.run (Socket.setBlocking h false))
      (fun _ => Told ns fd) fun _ _ => False := run_tells (Socket.unopened_setBlocking h false)
  refine hset.bind fun set => .ite (fun _ => ?_) fun _ => ?_
  · refine Triple.bind (Q := fun _ s => notices s.log = ns) (fun s hs => ?_)
      fun _ => .ret fun _ ht => ht
    change notices (s.toSocket.close h).2.log = ns
    cases hfd : s.sockfd with
    | none =>
      rw [Socket.close_none hfd]
      exact hs.1
    | some fd =>
      exact (congrArg notices (Socket.close_log hfd)).trans
        ((List.filterMap_append.trans (List.append_nil _)).trans hs.1)
  · exact (fire_tells .connect).bind fun _ => .ret fun _ ht => ht.1

/-- What a connect to an address notifies if no handler acts on the client. -/
theorem connectAddress_tells (hclose : ∀ tick, h.close tick = 0) {family : Family}
    (hf : family ≠ .other) :
    Triple (Told ns fd) (connectAddress h (fun _ => pure ()) family)
      (fun ok s => ∃ own, notices s.log =
        ns ++ closing fd ++ if ok then [.connect] else closing own) fun _ _ => False := by
  refine (tcpConnectAddress_tells hclose hf).bind fun ok => ?_
  cases ok with
  | false => exact .ret fun s ⟨own, hs⟩ => ⟨own, hs.1⟩
  | true =>
    refine .assume fun s ⟨fd', hs⟩ => ?_
    refine (finishConnect_tells.pre fun _ ht => ht ▸ hs).post fun ok t ht => ⟨none, ht.trans ?_⟩
    cases ok with
    | false => exact (List.append_nil _).symm
    | true => rfl

end Idle

/-- Every close notification comes right after the close of a descriptor that the client
has opened, so there are never more of them than descriptors.  A connect notifies the
close of the descriptor that it replaces, and that of its own if it fails. -/
theorem closes_match_descriptors {ok : ClientOp → Prop} (hs : Reaches h ok s) :
    Always Announced s.log ∧
    (∀ pre post, s.log = pre ++ post → pre.count Event.closing ≤ pre.countP Event.opens) ∧
    ((∀ tick, h.close tick = 0) → ∀ family ≠ Family.other,
      Triple (fun t => t = s) (connectAddress h (fun _ => pure ()) family)
        (fun done t => ∃ own, notices t.log = notices s.log ++ closing s.sockfd ++
          if done then [.connect] else closing own) fun _ _ => False) := by
  have hnoticed := hs.noticed
  refine ⟨hnoticed.announced, fun pre post hlog => ?_, fun hclose family hf => ?_⟩
  · exact closing_le_opens hlog hnoticed.announced hnoticed.accounts
  · exact (connectAddress_tells hclose hf).pre fun t ht => ht ▸ ⟨rfl, rfl⟩

/-- A client that connects for the first time, on a host where every call succeeds. -/
def firstConnect : PolledClient :=
  (Reentrant.script (system .steady) [.connectAddress .inet] (construct .steady 0)).2

theorem firstConnect_reaches :
    Reaches .steady (fun o => o matches .connectAddress _) firstConnect :=
  ⟨0, Run.start.script [ClientOp.connectAddress .inet] fun o ho _ => by
    obtain rfl := List.mem_singleton.mp ho
    rfl⟩

theorem closes_match_descriptors_first :
    notices firstConnect.log = [.close, .connect] ∧
      [Event.opened 3, .closed 3, Event.closing].count Event.closing ≤ 1 :=
  ⟨by decide +kernel, (closes_match_descriptors firstConnect_reaches).2.1 _
    [.opened 3, .notify none .connect] (by decide +kernel)⟩

/-- The first connect of a client notifies a close without any connection before it. -/
theorem first_connect_closes : ¬∀ (h : Host) (s : PolledClient),
    Reaches h (fun o => o matches .connectAddress _) s → ∀ pre post, s.log = pre ++ post →
    pre.count Event.closing ≤ pre.count (.notify none .connect) := by
  intro hall
  have hcount := hall .steady firstConnect firstConnect_reaches
    [.opened 3, .closed 3, Event.closing] [.opened 3, .notify none .connect] (by decide +kernel)
  exact absurd hcount (by decide)

end PolledClient

end Aeon
