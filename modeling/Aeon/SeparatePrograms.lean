import Aeon.PollRuns
import Aeon.SessionSeparation
import Aeon.TlsPrograms
import Mathlib.Data.List.Chain

/-!
# Sessions of a program are separate

Between the operations of a program, and whenever one of them calls a handler,
every TLS object is settled.  Only while it connects may it have a connected
socket without a session.
-/

namespace Aeon

open Program Reentrant History EventWorld EventLoop

open SslEventSocket in
theorem NewObject.settled {e : NetHost} {s : SslEventSocket} (hnew : NewObject e (.tls s)) :
    s.Settled := by
  have hs := hnew.untouched
  have hempty : s.outgoing.Empty := hs.outgoing ▸ ⟨rfl, rfl, rfl⟩
  have hended : s.session = none → s.tlsReady = false ∧ s.needWrite = false ∧ s.outgoing.Empty :=
    fun hnone => ⟨hs.unused.tlsReady, (hs.offline hnone).1, hempty⟩
  have howned (id : ℕ) : s.view.Owned id := by
    show s.outgoing.pending <:+ _
    rw [hempty.pending]
    exact List.nil_suffix
  have hkept : s.Kept := ⟨ObjectStep.new_modelled hnew, fun _ => hs.unused, hended, fun id _ _ => howned id⟩
  exact ⟨hkept, fun hnone => .inr (hs.offline hnone).2⟩

open SslEventSocket in
/-- Every function keeps a TLS object settled, and a connect at least keeps it. -/
theorem settled_carried (h : LoopHost) : Carried h 0 (fun _ => SslEventSocket.Settled)
    fun _ => Kept where
  weaken _ _ hs := hs.toKept
  made _ _ _ hnew := hnew.settled
  part i s _ hpart hs := hpart.upheld SslEventSocket.Settled.upheld
    (fun _ hf s hs => (SslEventSocket.Settled.upheld (e := (h.objects i).tls)).base s _ (hf _) hs)
    (fun s hs => ⟨hs.toKept.base (Socket.silent_close (h.objects i).tls.toHost s.toSocket), fun _ =>
      .inl (Socket.close_sockfd (h.objects i).tls.toHost s.toSocket)⟩) hs.reachable hs
  create i s family hs := ⟨hs.toKept.base
    (Socket.silent_create (h.objects i).tls.toHost family s.toSocket), fun _ => .inr rfl⟩
  failed _ _ hs := ⟨hs.toKept.base ⟨[], by simp, by simp⟩, fun _ => .inr rfl⟩
  done _ _ hs := hs.toKept.base ⟨[], by simp, by simp [Socket.connectDone]⟩
  connected _ _ hs := hs.base ⟨[], by simp, by simp⟩
  start _ _ identity hs := hs.startClient identity

section Sessions

variable {h : LoopHost} {fuel id : ℕ} {w : EventWorld} {s : SslEventSocket}

/-- In every program: nothing is recorded or queued on a TLS object without a
session, and as long as no `init_session` has found a live session with bytes
queued, what is recorded and queued on a session is its own.  A handler may throw,
so that these are also the states in which handlers are called. -/
theorem sessions_separate (hw : Reaches h fuel w) (hs : w.find id = some (.tls s)) :
    (s.session = none → s.Unused ∧ s.needWrite = false ∧ s.outgoing.Empty) ∧
      (CleanStarts s.log → s.Separate) := by
  have hsettled : s.Settled := hw.carried (settled_carried h) hs
  refine ⟨fun hnone => ?_, hsettled.toKept.separate⟩
  obtain ⟨hready, hwrite, hempty⟩ := hsettled.ended hnone
  exact ⟨hsettled.unused hready, hwrite, hempty⟩

/-- A session that takes the place of another one is in the history right after
the end of that one. -/
def Event.replaces : Event → Event → Bool
  | .sslFree _, .sslNew _ => true
  | _, _ => false

theorem cleanStarts_of_chain {log : List Event}
    (hlog : log.IsChain fun a b => a.replaces b = false) : CleanStarts log := by
  rintro pre old new post rfl
  have hstart := (List.isChain_append_cons_cons.mp hlog).2.1
  cases hstart

/-- A client that has queued a byte, is closed and connects again. -/
theorem sessions_separate_closed : ∃ s, (after (.same ⟨.steady, .steady⟩ {}) 1
    [.createTls true, dial, .call 0 (.queueWrite (some [1])), .close 0, dial]).find 0 = some (.tls s) ∧
      s.session = some 1 ∧ s.Separate := by
  obtain ⟨s, hs, hp⟩ := exists_of_tlsIs 0
    (p := fun s => s.session == some 1 && decide (s.log.IsChain fun a b => a.replaces b = false))
    (w := after (.same ⟨.steady, .steady⟩ {}) 1
      [.createTls true, dial, .call 0 (.queueWrite (some [1])), .close 0, dial]) (by decide +kernel)
  rw [Bool.and_eq_true, beq_iff_eq, decide_eq_true_eq] at hp
  exact ⟨s, hs, hp.1, (sessions_separate (reaches_after _ _ _) hs).2 (cleanStarts_of_chain hp.2)⟩

/-- A client that connects again, whose close handler connects it as well and
queues a byte on that connection. -/
def overtaken : EventWorld :=
  ((system (.same ⟨.steady, .steady⟩ {}) 1).exec (upon (.same ⟨.steady, .steady⟩ {}) .close
    [dial, .call 0 (.queueWrite (some [1]))]) dial
    (after (.same ⟨.steady, .steady⟩ {}) 1 [.createTls true, dial])).2

theorem overtaken_reaches : Reaches (.same ⟨.steady, .steady⟩ {}) 1 overtaken := by
  have hreal : Realizable (system (.same ⟨.steady, .steady⟩ {}) 1) (fun _ _ => True)
      (fun _ _ => True) (upon (.same ⟨.steady, .steady⟩ {}) .close
        [dial, .call 0 (.queueWrite (some [1]))]) :=
    ⟨fun _ t => Steps.script (.refl t) _ fun _ _ _ => trivial, fun _ _ _ _ => trivial⟩
  exact Run.next dial _ (reaches_after _ 1 _) trivial hreal

/-- The byte is queued on the session that takes the place of the one it was accepted on. -/
theorem sessions_inherit_queue : ¬∀ (h : LoopHost) (fuel id : ℕ) (w : EventWorld)
    (s : SslEventSocket), Reaches h fuel w → w.find id = some (.tls s) → s.Separate := by
  intro hall
  obtain ⟨s, hs, hp⟩ := exists_of_tlsIs 0 (p := fun s => s.session == some 3 &&
    s.outgoing.pending == [1] && acceptedBytes 3 s.log == []) (w := overtaken) (by decide +kernel)
  simp only [Bool.and_eq_true, beq_iff_eq] at hp
  obtain ⟨⟨hlive, hpending⟩, hnone⟩ := hp
  have hown := (hall _ _ _ _ s overtaken_reaches hs).queue 3 hlive
  rw [hpending, hnone] at hown
  exact absurd (List.suffix_nil.mp hown) (by decide)

end Sessions

end Aeon
