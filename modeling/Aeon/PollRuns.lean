import Aeon.PollDispatch
import Aeon.SessionPrograms

/-!
# What every `poll` of a program does

The tokens that `poll` works on, how it tells the handlers of an event, and to
which connections it applies what it does.
-/

namespace Aeon

open Program Reentrant History EventWorld EventLoop

/-- What any code of the system does to the state: inside a `poll` it edits the
registry, and outside it leaves no `poll` in progress. -/
structure Lawful (h : LoopHost) (a b : EventWorld) : Prop where
  inside : a.polling = true → Sane a → Sane b ∧ Edits a b
  outside : Rested h a → Rested h b

namespace Lawful

variable {h : LoopHost} {fuel : ℕ} {a b c : EventWorld} {cb : EventNote → Code EventWorld Unit}

theorem refl (a : EventWorld) : Lawful h a a := ⟨fun _ hs => ⟨hs, .refl a⟩, id⟩

theorem trans (hab : Lawful h a b) (hbc : Lawful h b c) : Lawful h a c := by
  refine ⟨fun hpolling hs => ?_, fun hr => hbc.outside (hab.outside hr)⟩
  obtain ⟨hsb, hedits⟩ := hab.inside hpolling hs
  obtain ⟨hsc, hedits'⟩ := hbc.inside (hedits.polling.trans hpolling) hsb
  exact ⟨hsc, hedits.trans hedits'⟩

theorem exec (hcb : ∀ n t, Lawful h t (cb n t).2) (o : EventOp) (a : EventWorld) :
    Lawful h a (exec h cb fuel o a).2 := by
  have hedited : Edited cb := fun n t => (hcb n t).inside
  refine ⟨hedited.exec o, fun hr => ?_⟩
  have hstable : Stable h fun w => Sane w ∧ Rested h w :=
    Sane.stable fun _ _ hedits hs hw => hw.edits hedits hs
  refine (hstable.exec (fun n w hw => ?_) (fun timeoutMs w hw => ?_) o a ⟨hr.sane, hr⟩).2
  · have hw' := (hcb n w).outside hw.2
    exact ⟨hw'.sane, hw'⟩
  · have hw' := Rested.poll hedited fuel timeoutMs w hw.2
    exact ⟨hw'.sane, hw'⟩

/-- A handler call is remembered. -/
theorem recorded (a : EventWorld) (n : EventNote) : Lawful h a { a with calls := a.calls ++ [n] } where
  inside _ hs := ⟨hs.of_eq rfl rfl rfl rfl rfl, { Edits.refl a with }⟩
  outside hr := { hr with sane := hr.sane.of_eq rfl rfl rfl rfl rfl }

theorem execSystem (hcb : ∀ n t, Lawful h t (cb n t).2) (o : EventOp) (a : EventWorld) :
    Lawful h a ((system h fuel).exec cb o a).2 :=
  .exec (fun n t => (recorded t n).trans (hcb n _)) o a

end Lawful

theorem EventLoop.Reaches.rested {h : LoopHost} {fuel : ℕ} {w : EventWorld}
    (hw : Reaches h fuel w) : Rested h w := by
  refine hw.keeps (fun o cb real t _ ht => ?_) ⟨.empty, rfl, fun _ => ⟨[], rfl⟩, fun _ => .nil⟩
  have hcb (n : EventNote) (t : EventWorld) : Lawful h t (cb n t).2 :=
    (real.steps n t).within (fun s => .refl s) (fun _ _ _ => .trans) fun o cb _ hcb t _ => .execSystem hcb o t
  exact (Lawful.execSystem hcb o t).outside ht

/-- In every program, whatever the handlers do: `poll` works on a token of its
snapshot only while it is active, on no token that was registered after the
snapshot, and on no object that is gone; and as long as native closes succeed, it
tells every event to the handler of the object once and then, exactly if the token
is still active, to that of the set. -/
theorem poll_dispatches {h : LoopHost} {fuel : ℕ} {w : EventWorld} (hw : Reaches h fuel w) :
    Always Proper w.log ∧ (h.ClosesSucceed → Told w.log) := by
  have hrested := hw.rested
  refine ⟨hrested.sane.proper, fun hclose => ?_⟩
  obtain ⟨off, hoff⟩ := hrested.phase hclose
  exact ⟨_, hoff⟩

/-- A `poll` after the operations `os`. -/
def polled (h : LoopHost) (cb : EventNote → Code EventWorld Unit) (os : List EventOp) : EventWorld :=
  ((system h 1).exec cb (.poll 0) (after h 1 os)).2

/-- A handler that runs `os` when it is told `n` by the first object. -/
def upon (h : LoopHost) (n : Notice) (os : List EventOp) (m : EventNote) : Code EventWorld Unit :=
  Reentrant.script (system h 1) (if m = ⟨.socket, 0, n⟩ then os else [])

theorem polled_reaches (h : LoopHost) (n : Notice) (handler os : List EventOp) :
    Reaches h 1 (polled h (upon h n handler) os) := by
  have hreal : Realizable (system h 1) (fun _ _ => True) (fun _ _ => True) (upon h n handler) :=
    ⟨fun _ t => Steps.script (.refl t) _ fun _ _ _ => trivial, fun _ _ _ _ => trivial⟩
  exact Run.next (.poll 0) (upon h n handler) (reaches_after h 1 os) trivial hreal

/-- A host whose descriptors are readable, and whose peers send two bytes. -/
def chatty : LoopHost :=
  .same ⟨{ stalled with recv := fun _ _ => (⟨2, 0⟩, [1, 2]) }, .steady⟩ { pollin := true }

/-- The data handler removes its socket and adds it again. -/
def readded : EventWorld :=
  polled chatty (upon chatty (.data [1, 2]) [.removeSocket false (some 0), .add (some 0)])
    [.createTcp, .add (some 0)]

theorem poll_dispatches_readded :
    (.deactivated 0 ∈ readded.log ∧ .registered 1 0 ∈ readded.log) ∧
      Always Proper readded.log ∧ Told readded.log := by
  obtain ⟨hproper, htold⟩ :=
    poll_dispatches (polled_reaches chatty _ _ _ : Reaches chatty 1 readded)
  exact ⟨by decide +kernel, hproper, htold fun _ _ => ⟨rfl, rfl⟩⟩

/-- As long as no handler has put a new connection in place of one that `poll` goes
on to use, all that `poll` does is done to the connection that it has watched. -/
theorem poll_acts_on_watched {h : LoopHost} {fuel : ℕ} {w : EventWorld} (hw : Reaches h fuel w)
    (hun : Unreplaced w.log) : Always Direct w.log := hw.rested.direct hun

theorem poll_acts_on_watched_readded : Always Direct readded.log :=
  poll_acts_on_watched (w := readded) (polled_reaches chatty _ _ _) (by decide +kernel)

/-- A host on which handshakes fail. -/
def refusing : LoopHost :=
  .same ⟨{ stalled with doHandshake := fun _ => { ret := -1, code := .other } }, .steady⟩
    { pollin := true, pollout := true }

def dial : EventOp := .connectTls 0 (.host (some "peer") 443)

/-- A client connects again when its handshake has failed. -/
def redialled : EventWorld :=
  polled refusing (upon refusing (.error sslErrorHandshake) [dial])
    [.createTls true, dial, .add (some 0)]

/-- The close after the error is applied to the connection that the handler has made. -/
theorem poll_closes_newer : ¬∀ h fuel w, Reaches h fuel w → Always Direct w.log := by
  intro hall
  have hdirect := hall refusing 1 redialled (polled_reaches refusing _ _ _)
  have hmem : .did 0 .close 2 3 ∈ redialled.log := by decide +kernel
  obtain ⟨pre, post, hlog⟩ := List.append_of_mem hmem
  exact absurd (hdirect pre _ post hlog 0 .close 2 3 rfl) (by decide)

end Aeon
