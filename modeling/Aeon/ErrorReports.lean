import Aeon.EventSteps
import Aeon.PollReturns

/-!
# The errors that handlers are told of

Every error that `poll` or `write` tells a handler of is a public code of the
library, and when the handler of the object starts it is the error of the object.
-/

namespace Aeon

open Program EventWorld EventLoop

/-- What `write` does: it runs a function of its object, or tells a handler. -/
inductive Writes (h : LoopHost) (cb : EventNote → Code EventWorld Unit) :
    EventWorld → Option EventNote → EventWorld → Prop
  | own {w : EventWorld} {id : ℕ} {o o' : EventObject} (object : w.find id = some o)
      (step : ObjectStep (h.objects id) o o') : Writes h cb w none (w.store id o')
  | tell {w : EventWorld} (n : EventNote) (explained : Explained w n) :
      Writes h cb w (some n) (cb n w).2

namespace Writes

variable {α : Type} {h : LoopHost} {cb : EventNote → Code EventWorld Unit} {id : ℕ}
variable {P : EventWorld → Prop}

theorem call {f : EventObject → α × EventObject}
    (hf : ∀ o, ObjectStep (h.objects id) o (f o).2) :
    Makes (Writes h cb) P (call id f) (fun a _ w => ∃ o, w.find id = some (f o).2 ∧ a = (f o).1)
      fun _ _ => True := by
  intro w _
  rw [EventWorld.call]
  cases ho : w.find id with
  | none => exact ⟨[], .nil w, nofun, fun _ _ => trivial⟩
  | some o =>
    refine ⟨[none], .one (.own ho (hf o)), fun a ha => ?_, nofun⟩
    obtain rfl := Except.ok.inj ha
    exact ⟨o, find_store_same ho, rfl⟩

theorem inspect {f : EventObject → α} :
    Makes (Writes h cb) P (EventWorld.call id fun o => (f o, o)) (fun _ _ _ => True) fun _ _ => True :=
  (call fun o => .same o).post fun _ _ _ _ => trivial

theorem fire {n : Notice} (hP : ∀ w, P w → Explained w ⟨.socket, id, n⟩) :
    Makes (Writes h cb) P (fire cb id n) (fun _ _ _ => True) fun _ _ => True :=
  Makes.one (k := fun _ => some ⟨.socket, id, n⟩) (fun w hw => .tell _ (hP w hw))
    (fun _ _ _ _ => trivial) fun _ _ _ _ => trivial

theorem writeSized (hrep : h.Reports) (data : List UInt8) :
    Makes (Writes h cb) (fun _ => True) (writeSized h cb id data) (fun _ _ _ => True)
      fun _ _ => True := by
  refine Makes.bind inspect fun valid _ => .ite (fun _ => ?_) fun _ => ?_
  · refine Makes.bind ((call fun o => ?_).post fun _ _ _ _ => trivial) fun _ _ => Makes.ret fun _ _ => trivial
    exact .socket (fun s => ((), s.setError (if valid then errInvalidArgument else errNoSocket)))
      (fun _ => ⟨rfl, rfl⟩) o
  · refine Makes.bind (call fun o => .directWrite data o) fun sent _ => ?_
    refine Makes.bind (Q := fun _ _ _ => True) (Makes.whenever (fun hfailed => fire ?_)
      fun _ _ _ => trivial) fun _ _ => ?_
    · rintro w ⟨o, hfind, rfl⟩ code hcode
      obtain rfl := Notice.error.inj hcode
      obtain ⟨hmem, hset⟩ := EventObject.directWrite_coded (hrep.objects id) data o
        (of_decide_eq_true hfailed)
      exact ⟨hmem, fun _ => ⟨_, hfind, hset⟩⟩
    · refine Makes.bind ((call fun o => .notifyWrite data _ o).post fun _ _ _ _ => trivial) fun _ _ => ?_
      refine Makes.bind (fire fun _ _ code hcode => Notice.noConfusion hcode) fun _ _ => ?_
      exact Makes.ret fun _ _ => trivial

/-- Every overload of `write`. -/
theorem write (hrep : h.Reports) (c : WriteCall) :
    Makes (Writes h cb) (fun _ => True) (write h cb id c) (fun _ _ _ => True) fun _ _ => True := by
  have htext (data : Option (List UInt8)) : Makes (Writes h cb) (fun _ => True)
      (writeText h cb id data) (fun _ _ _ => True) fun _ _ => True := by
    cases data with
    | none => exact Makes.ret fun _ _ => trivial
    | some data =>
      refine Makes.bind inspect fun valid _ => .ite (fun _ => Makes.ret fun _ _ => trivial) fun _ => ?_
      refine .ite (fun _ => Makes.ret fun _ _ => trivial) fun _ => ?_
      exact .ite (fun _ => Makes.ret fun _ _ => trivial) fun _ => writeSized hrep data
  have hstring (data : List UInt8) : Makes (Writes h cb) (fun _ => True)
      (writeString h cb id data) (fun _ _ _ => True) fun _ _ => True :=
    Makes.bind inspect fun valid _ => .ite (fun _ => Makes.ret fun _ _ => trivial) fun _ =>
      writeSized hrep data
  cases c with
  | sized data => exact writeSized hrep _
  | text data | shiftText data => exact htext data
  | string data | shiftString data => exact hstring data

end Writes

/-- Whatever the state of the world and whatever the handlers do, `poll` and `write`
tell them of no error that is not a public code, and the handler of an object only
of the error that the object has. -/
theorem errors_explained {h : LoopHost} (hrep : h.Reports) (fuel : ℕ)
    (cb : EventNote → Code EventWorld Unit) (w : EventWorld) :
    (∀ code ∈ libraryCodes, code < socketError ∧ code ≠ errNone) ∧
    (∀ timeoutMs, ∃ ms, Path (Does h cb Explained) w ms (poll h cb fuel timeoutMs w).2) ∧
    ∀ id c, ∃ ms, Path (Writes h cb) w ms (write h cb id c w).2 := by
  refine ⟨by decide, fun timeoutMs => ?_, fun id c => ?_⟩
  · have hpoll : Plays h cb Explained (fun t => t = w) (poll h cb fuel timeoutMs) _ :=
      Plays.poll (fun _ _ hn => hn hrep) w
    obtain ⟨ms, hpath, -⟩ := hpoll w rfl
    exact ⟨ms, hpath⟩
  · have hwrite : Makes (Writes h cb) (fun _ => True) (write h cb id c) _ _ := Writes.write hrep c
    obtain ⟨ms, hpath, -⟩ := hwrite w trivial
    exact ⟨ms, hpath⟩

/-- A registered client whose handshake is about to fail. -/
def refused : EventWorld := after refusing 1 [.createTls true, dial, .add (some 0)]

theorem errors_explained_refused :
    .entered 0 .socket (.error sslErrorHandshake) ∈
        (poll refusing (fun _ => pure ()) 1 0 refused).2.log ∧
      (∀ code ∈ libraryCodes, code < socketError ∧ code ≠ errNone) ∧
      (∀ timeoutMs, ∃ ms, Path (Does refusing (fun _ => pure ()) Explained) refused ms
        (poll refusing (fun _ => pure ()) 1 timeoutMs refused).2) ∧
      ∀ id c, ∃ ms, Path (Writes refusing fun _ => pure ()) refused ms
        (write refusing (fun _ => pure ()) id c refused).2 := by
  refine ⟨by decide +kernel, errors_explained ⟨fun id => ⟨fun tick room => ?_, fun tick => ?_⟩,
    fun tick room => ?_, fun tick => ?_⟩ 1 (fun _ => pure ()) refused⟩
  · exact fun h => absurd h (Int.lt_irrefl 0)
  · exact fun h => absurd h (show ¬((1 : Int) < 0) by decide)
  · exact fun h => absurd h (Int.lt_irrefl 0)
  · exact fun h => absurd rfl h

end Aeon
