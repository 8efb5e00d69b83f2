import Aeon.SslSocket

/-!
# Lines of a blocking TLS socket

`ssl_socket::read_line`, which asks the session for one byte at a time and gives
up what it has when an `SSL_read` fails.
-/

namespace Aeon

/-- `SSL_read` returns the number of bytes that it gives, and there is room for
them. -/
structure TlsHost.Delivers (e : TlsHost) : Prop where
  counts : ∀ tick room, 0 < (e.sslRead tick room).ret →
    ((e.sslRead tick room).data.length : Int) = (e.sslRead tick room).ret
  fits : ∀ tick room, (e.sslRead tick room).ret ≤ room

/-- The bytes that an event takes from its session. -/
def Event.decrypted : Event → List UInt8
  | .sslRead _ result _ => if 0 < result.ret then result.data else []
  | _ => []

namespace SslSocket

variable {κ : Type} (h : SslHost)

/-- `read_until`, which is the same as `read_line`. -/
def readUntil (buffer : Bool) (size : Int) (c : SslSocket κ) : (Int × List UInt8) × SslSocket κ :=
  c.readLine h buffer size

/-- What the calls between two states have taken from the session. -/
def decrypted (c d : SslSocket κ) : List UInt8 := (d.log.drop c.log.length).flatMap Event.decrypted

/-- A call that loses nothing: what it has taken from the session is in the buffer
and is counted.  An error counts nothing. -/
structure Keeps (c : SslSocket κ) (out : (Int × List UInt8) × SslSocket κ) : Prop where
  buffer : out.1.2 = c.decrypted out.2
  counted : out.1.1.toNat = (c.decrypted out.2).length

/-- The answer numbered `tick` gives a byte that does not end the line. -/
def GoesOn (tick : ℕ) : Prop := 0 < (h.sslRead tick 1).ret ∧ (h.sslRead tick 1).data.headD 0 ≠ 10

/-- Among the answers to a loop with `room` places, one fails after `k` bytes that
do not end the line. -/
structure FailsAfter (room tick k : ℕ) : Prop where
  inside : k < room
  before : ∀ j, j < k → GoesOn h (tick + j)
  fails : (h.sslRead (tick + k) 1).ret ≤ 0

/-- The call reaches an `SSL_read` that fails after it has taken a byte. -/
def Interrupted (buffer : Bool) (size : Int) (c : SslSocket κ) : Prop :=
  buffer ∧ c.session.isSome ∧ c.connected ∧ ∃ k, 0 < k ∧ FailsAfter h (size - 1).toNat c.tick k

variable {h}

/-- What a loop has taken, with `line` in the buffer before. -/
structure Takes (line : List UInt8) (c : SslSocket κ) (out : (Int × List UInt8) × SslSocket κ)
    (got : List UInt8) : Prop where
  log : ∃ events, out.2.log = c.log ++ events ∧ events.flatMap Event.decrypted = got
  buffer : out.1.2 = line ++ got

theorem Takes.decrypted {c : SslSocket κ} {out : (Int × List UInt8) × SslSocket κ} {got : List UInt8}
    (ht : Takes [] c out got) : c.decrypted out.2 = got := by
  obtain ⟨events, hlog, hgot⟩ := ht.log
  unfold SslSocket.decrypted
  rw [hlog, List.drop_left, hgot]

theorem byte_of_delivers {e : TlsHost} (hd : e.Delivers) {tick : ℕ} (hpos : 0 < (e.sslRead tick 1).ret) :
    (e.sslRead tick 1).data = [(e.sslRead tick 1).data.headD 0] := by
  have hcount := hd.counts tick 1 hpos
  have hfits := hd.fits tick 1
  have hlength : (e.sslRead tick 1).data.length = 1 := by
    push_cast at hfits
    omega
  obtain ⟨byte, hbyte⟩ := List.length_eq_one_iff.mp hlength
  rw [hbyte]
  rfl

theorem FailsAfter.later {room tick k : ℕ} (hf : FailsAfter h (room + 1) tick (k + 1)) :
    GoesOn h tick ∧ FailsAfter h room (tick + 1) k := by
  have hshift (j : ℕ) : tick + 1 + j = tick + (j + 1) := by omega
  refine ⟨hf.before 0 (Nat.succ_pos _), Nat.lt_of_succ_lt_succ hf.inside, ?_, ?_⟩
  · intro j hj
    rw [hshift]
    exact hf.before (j + 1) (Nat.succ_lt_succ hj)
  · rw [hshift]
    exact hf.fails

theorem FailsAfter.earlier {room tick k : ℕ} (hon : GoesOn h tick) (hf : FailsAfter h room (tick + 1) k) :
    FailsAfter h (room + 1) tick (k + 1) := by
  have hshift (j : ℕ) : tick + (j + 1) = tick + 1 + j := by omega
  refine ⟨Nat.succ_lt_succ hf.inside, ?_, ?_⟩
  · intro j hj
    cases j with
    | zero => exact hon
    | succ j =>
      rw [hshift]
      exact hf.before j (Nat.lt_of_succ_lt_succ hj)
  · rw [hshift]
    exact hf.fails

/-- A byte that is taken before the rest. -/
theorem Takes.cons {line : List UInt8} {c d : SslSocket κ} {out : (Int × List UInt8) × SslSocket κ}
    {got : List UInt8} {id : ℕ} {answer : SslResult} (hd : d.log = c.log ++ [.sslRead id answer false])
    (hpos : 0 < answer.ret) {byte : UInt8} (hbyte : answer.data = [byte])
    (ht : Takes (line ++ [byte]) d out got) : Takes line c out (byte :: got) where
  log := by
    obtain ⟨events, hlog, hgot⟩ := ht.log
    refine ⟨.sslRead id answer false :: events, ?_, ?_⟩
    · rw [hlog, hd, List.append_assoc]
      rfl
    · have htaken : (Event.sslRead id answer false).decrypted = answer.data := if_pos hpos
      rw [List.flatMap_cons, hgot, htaken, hbyte]
      rfl
  buffer := by
    rw [ht.buffer, List.append_assoc]
    rfl

/-- How the loop ends: an error after the bytes that it has taken, or their
number. -/
def LoopEnds (h : SslHost) (room tick : ℕ) (line got : List UInt8) (ret : Int) : Prop :=
  (FailsAfter h room tick got.length ∧ ret = sslErrorIo) ∨
    ((∀ k, ¬ FailsAfter h room tick k) ∧ ret = (line ++ got).length)

theorem LoopEnds.cons {room tick : ℕ} {line got : List UInt8} {ret : Int} {byte : UInt8}
    (hon : GoesOn h tick) (he : LoopEnds h room (tick + 1) (line ++ [byte]) got ret) :
    LoopEnds h (room + 1) tick line (byte :: got) ret := by
  have happend : line ++ byte :: got = line ++ [byte] ++ got := by simp
  rcases he with ⟨hfails, hret⟩ | ⟨hnever, hret⟩
  · exact .inl ⟨hfails.earlier hon, hret⟩
  · refine .inr ⟨?_, by rw [hret, happend]⟩
    intro k hk
    cases k with
    | zero => exact absurd hk.fails (not_le.mpr hon.1)
    | succ k => exact hnever k hk.later.2

theorem readLineLoop_takes (hd : h.Delivers) (id room : ℕ) (line : List UInt8) (c : SslSocket κ) :
    ∃ got, Takes line c (c.readLineLoop h id room line) got ∧
      LoopEnds h room c.tick line got (c.readLineLoop h id room line).1.1 := by
  induction room generalizing line c with
  | zero =>
    refine ⟨[], ⟨⟨[], (List.append_nil _).symm, rfl⟩, (List.append_nil _).symm⟩, .inr ⟨?_, ?_⟩⟩
    · exact fun k hk => absurd hk.inside (Nat.not_lt_zero _)
    · rw [List.append_nil]
      rfl
  | succ room ih =>
    unfold readLineLoop
    dsimp only
    by_cases hfails : (h.sslRead c.tick 1).ret ≤ 0
    · have hnothing : (Event.sslRead id (h.sslRead c.tick 1) false).decrypted = [] :=
        if_neg (not_lt.mpr hfails)
      rw [if_pos hfails]
      refine ⟨[], ⟨⟨[_], rfl, ?_⟩, (List.append_nil _).symm⟩, .inl ⟨⟨Nat.succ_pos _, ?_, hfails⟩, rfl⟩⟩
      · rw [List.flatMap_singleton, hnothing]
      · exact fun j hj => absurd hj (Nat.not_lt_zero _)
    · have hpos : 0 < (h.sslRead c.tick 1).ret := not_le.mp hfails
      have hbyte := byte_of_delivers hd hpos
      rw [if_neg hfails]
      by_cases hend : (h.sslRead c.tick 1).data.headD 0 = 10
      · rw [if_pos hend]
        have hstops : ∀ k, ¬ FailsAfter h (room + 1) c.tick k := by
          intro k hk
          cases k with
          | zero => exact hfails hk.fails
          | succ k => exact hk.later.1.2 hend
        have hlast : Takes (line ++ [(h.sslRead c.tick 1).data.headD 0])
            ((c.onSocket Socket.ticked).record (.sslRead id (h.sslRead c.tick 1) false))
            (((line.length + 1 : ℕ), line ++ [(h.sslRead c.tick 1).data.headD 0]),
              (c.onSocket Socket.ticked).record (.sslRead id (h.sslRead c.tick 1) false)) [] :=
          ⟨⟨[], (List.append_nil _).symm, rfl⟩, (List.append_nil _).symm⟩
        exact ⟨_, hlast.cons (c := c) rfl hpos hbyte, .inr ⟨hstops, by simp⟩⟩
      · rw [if_neg hend]
        obtain ⟨got, htakes, hends⟩ := ih (line ++ [(h.sslRead c.tick 1).data.headD 0])
          ((c.onSocket Socket.ticked).record (.sslRead id (h.sslRead c.tick 1) false))
        exact ⟨_, htakes.cons rfl hpos hbyte, hends.cons ⟨hpos, hend⟩⟩

/-- A refused call takes nothing. -/
theorem keeps_refused (code : Int) (hcode : code ≤ 0) (c : SslSocket κ) :
    Keeps c ((code, []), c.setError code) := by
  have hnothing : c.decrypted (c.setError code) = [] := by
    unfold SslSocket.decrypted
    rw [show (c.setError code).log = c.log from rfl, List.drop_length]
    rfl
  refine ⟨hnothing.symm, ?_⟩
  rw [hnothing]
  exact Int.toNat_of_nonpos hcode

/-- A call loses what it has taken exactly when an `SSL_read` fails after the
first byte of it. -/
theorem keeps_iff (hd : h.Delivers) (buffer : Bool) (size : Int) (c : SslSocket κ) :
    Keeps c (c.readLine h buffer size) ↔ ¬ Interrupted h buffer size c := by
  unfold readLine
  split
  · rename_i hrefused
    refine iff_of_true (keeps_refused sslError (by decide) c) ?_
    rintro ⟨hbuffer, -, -, k, -, hk⟩
    have hinside := hk.inside
    simp only [hbuffer, Bool.not_true, Bool.false_or, decide_eq_true_eq] at hrefused
    omega
  · cases hsession : c.session with
    | none =>
      refine iff_of_true (keeps_refused errNoSocket (by decide) c) ?_
      rintro ⟨-, hsome, -⟩
      rw [hsession] at hsome
      cases hsome
    | some s =>
      rename_i hasked
      dsimp only
      by_cases hconnected : c.connected = true
      · rw [hconnected, if_neg (show ¬ (!true) = true by decide)]
        obtain ⟨got, htakes, hends⟩ := readLineLoop_takes hd s.id (size - 1).toNat [] c
        have hgot := htakes.decrypted
        have hbuffer : buffer = true := by
          by_contra hnull
          exact hasked (by simp [hnull])
        constructor
        · rintro ⟨-, hcounted⟩ ⟨-, -, -, k, hpos, hk⟩
          rw [hgot] at hcounted
          rcases hends with ⟨hfails, hret⟩ | ⟨hnever, -⟩
          · rw [hret] at hcounted
            have hfirst := hfails.fails
            rw [← hcounted] at hfirst
            exact absurd hfirst (not_le.mpr (hk.before 0 hpos).1)
          · exact hnever k hk
        · intro hkept
          refine ⟨htakes.buffer.trans hgot.symm, ?_⟩
          rw [hgot]
          rcases hends with ⟨hfails, hret⟩ | ⟨-, hret⟩
          · have hzero : got.length = 0 := by
              by_contra hne
              exact hkept ⟨hbuffer, by rw [hsession]; rfl, hconnected, _, Nat.pos_of_ne_zero hne, hfails⟩
            rw [hret, hzero]
            rfl
          · rw [hret]
            rfl
      · rw [Bool.not_eq_true] at hconnected
        rw [hconnected]
        refine iff_of_true (keeps_refused errNoSocket (by decide) c) ?_
        rintro ⟨-, -, hyes, -⟩
        exact absurd (hconnected.symm.trans hyes) Bool.false_ne_true

/-- The same of both functions. -/
theorem readLine_keeps_iff (h : SslHost) (hd : h.Delivers) (buffer : Bool) (size : Int) (c : SslSocket κ) :
    (Keeps c (c.readLine h buffer size) ↔ ¬ Interrupted h buffer size c) ∧
      (Keeps c (c.readUntil h buffer size) ↔ ¬ Interrupted h buffer size c) :=
  ⟨keeps_iff hd buffer size c, keeps_iff hd buffer size c⟩

/-- A peer that sends one byte and then ends the connection. -/
def oneByte : SslHost := { SslHost.steady with
  sslRead := fun tick room =>
    if tick = 0 ∧ 0 < room then { ret := 1, data := [97] } else { ret := 0, code := .zeroReturn } }

/-- An established client of that peer. -/
def reading : SslSocket Unit :=
  { toSocket := { sockfd := some 3, connected := true }, session := some ⟨0, (), some 3, none, true, true⟩ }

theorem oneByte_delivers : oneByte.Delivers where
  counts tick room hpos := by
    by_cases hfirst : tick = 0 ∧ 0 < room
    · simp [oneByte, hfirst]
    · simp [oneByte, hfirst] at hpos
  fits tick room := by
    by_cases hfirst : tick = 0 ∧ 0 < room
    · simp only [oneByte, hfirst, and_self, if_true]
      omega
    · simp [oneByte, hfirst]

theorem readLine_keeps_iff_oneByte :
    (Keeps reading (reading.readLine oneByte true 10) ↔ ¬ Interrupted oneByte true 10 reading) ∧
      (Keeps reading (reading.readUntil oneByte true 10) ↔ ¬ Interrupted oneByte true 10 reading) :=
  readLine_keeps_iff oneByte oneByte_delivers true 10 reading

/-- The byte is in the buffer, but the call returns an error. -/
theorem oneByte_lost : ¬ Keeps reading (reading.readLine oneByte true 10) := by
  intro hkeeps
  have hcounted := hkeeps.counted
  revert hcounted
  decide +kernel

end SslSocket

end Aeon
