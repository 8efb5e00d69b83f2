import Aeon.HttpServer
import Aeon.HttpGrammar
import Aeon.Library.Delimiter

/-!
# What a client is to be told

`answers` says what the server has to send on a connection, as a function of the bytes
of that connection alone: one response for each request, until one that closes it.
-/

namespace Aeon.Http

open Search Delimiter

/-- A request that leaves the connection open. -/
def Kept (max : ℕ) (raw : List UInt8) : Prop := raw.length ≤ max ∧ (respond raw).close = false

instance (max : ℕ) (raw : List UInt8) : Decidable (Kept max raw) := inferInstanceAs (Decidable (_ ∧ _))

/-- The response to one request, however long it is. -/
def response (max : ℕ) (raw : List UInt8) : Response := if max < raw.length then tooLarge else respond raw

def reply (max : ℕ) : List (List UInt8) → List UInt8 → List Response
  | [], rest => if max < rest.length then [tooLarge] else []
  | raw :: frames, rest =>
    response max raw :: if Kept max raw then reply max frames rest else []

def answers (max : ℕ) (stream : List UInt8) : List Response :=
  reply max (split blankLine stream).1 (split blankLine stream).2

/-- Something in the stream closes the connection. -/
def Ended (max : ℕ) (frames : List (List UInt8)) (rest : List UInt8) : Prop :=
  (∃ raw ∈ frames, ¬Kept max raw) ∨ max < rest.length

section Replies

variable {max : ℕ} {frames more : List (List UInt8)} {rest rest' : List UInt8}

theorem blankLine_ne_nil : blankLine ≠ [] := by decide

theorem kept_response {raw : List UInt8} (h : Kept max raw) : response max raw = respond raw :=
  if_neg (Nat.not_lt.mpr h.1)

theorem not_ended : ¬Ended max frames rest ↔ (∀ raw ∈ frames, Kept max raw) ∧ rest.length ≤ max := by
  rw [Ended, not_or, Nat.not_lt]
  exact and_congr_left fun _ => by
    constructor
    · exact fun hnone raw hraw => by
        by_contra hkept
        exact hnone ⟨raw, hraw, hkept⟩
    · rintro hall ⟨raw, hraw, hkept⟩
      exact hkept (hall raw hraw)

theorem reply_kept (hkept : ∀ raw ∈ frames, Kept max raw) (more : List (List UInt8)) (rest : List UInt8) :
    reply max (frames ++ more) rest = frames.map respond ++ reply max more rest := by
  induction frames with
  | nil => rfl
  | cons raw frames ih =>
    have hraw := hkept raw List.mem_cons_self
    rw [List.cons_append, reply, if_pos hraw, kept_response hraw,
      ih fun f hf => hkept f (List.mem_cons_of_mem _ hf)]
    rfl

/-- Nothing is answered behind what closes the connection. -/
theorem reply_stop (hstop : ∃ raw ∈ frames, ¬Kept max raw) (more : List (List UInt8))
    (rest rest' : List UInt8) : reply max (frames ++ more) rest = reply max frames rest' := by
  induction frames with
  | nil => exact absurd hstop (by simp)
  | cons raw frames ih =>
    rw [List.cons_append, reply, reply]
    split
    · rename_i hraw
      obtain ⟨f, hf, hnot⟩ := hstop
      rcases List.mem_cons.mp hf with rfl | hf
      · exact absurd hraw hnot
      · rw [ih ⟨f, hf, hnot⟩]
    · rfl

theorem reply_open (hopen : ¬Ended max frames rest) : reply max frames rest = frames.map respond := by
  obtain ⟨hkept, hshort⟩ := not_ended.mp hopen
  have hreply := reply_kept hkept [] rest
  rwa [List.append_nil, reply, if_neg (Nat.not_lt.mpr hshort), List.append_nil] at hreply

/-- What closes the connection is answered alike, however much has arrived behind it. -/
theorem reply_ended {stream : List UInt8} (hended : Ended max frames rest)
    (hnone : find blankLine rest = none) (hmore : split blankLine (rest ++ stream) = (more, rest')) :
    reply max (frames ++ more) rest' = reply max frames rest ∧ Ended max (frames ++ more) rest' := by
  by_cases hall : ∃ raw ∈ frames, ¬Kept max raw
  · refine ⟨reply_stop hall more rest' rest, .inl ?_⟩
    obtain ⟨raw, hraw, hnot⟩ := hall
    exact ⟨raw, List.mem_append_left _ hraw, hnot⟩
  · have hlong := hended.resolve_left hall
    have hkept : ∀ raw ∈ frames, Kept max raw := fun raw hraw => by
      by_contra hnot
      exact hall ⟨raw, hraw, hnot⟩
    have hhere := reply_kept hkept [] rest
    rw [List.append_nil, reply, if_pos hlong] at hhere
    rw [reply_kept hkept more rest', hhere]
    -- the rest stays too long, whatever ends it
    cases more with
    | nil =>
      obtain ⟨-, -, hflat⟩ := (split_eq_iff blankLine_ne_nil).mp hmore
      have hlength := congrArg List.length hflat
      simp only [List.flatten_nil, List.nil_append, List.length_append] at hlength
      have hlong' : max < rest'.length := by omega
      rw [reply, if_pos hlong']
      exact ⟨rfl, .inr hlong'⟩
    | cons raw more =>
      have hless := rest_lt blankLine_ne_nil hnone hmore
      have hnot : ¬Kept max raw := fun hkept => by
        have hle := hkept.1
        omega
      rw [reply, if_neg hnot, response, if_pos (by omega)]
      exact ⟨rfl, .inl ⟨raw, List.mem_append_right _ List.mem_cons_self, hnot⟩⟩

end Replies

/-- What has arrived on a connection closes it. -/
def Closes (max : ℕ) (stream : List UInt8) : Prop :=
  Ended max (split blankLine stream).1 (split blankLine stream).2

section Streams

variable {max : ℕ} {stream : List UInt8} (more : List UInt8)

theorem answers_closed (hclosed : Closes max stream) :
    answers max (stream ++ more) = answers max stream ∧ Closes max (stream ++ more) := by
  obtain ⟨-, hnone, -⟩ := split_spec blankLine_ne_nil stream
  unfold answers Closes
  rw [split_append blankLine_ne_nil]
  exact reply_ended hclosed hnone rfl

/-- A connection that is open is answered on from where the last request ended. -/
theorem answers_open (hopen : ¬Closes max stream) :
    answers max (stream ++ more) = answers max stream ++
        answers max ((split blankLine stream).2 ++ more) ∧
      (Closes max (stream ++ more) ↔ Closes max ((split blankLine stream).2 ++ more)) := by
  obtain ⟨hkept, -⟩ := not_ended.mp hopen
  unfold answers Closes
  rw [split_append blankLine_ne_nil, reply_kept hkept, reply_open hopen]
  refine ⟨rfl, ?_⟩
  rw [← not_iff_not, not_ended, not_ended]
  exact and_congr_left fun _ => by
    rw [List.forall_mem_append]
    exact and_iff_right hkept

/-- The responses for what has arrived stay what they are. -/
theorem answers_append (max : ℕ) (stream more : List UInt8) :
    answers max stream <+: answers max (stream ++ more) := by
  by_cases hclosed : Closes max stream
  · rw [(answers_closed more hclosed).1]
  · rw [(answers_open more hclosed).1]
    exact List.prefix_append _ _

end Streams

end Aeon.Http
