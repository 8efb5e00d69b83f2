import Aeon.ChatHistory

/-!
# What a reader makes of a stream

Who reads the lines of a stream finds in each of them who has said what.  Nobody can say
anything that a reader takes for a line of somebody else.
-/

namespace Aeon.Chat

open Http (ascii)
open Search Delimiter ClientServer

/-- A message in a line that has been read, with its line feed. -/
def readMessage (frame : List UInt8) : Option (ℕ × List UInt8) :=
  if ascii "guest-" <+: frame then
    let rest := frame.drop 6
    (find (ascii ": ") rest).map fun i => (Decimal.value (rest.take i), (rest.drop (i + 2)).dropLast)
  else none

/-- The messages in what has been read of a stream. -/
def readings (wire : List UInt8) : List (ℕ × List UInt8) := (split [10] wire).1.filterMap readMessage

/-- What a reader is to find of an entry. -/
def Entry.reading : Entry → Option (ℕ × List UInt8)
  | .joined _ => none
  | .said m => some (m.id.toNat, m.line)

section Reading

variable {max : ℕ}

theorem text_notMem {c : UInt8} (hc : Decimal.isDigit c = false) (n : ℕ) : c ∉ Decimal.text n := fun hmem =>
  Bool.false_ne_true (hc.symm.trans (Decimal.isDigit_text n c hmem))

theorem mem_strip {c : UInt8} {line : List UInt8} (h : c ∈ strip line) : c ∈ line := by
  unfold strip at h
  split at h
  · exact List.dropLast_subset line h
  · exact h

theorem strip_length (line : List UInt8) : (strip line).length ≤ line.length := by
  unfold strip
  split
  · rw [List.length_dropLast]
    exact Nat.sub_le _ _
  · exact Nat.le_refl _

/-- What the lines are that are said. -/
theorem lines_sound {stream line : List UInt8} (h : line ∈ lines max stream) :
    line ≠ [] ∧ line.length ≤ max ∧ 0 ∉ line ∧ 10 ∉ line := by
  obtain ⟨hmem, hne⟩ := List.mem_filter.mp h
  obtain ⟨frame, hframe, rfl⟩ := List.mem_map.mp hmem
  have hlegal := List.mem_takeWhile_imp hframe
  obtain ⟨body, hbody, rfl⟩ := frame_singleton.mp
    ((split_spec (by simp) stream).1 _ ((List.takeWhile_prefix _).subset hframe))
  rw [List.dropLast_concat] at hne ⊢
  simp only [legal, Bool.and_eq_true, Bool.not_eq_true', List.contains_eq_mem, decide_eq_false_iff_not,
    decide_eq_true_eq, List.mem_append, List.length_append, List.length_singleton] at hlegal
  have hlength := strip_length body
  exact ⟨by simpa using hne, by omega, fun hnul => hlegal.1 (.inl (mem_strip hnul)),
    fun hfeed => hbody (mem_strip hfeed)⟩

/-- A message is read as it was sent. -/
theorem readMessage_frame (m : Message) : readMessage m.frame = some (m.id.toNat, m.line) := by
  have hclear : Clear (ascii ": ") (Decimal.text m.id.toNat) :=
    clear_of_notMem (text_notMem rfl _) (by decide : (58 : UInt8) ∉ [32])
  have hrest : m.frame.drop 6 = Decimal.text m.id.toNat ++ (ascii ": " ++ (m.line ++ [10])) :=
    List.drop_left' (by decide)
  unfold readMessage
  dsimp only
  rw [if_pos (show ascii "guest-" <+: m.frame from List.prefix_append _ _), hrest, hclear.find (by decide), Option.map_some, List.take_left,
    ← List.drop_drop, List.drop_left, Decimal.value_text]
  congr 2
  rw [List.drop_left' (by decide), List.dropLast_concat]

theorem readMessage_greeting (id : UInt64) : readMessage (greeting id) = none := by
  unfold readMessage
  rw [if_neg]
  unfold greeting
  generalize Decimal.text id.toNat ++ [10] = rest
  rintro ⟨t, ht⟩
  simp [ascii] at ht

theorem frame_line {m : Message} (hm : 10 ∉ m.line) : Frame [10] m.frame := by
  refine frame_singleton.mpr ⟨ascii "guest-" ++ (Decimal.text m.id.toNat ++ (ascii ": " ++ m.line)), ?_, ?_⟩
  · simp only [List.mem_append, not_or]
    exact ⟨by decide, text_notMem rfl _, by decide, hm⟩
  · simp [Message.frame]

theorem frame_greeting (id : UInt64) : Frame [10] (greeting id) := by
  refine frame_singleton.mpr ⟨ascii "* connected as guest-" ++ Decimal.text id.toNat, ?_, ?_⟩
  · simp only [List.mem_append, not_or]
    exact ⟨by decide, text_notMem rfl _⟩
  · simp [greeting]

theorem readings_prefix {wire stream : List UInt8} (h : wire <+: stream) :
    readings wire <+: readings stream := by
  obtain ⟨rest, rfl⟩ := h
  unfold readings
  rw [split_append (by simp)]
  exact (List.prefix_append _ _).filterMap _

/-- The frames of the entries, one after the other. -/
theorem readings_entries (id : UInt64) {heard : List Entry} (hheard : ∀ m, .said m ∈ heard → 10 ∉ m.line) :
    readings (greeting id ++ heard.flatMap Entry.frame) = heard.filterMap Entry.reading := by
  have hflat : greeting id ++ heard.flatMap Entry.frame =
      (greeting id :: heard.filterMap fun
        | .joined _ => none
        | .said m => some m.frame).flatten ++ [] := by
    rw [List.append_nil, List.flatten_cons]
    congr 1
    induction heard with
    | nil => rfl
    | cons e heard ih =>
      have ih := ih fun m hm => hheard m (List.mem_cons_of_mem _ hm)
      cases e with
      | joined id => simpa [Entry.frame] using ih
      | said m => simpa [Entry.frame] using ih
  unfold readings
  rw [hflat, split_frames (by simp)]
  · show List.filterMap readMessage (_ ++ []) = _
    rw [List.append_nil, List.filterMap_cons_none (readMessage_greeting id), List.filterMap_filterMap]
    refine List.filterMap_congr fun e _ => ?_
    cases e with
    | joined id => rfl
    | said m => exact readMessage_frame m
  · intro f hf
    rcases List.mem_cons.mp hf with rfl | hf
    · exact frame_greeting id
    · obtain ⟨e, he, hsome⟩ := List.mem_filterMap.mp hf
      cases e with
      | joined id => cases hsome
      | said m =>
        cases hsome
        exact frame_line (hheard m he)

end Reading

section Attribution

variable {s : Server}

/-- The number in a message is that of its sender, unless the numbers have run out. -/
theorem Named.attributed (hs : Named s) (hfew : (guests s.log).length < 2 ^ 64) {m : Message}
    (hm : .said m ∈ s.log) : ∃ k, (guests s.log)[k]? = some m.sender ∧ m.id.toNat = k + 1 := by
  obtain ⟨hsender, hid⟩ := hs.sender m hm
  obtain ⟨k, hk, hget⟩ := List.getElem_of_mem hsender
  have hsome : (guests s.log)[k]? = some m.sender := List.getElem?_eq_some_iff.mpr ⟨hk, hget⟩
  refine ⟨k, hsome, ?_⟩
  rw [hid, hs.number k _ hsome, UInt64.toNat_ofNat', Nat.mod_eq_of_lt (by omega)]

/-- What a reader finds of a number. -/
def readingsOf (number : ℕ) (found : List (ℕ × List UInt8)) : List (List UInt8) :=
  (found.filter (·.1 = number)).map Prod.snd

theorem Named.said_eq (hs : Named s) (hfew : (guests s.log).length < 2 ^ 64) {k guest : ℕ}
    (hguest : (guests s.log)[k]? = some guest) :
    readingsOf (k + 1) (s.log.filterMap Entry.reading) = said guest s.log := by
  unfold readingsOf said
  rw [List.filter_filterMap, List.map_filterMap]
  refine List.filterMap_congr fun e he => ?_
  cases e with
  | joined id => rfl
  | said m =>
    obtain ⟨j, hj, hnumber⟩ := hs.attributed hfew he
    have hnodup : (guests s.log).Nodup := hs.order.imp fun hlt => Nat.ne_of_lt hlt
    have hiff : m.id.toNat = k + 1 ↔ m.sender = guest := by
      rw [hnumber, Nat.add_right_cancel_iff]
      constructor
      · rintro rfl
        exact Option.some.inj (hj.symm.trans hguest)
      · rintro rfl
        exact (List.getElem?_inj (List.getElem?_eq_some_iff.mp hj).1 hnodup).mp (hj.trans hguest.symm)
    by_cases hsame : m.sender = guest
    · simp [Entry.reading, hsame, hiff.mpr hsame]
    · simp [Entry.reading, hsame, mt hiff.mp hsame]

theorem readingsOf_within {number : ℕ} {found more : List (ℕ × List UInt8)} (h : found <:+: more) :
    readingsOf number found <:+: readingsOf number more := (h.filter _).map _

end Attribution

/-- Lines that are found in the history under a number are lines of the guest that has it. -/
theorem Good.traced {limits : Limits} {s : Server} (hs : Good limits s) (hfew : (guests s.log).length < 2 ^ 64)
    {found : List (ℕ × List UInt8)} (hpart : found <:+: s.log.filterMap Entry.reading) (number : ℕ) :
    readingsOf number found = [] ∨ ∃ k guest, number = k + 1 ∧ (guests s.log)[k]? = some guest ∧
      readingsOf number found <:+: lines limits.maxLineBytes (s.record guest).conn.received := by
  rcases hof : readingsOf number found with _ | ⟨line, more⟩
  · exact .inl rfl
  · right
    have hmem : (number, line) ∈ s.log.filterMap Entry.reading := by
      have hline : line ∈ readingsOf number found := hof ▸ List.mem_cons_self
      obtain ⟨⟨number', line'⟩, hpair, rfl⟩ := List.mem_map.mp hline
      obtain ⟨hpair, hnumber⟩ := List.mem_filter.mp hpair
      rw [← of_decide_eq_true hnumber]
      exact hpart.subset hpair
    obtain ⟨e, he, hsome⟩ := List.mem_filterMap.mp hmem
    cases e with
    | joined id => cases hsome
    | said m =>
      obtain ⟨k, hk, hnumber⟩ := hs.named.attributed hfew he
      cases hsome
      refine ⟨k, m.sender, hnumber, hk, ?_⟩
      rw [← hof, hnumber]
      refine (readingsOf_within hpart).trans ?_
      rw [hs.named.said_eq hfew hk]
      exact (hs.spoken m.sender).first.isInfix

namespace Server

theorem run_lines (limits : Limits) (h : ℕ → Host) (ops : List Op) {m : Message}
    (hm : .said m ∈ (run limits h ops).log) : 10 ∉ m.line := by
  have hsaid : m.line ∈ said m.sender (run limits h ops).log :=
    List.mem_filterMap.mpr ⟨.said m, hm, if_pos rfl⟩
  exact (lines_sound (((run_good limits h ops).spoken m.sender).first.subset hsaid)).2.2.2

/-- Wherever a reader is in what has been written for a client, it has read the first of
what was said after the client came, and what it has read of each number are consecutive
lines of the stream of the one client that has this number. -/
theorem run_read (limits : Limits) (h : ℕ → Host) (ops : List Op)
    (hfew : (guests (run limits h ops).log).length < 2 ^ 64) (id n number : ℕ) :
    let s := run limits h ops
    let c := (s.record id).conn
    let found := readings (c.accepted.take n)
    (c.accepted = [] ∧ id ∉ s.registered ∨ ∃ before after, s.log = before ++ .joined id :: after ∧
      found <+: after.filterMap Entry.reading ∧
      (id ∈ s.registered → readings c.accepted = after.filterMap Entry.reading)) ∧
    (readingsOf number found = [] ∨ ∃ k guest, number = k + 1 ∧ (guests s.log)[k]? = some guest ∧
      readingsOf number found <:+: lines limits.maxLineBytes (s.record guest).conn.received) := by
  intro s c found
  have hs := run_good limits h ops
  have hprefix : found <+: readings c.accepted := readings_prefix (List.take_prefix n _)
  rcases hs.heard id with ⟨hnone, hgone⟩ | ⟨before, heard, missed, hsplit, hall, hlive⟩
  · have hempty : found = [] := by
      rw [show c.accepted = [] from hnone] at hprefix
      exact List.prefix_nil.mp hprefix
    exact ⟨.inl ⟨hnone, hgone⟩, .inl (by rw [hempty]; rfl)⟩
  · have hread : readings c.accepted = heard.filterMap Entry.reading := by
      rw [show c.accepted = _ from hall]
      refine readings_entries _ fun m hm => run_lines limits h ops (m := m) ?_
      rw [hsplit]
      simp [hm]
    refine ⟨.inr ⟨before, heard ++ missed, hsplit, ?_, fun hid => ?_⟩, ?_⟩
    · rw [hread] at hprefix
      rw [List.filterMap_append]
      exact hprefix.trans (List.prefix_append _ _)
    · rw [hlive hid, List.append_nil]
      exact hread
    · have hpart : found <:+: s.log.filterMap Entry.reading := by
        refine hprefix.isInfix.trans ?_
        rw [hread]
        refine List.IsInfix.filterMap _ ⟨before ++ [.joined id], missed, ?_⟩
        rw [show s.log = _ from hsplit]
        simp
      exact hs.traced hfew hpart number

/-- The second guest reads a line that the first one has sent in two pieces. -/
theorem run_read_twice :
    let ops : List Op := [.start true true, .poll [
      .listen [⟨{ sockfd := some 3, connected := true, blocking := false }, rfl⟩,
        ⟨{ sockfd := some 4, connected := true, blocking := false }, rfl⟩],
      .data 0 (ascii "guest-2: "), .data 0 (ascii "me\r\nand")]]
    let found := readings (((run {} (fun _ => .steady) ops).record 1).conn.accepted.take 60)
    readingsOf 1 found ≠ [] ∧ readingsOf 1 found <:+: [ascii "guest-2: me"] := by
  intro ops found
  have hsome : readingsOf 1 found ≠ [] := by decide +kernel
  obtain ⟨-, hnone | ⟨k, guest, hk, hguest, hfound⟩⟩ :=
    run_read {} (fun _ => .steady) ops (by decide +kernel) 1 60 1
  · exact absurd hnone hsome
  · obtain rfl : k = 0 := by omega
    have hfirst : (guests (run {} (fun _ => .steady) ops).log)[0]? = some 0 := by decide +kernel
    obtain rfl : guest = 0 := Option.some.inj (hguest.symm.trans hfirst)
    have hlines : lines 1024 ((run {} (fun _ => .steady) ops).record 0).conn.received =
        [ascii "guest-2: me"] := by decide +kernel
    exact ⟨hsome, hlines ▸ hfound⟩

end Server

end Aeon.Chat
