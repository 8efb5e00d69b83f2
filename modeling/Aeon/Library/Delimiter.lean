import Aeon.Library.Search

/-!
# Streams of delimited frames

A stream is cut behind every occurrence of a delimiter.  The frames of a stream are
those of its first part, then those of the rest of that part with what follows, so a
reader may take the stream in pieces of any size.
-/

namespace Delimiter

open Search

variable {α : Type*} {pat l m rest : List α} {frames : List (List α)}

section Frames

variable [DecidableEq α]

/-- The delimiter ends the frame and is nowhere else in it. -/
def Frame (pat f : List α) : Prop := ∃ body, Clear pat body ∧ f = body ++ pat

/-- `fuel` bounds the number of frames. -/
def splitAux (pat : List α) : ℕ → List α → List (List α) × List α
  | 0, l => ([], l)
  | fuel + 1, l =>
    match find pat l with
    | none => ([], l)
    | some i =>
      let r := splitAux pat fuel (l.drop (i + pat.length))
      (l.take (i + pat.length) :: r.1, r.2)

/-- The frames of a stream, and what is behind the last delimiter. -/
def split (pat l : List α) : List (List α) × List α := splitAux pat l.length l

theorem Frame.length_le {f : List α} (hf : Frame pat f) : pat.length ≤ f.length := by
  obtain ⟨body, -, rfl⟩ := hf
  rw [List.length_append]
  omega

theorem Frame.find {f : List α} (hf : Frame pat f) (hpat : pat ≠ []) (m : List α) :
    find pat (f ++ m) = some (f.length - pat.length) := by
  obtain ⟨body, hbody, rfl⟩ := hf
  rw [List.append_assoc, hbody.find hpat, List.length_append, Nat.add_sub_cancel]

theorem frame_take {i : ℕ} (h : Search.find pat l = some i) (hpat : pat ≠ []) :
    Frame pat (l.take (i + pat.length)) := by
  have hle := find_le h hpat
  refine ⟨l.take i, clear_take h hpat, ?_⟩
  have hsplit := (find_eq_some.mp h).split
  have htake := congrArg (List.take (i + pat.length)) hsplit
  rw [htake, List.take_left' (by simp; omega)]

/-- A stream that is put together of frames is cut into them. -/
theorem splitAux_frames (hpat : pat ≠ []) (hframes : ∀ f ∈ frames, Frame pat f)
    (hrest : find pat rest = none) {fuel : ℕ} (hfuel : frames.length ≤ fuel) :
    splitAux pat fuel (frames.flatten ++ rest) = (frames, rest) := by
  induction frames generalizing fuel with
  | nil =>
    cases fuel with
    | zero => rfl
    | succ fuel => simp [splitAux, hrest]
  | cons f frames ih =>
    cases fuel with
    | zero => exact absurd hfuel (by simp)
    | succ fuel =>
      have hf := hframes f List.mem_cons_self
      have hlength := hf.length_le
      have hmore := ih (fun g hg => hframes g (List.mem_cons_of_mem _ hg))
        (Nat.le_of_succ_le_succ hfuel)
      simp only [List.flatten_cons, List.append_assoc, splitAux, hf.find hpat]
      rw [Nat.sub_add_cancel hlength, List.take_left, List.drop_left, hmore]

theorem splitAux_spec (hpat : pat ≠ []) {fuel : ℕ} (hfuel : l.length ≤ fuel) :
    (∀ f ∈ (splitAux pat fuel l).1, Frame pat f) ∧ find pat (splitAux pat fuel l).2 = none ∧
      (splitAux pat fuel l).1.flatten ++ (splitAux pat fuel l).2 = l := by
  induction fuel generalizing l with
  | zero =>
    obtain rfl : l = [] := List.length_eq_zero_iff.mp (Nat.le_zero.mp hfuel)
    exact ⟨nofun, by simp [splitAux, Search.find, hpat], rfl⟩
  | succ fuel ih =>
    unfold splitAux
    split
    · rename_i hnone
      exact ⟨nofun, hnone, rfl⟩
    · rename_i i hi
      have hle := find_le hi hpat
      have hpos := List.length_pos_iff.mpr hpat
      obtain ⟨hframes, hnone, hflat⟩ := ih (l := l.drop (i + pat.length))
        (by rw [List.length_drop]; omega)
      refine ⟨fun f hf => ?_, hnone, ?_⟩
      · rcases List.mem_cons.mp hf with rfl | hmem
        · exact frame_take hi hpat
        · exact hframes f hmem
      · dsimp only
        rw [List.flatten_cons, List.append_assoc, hflat, List.take_append_drop]

theorem frames_length_le (hpat : pat ≠ []) (hframes : ∀ f ∈ frames, Frame pat f) :
    frames.length ≤ frames.flatten.length := by
  have hpos := List.length_pos_iff.mpr hpat
  induction frames with
  | nil => exact Nat.le_refl _
  | cons f frames ih =>
    have hf := (hframes f List.mem_cons_self).length_le
    have hmore := ih fun g hg => hframes g (List.mem_cons_of_mem _ hg)
    simp only [List.length_cons, List.flatten_cons, List.length_append]
    omega

/-- There is one way to cut a stream. -/
theorem split_eq_iff (hpat : pat ≠ []) : split pat l = (frames, rest) ↔
    (∀ f ∈ frames, Frame pat f) ∧ find pat rest = none ∧ frames.flatten ++ rest = l := by
  constructor
  · intro heq
    have hspec := splitAux_spec hpat (Nat.le_refl l.length)
    rwa [show splitAux pat l.length l = (frames, rest) from heq] at hspec
  · rintro ⟨hframes, hrest, rfl⟩
    refine splitAux_frames hpat hframes hrest ?_
    have hcount := frames_length_le hpat hframes
    rw [List.length_append]
    omega

theorem split_spec (hpat : pat ≠ []) (l : List α) :
    (∀ f ∈ (split pat l).1, Frame pat f) ∧ find pat (split pat l).2 = none ∧
      (split pat l).1.flatten ++ (split pat l).2 = l :=
  (split_eq_iff hpat).mp rfl

theorem split_append (hpat : pat ≠ []) (l m : List α) : split pat (l ++ m) =
    ((split pat l).1 ++ (split pat ((split pat l).2 ++ m)).1, (split pat ((split pat l).2 ++ m)).2) := by
  obtain ⟨hframes, -, hflat⟩ := split_spec hpat l
  obtain ⟨hframes', hrest', hflat'⟩ := split_spec hpat ((split pat l).2 ++ m)
  refine (split_eq_iff hpat).mpr ⟨fun f hf => ?_, hrest', ?_⟩
  · exact (List.mem_append.mp hf).elim (hframes f) (hframes' f)
  · rw [List.flatten_append, List.append_assoc, hflat', ← List.append_assoc, hflat]

theorem split_frames (hpat : pat ≠ []) (hframes : ∀ f ∈ frames, Frame pat f) (l : List α) :
    split pat (frames.flatten ++ l) = (frames ++ (split pat l).1, (split pat l).2) := by
  obtain ⟨hmore, hrest, hflat⟩ := split_spec hpat l
  refine (split_eq_iff hpat).mpr ⟨fun f hf => ?_, hrest, ?_⟩
  · exact (List.mem_append.mp hf).elim (hframes f) (hmore f)
  · rw [List.flatten_append, List.append_assoc, hflat]

/-- The first frame that a continuation completes has the rest of the stream in it. -/
theorem rest_lt (hpat : pat ≠ []) (hrest : find pat rest = none) {f : List α}
    (h : split pat (rest ++ m) = (f :: frames, l)) : rest.length < f.length := by
  obtain ⟨hframes, -, hflat⟩ := (split_eq_iff hpat).mp h
  have hf := hframes f List.mem_cons_self
  have hfind : find pat (rest ++ m) = some (f.length - pat.length) := by
    rw [← hflat, List.flatten_cons, List.append_assoc]
    exact hf.find hpat _
  have hlt := find_append_none hrest hfind
  have hle := hf.length_le
  omega

section Singletons

variable {a c : α}

theorem frame_singleton {f : List α} : Frame [a] f ↔ ∃ body, a ∉ body ∧ f = body ++ [a] := by
  constructor
  · rintro ⟨body, hclear, rfl⟩
    refine ⟨body, fun hmem => ?_, rfl⟩
    obtain ⟨front, back, rfl⟩ := List.append_of_mem hmem
    exact hclear.not_within (by simp) ⟨front, back, by simp⟩
  · rintro ⟨body, hnot, rfl⟩
    exact ⟨body, clear_of_notMem hnot List.not_mem_nil, rfl⟩

/-- The delimiter comes. -/
theorem split_concat_self (l : List α) :
    split [a] (l ++ [a]) = ((split [a] l).1 ++ [(split [a] l).2 ++ [a]], []) := by
  obtain ⟨hframes, hnone, hflat⟩ := split_spec (List.cons_ne_nil a []) l
  refine (split_eq_iff (by simp)).mpr ⟨fun f hf => ?_, find_singleton.mpr List.not_mem_nil, ?_⟩
  · rcases List.mem_append.mp hf with hf | hf
    · exact hframes f hf
    · rw [List.mem_singleton.mp hf]
      exact frame_singleton.mpr ⟨_, find_singleton.mp hnone, rfl⟩
  · rw [List.flatten_append, List.flatten_singleton, List.append_nil, ← List.append_assoc, hflat]

theorem split_concat_ne (hne : c ≠ a) (l : List α) :
    split [a] (l ++ [c]) = ((split [a] l).1, (split [a] l).2 ++ [c]) := by
  obtain ⟨hframes, hnone, hflat⟩ := split_spec (List.cons_ne_nil a []) l
  refine (split_eq_iff (by simp)).mpr ⟨hframes, find_singleton.mpr ?_, ?_⟩
  · rw [List.mem_append, not_or]
    exact ⟨find_singleton.mp hnone, fun hmem => hne (List.mem_singleton.mp hmem).symm⟩
  · rw [← List.append_assoc, hflat]

end Singletons

end Frames

end Delimiter
