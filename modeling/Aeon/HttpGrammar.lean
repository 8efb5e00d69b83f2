import Aeon.HttpRequest

/-!
# Which requests the server accepts

`Request` is a request by its parts and `Request.text` writes it down.  The parser
accepts the texts of well-formed requests and nothing else, and reads off them what
the request says.
-/

namespace Aeon.Http

open Search

/-- A header line: a name, a value, and the blanks around the value. -/
structure Field where
  name : List UInt8
  before : List UInt8 := []
  value : List UInt8
  after : List UInt8 := []
  deriving DecidableEq, Repr

namespace Field

def text (f : Field) : List UInt8 := f.name ++ [58] ++ (f.before ++ f.value ++ f.after)

/-- The parts are where the text of the field is cut. -/
structure Plain (f : Field) : Prop where
  name : tokenName f.name = true
  before : f.before.all blank = true
  after : f.after.all blank = true
  value : trim f.value = f.value
  empty : f.value = [] → f.after = []
  printed : ∀ c ∈ f.value, 32 ≤ c ∨ c = 9

def Named (n : String) (f : Field) : Prop := lower f.name = ascii n

instance (n : String) (f : Field) : Decidable (f.Named n) := inferInstanceAs (Decidable (_ = _))

end Field

/-- The fields of one name, in whatever case. -/
def named (n : String) (fields : List Field) : List Field := fields.filter fun f => f.Named n

structure Request where
  head : Bool := false
  target : List UInt8
  http10 : Bool := false
  fields : List Field := []
  deriving DecidableEq, Repr

namespace Request

def method (r : Request) : List UInt8 := if r.head then ascii "HEAD" else ascii "GET"

def version (r : Request) : List UInt8 := if r.http10 then ascii "HTTP/1.0" else ascii "HTTP/1.1"

def lines (fields : List Field) : List UInt8 := fields.flatMap fun f => f.text ++ crlf

def text (r : Request) : List UInt8 :=
  r.method ++ [32] ++ (r.target ++ [32] ++ r.version) ++ crlf ++ (lines r.fields ++ crlf)

/-- Some `Connection` field has the token among its items. -/
def hasToken (r : Request) (token : String) : Bool :=
  (named "connection" r.fields).any fun f => containsToken f.value (ascii token)

def closes (r : Request) : Bool :=
  if r.hasToken "close" then true else if r.hasToken "keep-alive" then false else r.http10

/-- What the request says. -/
def parsed (r : Request) : ParsedRequest where
  error := 0
  head := r.head
  close := r.closes
  http10 := r.http10
  path := r.target.takeWhile (· ≠ 63)

/-- A path of one line, at most one host and, before HTTP/1.1, maybe none, no body. -/
structure WellFormed (r : Request) : Prop where
  absolute : r.target.head? = some 47
  noFragment : 35 ∉ r.target
  noSpace : 32 ∉ r.target
  oneLine : ¬ crlf <:+: r.target
  fields : ∀ f ∈ r.fields, f.Plain
  hosts : (named "host" r.fields).length ≤ 1
  host : ∀ f ∈ named "host" r.fields, f.value ≠ []
  hostNeeded : r.http10 = false → named "host" r.fields ≠ []
  lengths : (named "content-length" r.fields).length ≤ 1
  length : ∀ f ∈ named "content-length" r.fields, f.value ≠ [] ∧ ∀ c ∈ f.value, c = 48
  noTransfer : named "transfer-encoding" r.fields = []

end Request

section Bytes

theorem isAlnum_range {c : UInt8} (h : isAlnum c = true) : 48 ≤ c := by
  simp only [isAlnum, Bool.or_eq_true, Bool.and_eq_true, decide_eq_true_eq, UInt8.le_iff_toNat_le] at h ⊢
  simp at h ⊢
  omega

theorem tokenExtra_range : ∀ c ∈ tokenExtra, 33 ≤ c ∧ c ≠ 58 := by decide +kernel

theorem token_range {s : List UInt8} (h : tokenName s = true) : ∀ c ∈ s, 33 ≤ c ∧ c ≠ 58 := by
  intro c hc
  simp only [tokenName, Bool.and_eq_true, List.all_eq_true, Bool.or_eq_true, List.contains_iff_mem] at h
  rcases h.2 c hc with halnum | hextra
  · refine ⟨?_, ?_⟩
    · have hrange := isAlnum_range halnum
      rw [UInt8.le_iff_toNat_le] at hrange ⊢
      simp at hrange ⊢
      omega
    · rintro rfl
      revert halnum
      decide
  · exact tokenExtra_range c hextra

theorem token_ne_nil {s : List UInt8} (h : tokenName s = true) : s ≠ [] := by
  rintro rfl
  cases h

/-- No byte of a name is a control, a space or a colon. -/
theorem token_notMem {s : List UInt8} (h : tokenName s = true) {c : UInt8} (hc : c < 33 ∨ c = 58) :
    c ∉ s := by
  intro hmem
  obtain ⟨hle, hne⟩ := token_range h c hmem
  rcases hc with hlt | heq
  · exact absurd hle (by rw [UInt8.not_le]; exact hlt)
  · exact hne heq

theorem all_blank_iff {s : List UInt8} : s.all blank = true ↔ ∀ c ∈ s, c = 32 ∨ c = 9 := by
  simp [blank]

theorem dropWhile_blank_append {s t : List UInt8} (h : s.all blank = true) :
    (s ++ t).dropWhile blank = t.dropWhile blank := by
  rw [List.dropWhile_append_of_pos]
  simpa using h

section Trim

variable {s t : List UInt8}

theorem dropWhile_dropWhile (s : List UInt8) : (s.dropWhile blank).dropWhile blank = s.dropWhile blank := by
  induction s with
  | nil => rfl
  | cons c s ih =>
    cases hc : blank c with
    | true => simpa [hc] using ih
    | false => simp [hc]

/-- What is left of a text that starts with no blank does not start with one. -/
theorem dropWhile_prefix (h : t <+: s.dropWhile blank) : t.dropWhile blank = t := by
  cases t with
  | nil => rfl
  | cons c t =>
    obtain ⟨rest, hrest⟩ := h
    have hsame := dropWhile_dropWhile s
    rw [← hrest, List.cons_append] at hsame
    cases hc : blank c with
    | true =>
      have hlength := congr_arg List.length hsame
      have hle := List.length_dropWhile_le blank (t ++ rest)
      simp [hc] at hlength
      simp at hle
      omega
    | false => simp [hc]

theorem trim_trim (s : List UInt8) : trim (trim s) = trim s := by
  have hfront : (trim s).dropWhile blank = trim s := dropWhile_prefix (List.rdropWhile_prefix _ _)
  rw [trim, hfront, trim, List.rdropWhile_idempotent]

theorem rdropWhile_append (h : t.all blank = true) : (s ++ t).rdropWhile blank = s.rdropWhile blank := by
  induction t using List.reverseRecOn with
  | nil => rw [List.append_nil]
  | append_singleton t c ih =>
    rw [List.all_append, Bool.and_eq_true] at h
    rw [← List.append_assoc, List.rdropWhile_concat_pos _ _ _ (by simpa using h.2), ih h.1]

theorem Field.Plain.trim_eq {f : Field} (h : f.Plain) : trim (f.before ++ f.value ++ f.after) = f.value := by
  rw [trim, List.append_assoc, dropWhile_blank_append h.before]
  by_cases hempty : f.value = []
  · rw [hempty, h.empty hempty]
    rfl
  · have hfront : f.value.dropWhile blank = f.value := by
      rw [← h.value, trim]
      exact dropWhile_prefix (List.rdropWhile_prefix _ _)
    have hafter : (f.value ++ f.after).dropWhile blank = f.value ++ f.after := by
      obtain ⟨c, cs, hcs⟩ := List.exists_cons_of_ne_nil hempty
      rw [hcs] at hfront ⊢
      cases hc : blank c with
      | true =>
        have hlength := congr_arg List.length hfront
        have hle := List.length_dropWhile_le blank cs
        simp [hc] at hlength
        omega
      | false => simp [hc]
    have hvalue := h.value
    rw [trim, hfront] at hvalue
    rw [hafter, rdropWhile_append h.after, hvalue]

/-- Every text has its value between blanks. -/
theorem trim_split (s : List UInt8) : ∃ before after, s = before ++ trim s ++ after ∧
    before.all blank = true ∧ after.all blank = true ∧ (trim s = [] → after = []) := by
  refine ⟨s.takeWhile blank, (s.dropWhile blank).rtakeWhile blank, ?_, List.all_takeWhile, ?_, fun hempty => ?_⟩
  · rw [List.append_assoc, trim, List.rdropWhile_append_rtakeWhile, List.takeWhile_append_dropWhile]
  · rw [List.rtakeWhile, List.all_reverse]
    exact List.all_takeWhile
  · have hall : ∀ c ∈ s.dropWhile blank, blank c = true := List.rdropWhile_eq_nil_iff.mp hempty
    have hnil : s.dropWhile blank = [] := by
      rw [← dropWhile_dropWhile]
      exact List.dropWhile_eq_nil_iff.mpr hall
    rw [hnil]
    rfl

end Trim

end Bytes

section Lines

/-- The field may follow those that have been counted. -/
structure Field.Allowed (f : Field) (h : Headers) : Prop where
  host : f.Named "host" → h.hosts = 0 ∧ f.value ≠ []
  length : f.Named "content-length" → h.lengths = 0 ∧ ∃ n, fromChars f.value = some n
  transfer : ¬ f.Named "transfer-encoding"

def Field.count (f : Field) (h : Headers) : Headers where
  hosts := if f.Named "host" then h.hosts + 1 else h.hosts
  lengths := if f.Named "content-length" then h.lengths + 1 else h.lengths
  requestBody := h.requestBody || f.Named "content-length" && Decimal.value f.value ≠ 0
  connection :=
    if f.Named "connection" then
      if h.connection = [] then f.value else h.connection ++ [44] ++ f.value
    else h.connection

theorem fromChars_nil : fromChars [] = none := rfl

theorem fromChars_value {s : List UInt8} {n : ℕ} (h : fromChars s = some n) : n = Decimal.value s := by
  unfold fromChars at h
  split at h
  · exact (Option.some.inj h).symm
  · cases h

theorem Field.Plain.find_colon {f : Field} (h : f.Plain) : find [58] f.text = some f.name.length := by
  have hclear : Clear [58] f.name := clear_of_notMem (token_notMem h.name (.inr rfl)) (by simp)
  rw [Field.text, List.append_assoc]
  exact hclear.find (by simp) _

/-- What the line of a field does, by the name of the field. -/
theorem headerLine_eq {f : Field} (hf : f.Plain) (h : Headers) : headerLine f.text h =
    if f.Named "host" then
      if h.hosts + 1 ≠ 1 ∨ f.value = [] then .error 400 else .ok { h with hosts := h.hosts + 1 }
    else if f.Named "content-length" then
      if h.lengths + 1 ≠ 1 ∨ f.value = [] then .error 400
      else match fromChars f.value with
        | none => .error 400
        | some length => .ok { h with
            lengths := h.lengths + 1
            requestBody := h.requestBody || length ≠ 0 }
    else if f.Named "transfer-encoding" then .error 501
    else if f.Named "connection" then
      .ok { h with connection :=
        (if h.connection = [] then f.value else h.connection ++ [44] ++ f.value) }
    else .ok h := by
  have hname : f.text.take f.name.length = f.name := by simp [Field.text]
  have hvalue : trim (f.text.drop (f.name.length + 1)) = f.value := by
    rw [← hf.trim_eq, Field.text, ← List.drop_drop, List.append_assoc, List.drop_left]
    rfl
  have hprinted : f.value.any (fun c => c = 13 || c = 10 || (c < 32 && c ≠ 9)) = false := by
    rw [List.any_eq_false]
    intro c hc
    rcases hf.printed c hc with hle | rfl
    · have hne (k : UInt8) (hk : k < 32) : c ≠ k := fun heq => absurd (heq ▸ hle) (UInt8.not_le.mpr hk)
      have hnot : ¬ c < 32 := UInt8.not_lt.mpr hle
      simp [hne 13 (by decide), hne 10 (by decide), hnot]
    · decide
  unfold headerLine
  rw [hf.find_colon]
  dsimp only
  rw [hname, hvalue, hf.name, hprinted]
  rfl

/-- The names that the parser knows are different. -/
theorem Field.named_unique {f : Field} {n m : String} (hn : f.Named n) (hm : f.Named m) :
    ascii n = ascii m := hn.symm.trans hm

theorem headerLine_text {f : Field} (hf : f.Plain) (h h' : Headers) :
    headerLine f.text h = .ok h' ↔ f.Allowed h ∧ h' = f.count h := by
  have hnot (n m : String) (hn : f.Named n) (hne : ascii n ≠ ascii m) : ¬ f.Named m :=
    fun hm => hne (Field.named_unique hn hm)
  rw [headerLine_eq hf]
  by_cases hhost : f.Named "host"
  · have hlength := hnot "host" "content-length" hhost (by decide)
    have hconnection := hnot "host" "connection" hhost (by decide)
    have hcount : f.count h = { h with hosts := h.hosts + 1 } := by
      simp [Field.count, hhost, hlength, hconnection]
    rw [if_pos hhost, hcount]
    split
    · rename_i hbad
      refine ⟨fun heq => (by cases heq), fun ⟨hallowed, _⟩ => ?_⟩
      obtain ⟨hzero, hne⟩ := hallowed.host hhost
      rw [hzero] at hbad
      simp [hne] at hbad
    · rename_i hgood
      rw [not_or, ne_eq, not_not] at hgood
      have hallowed : f.Allowed h := ⟨fun _ => ⟨by omega, hgood.2⟩, fun hl => absurd hl hlength,
        hnot "host" "transfer-encoding" hhost (by decide)⟩
      simp [hallowed, eq_comm]
  rw [if_neg hhost]
  by_cases hlength : f.Named "content-length"
  · have hconnection := hnot "content-length" "connection" hlength (by decide)
    rw [if_pos hlength]
    split
    · rename_i hbad
      refine ⟨fun heq => (by cases heq), fun ⟨hallowed, _⟩ => ?_⟩
      obtain ⟨hzero, n, hn⟩ := hallowed.length hlength
      rw [hzero] at hbad
      rw [show f.value = [] by simpa using hbad, fromChars_nil] at hn
      cases hn
    · rename_i hgood
      rw [not_or, ne_eq, not_not] at hgood
      split
      · rename_i hnone
        refine ⟨fun heq => (by cases heq), fun ⟨hallowed, _⟩ => ?_⟩
        obtain ⟨-, n, hn⟩ := hallowed.length hlength
        rw [hnone] at hn
        cases hn
      · rename_i n hn
        have hallowed : f.Allowed h := ⟨fun hh => absurd hh hhost, fun _ => ⟨by omega, n, hn⟩,
          hnot "content-length" "transfer-encoding" hlength (by decide)⟩
        have hcount : f.count h = { h with
            lengths := h.lengths + 1
            requestBody := h.requestBody || n ≠ 0 } := by
          simp [Field.count, hhost, hlength, hconnection, fromChars_value hn]
        simp [hallowed, hcount, eq_comm]
  rw [if_neg hlength]
  by_cases htransfer : f.Named "transfer-encoding"
  · rw [if_pos htransfer]
    exact ⟨fun heq => (by cases heq), fun ⟨hallowed, _⟩ => absurd htransfer hallowed.transfer⟩
  rw [if_neg htransfer]
  have hallowed : f.Allowed h :=
    ⟨fun hh => absurd hh hhost, fun hl => absurd hl hlength, htransfer⟩
  by_cases hconnection : f.Named "connection"
  · simp [hallowed, Field.count, hhost, hlength, hconnection, eq_comm]
  · have hcount : f.count h = h := by
      simp [Field.count, hhost, hlength, hconnection]
    simp [hallowed, hcount, hconnection, eq_comm]

/-- A line that is accepted is the text of a field. -/
theorem headerLine_field {line : List UInt8} {h h' : Headers} (hline : headerLine line h = .ok h') :
    ∃ f : Field, f.Plain ∧ line = f.text := by
  unfold headerLine at hline
  split at hline
  · cases hline
  rename_i colon hcolon
  have hsplit := (find_eq_some.mp hcolon).split
  by_cases hname : tokenName (line.take colon) = true
  · rw [hname] at hline
    dsimp only at hline
    generalize hrest : line.drop (colon + 1) = rest at hline
    obtain ⟨before, after, hparts, hbefore, hafter, hempty⟩ := trim_split rest
    by_cases hbad : (trim rest).any (fun c => c = 13 || c = 10 || (c < 32 && c ≠ 9)) = true
    · rw [if_neg (by simp), if_pos hbad] at hline
      cases hline
    · refine ⟨⟨line.take colon, before, trim rest, after⟩, ⟨hname, hbefore, hafter, trim_trim rest, hempty,
        fun c hc => ?_⟩, ?_⟩
      · have hgood : ¬ (c < 32 ∧ c ≠ 9) := fun hboth =>
          hbad (List.any_eq_true.mpr ⟨c, hc, by simp [hboth.1, hboth.2]⟩)
        rw [not_and_or, not_not, UInt8.not_lt] at hgood
        exact hgood
      · calc line = line.take colon ++ [58] ++ line.drop (colon + 1) := hsplit
          _ = line.take colon ++ [58] ++ (before ++ trim rest ++ after) := by rw [hrest, ← hparts]
  · rw [Bool.not_eq_true] at hname
    rw [hname] at hline
    cases hline

/-- No field breaks a line. -/
theorem Field.Plain.oneLine {f : Field} (h : f.Plain) : Clear crlf f.text := by
  have hblank {s : List UInt8} (hs : s.all blank = true) : 13 ∉ s := fun hmem => by
    rcases all_blank_iff.mp hs 13 hmem with heq | heq <;> cases heq
  have hname := token_notMem h.name (c := 13) (.inl (by decide))
  have hvalue : 13 ∉ f.value := fun hmem => by
    rcases h.printed 13 hmem with hle | heq
    · exact absurd hle (by decide)
    · cases heq
  have hnot : 13 ∉ f.text := by
    simp [Field.text, hname, hvalue, hblank h.before, hblank h.after]
  exact clear_of_notMem hnot (by decide)

/-- All fields may follow each other. -/
def Admitted : List Field → Headers → Prop
  | [], _ => True
  | f :: fields, h => f.Allowed h ∧ Admitted fields (f.count h)

def counted (fields : List Field) (h : Headers) : Headers := fields.foldl (fun h f => f.count h) h

theorem headerLines_text {fields : List Field} (hfields : ∀ f ∈ fields, f.Plain) (extra : List UInt8)
    (h h' : Headers) {fuel : ℕ} (hfuel : (Request.lines fields).length < fuel) :
    headerLines fuel (Request.lines fields ++ (crlf ++ extra)) h = .ok h' ↔
      Admitted fields h ∧ h' = counted fields h := by
  induction fields generalizing fuel h with
  | nil =>
    cases fuel with
    | zero => simp at hfuel
    | succ fuel =>
      have hclear : Clear crlf [] := rfl
      have hstart : find crlf (crlf ++ extra) = some 0 := hclear.find (by decide) extra
      have hok : headerLines (fuel + 1) (Request.lines [] ++ (crlf ++ extra)) h = .ok h := by
        unfold headerLines
        split
        · rfl
        · rw [Request.lines, List.flatMap_nil, List.nil_append, hstart]
          simp [crlf]
      rw [hok]
      simp [Admitted, counted, eq_comm]
  | cons f fields ih =>
    cases fuel with
    | zero => simp at hfuel
    | succ fuel =>
      have hf := hfields f List.mem_cons_self
      have htext : Request.lines (f :: fields) ++ (crlf ++ extra) =
          f.text ++ (crlf ++ (Request.lines fields ++ (crlf ++ extra))) := by
        simp [Request.lines]
      have hfirst := hf.oneLine.find (by decide) (Request.lines fields ++ (crlf ++ extra))
      have hlong : ¬ (f.text ++ (crlf ++ (Request.lines fields ++ (crlf ++ extra)))).length ≤ 2 := by
        simp [Field.text, crlf]
        omega
      have hroom : ¬ (f.text ++ (crlf ++ (Request.lines fields ++ (crlf ++ extra)))).length <
          f.text.length + 2 := by
        simp [crlf]
      have hrest : (f.text ++ (crlf ++ (Request.lines fields ++ (crlf ++ extra)))).drop
          (f.text.length + 2) = Request.lines fields ++ (crlf ++ extra) := by
        rw [← List.drop_drop, List.drop_left]
        rfl
      have hne : f.text ≠ [] := by simp [Field.text]
      rw [htext, headerLines, if_neg hlong, hfirst]
      dsimp only
      rw [if_neg hroom, List.take_left, if_neg hne, hrest]
      have hfuel' : (Request.lines fields).length < fuel := by
        have hcrlf : crlf.length = 2 := rfl
        simp [Request.lines] at hfuel ⊢
        omega
      have hih := fun g => ih (fun f' hf' => hfields f' (List.mem_cons_of_mem _ hf')) g hfuel'
      cases hline : headerLine f.text h with
      | error e =>
        have hnot : ¬ f.Allowed h := fun hallowed => by
          have hok := (headerLine_text hf h _).mpr ⟨hallowed, rfl⟩
          rw [hline] at hok
          cases hok
        exact ⟨fun heq => (by cases heq), fun ⟨hadmitted, _⟩ => absurd hadmitted.1 hnot⟩
      | ok g =>
        obtain ⟨hallowed, rfl⟩ := (headerLine_text hf h g).mp hline
        refine (hih _).trans ?_
        simp only [Admitted, hallowed, true_and, counted, List.foldl_cons]

/-- What follows the first line of a text that ends in a blank line. -/
def Ends (rest : List UInt8) : Prop := rest = crlf ∨ blankLine <:+ rest

theorem Ends.drop {rest : List UInt8} {stop : ℕ} (h : Ends rest) (hlong : 2 < rest.length)
    (hstop : find crlf rest = some stop) : Ends (rest.drop (stop + 2)) := by
  rcases h with rfl | ⟨front, rfl⟩
  · exact absurd hlong (by decide)
  obtain ⟨hoccurs, hleast⟩ := find_eq_some.mp hstop
  have hlast : crlf <+: (front ++ blankLine).drop front.length := by
    rw [List.drop_left]
    exact ⟨crlf, rfl⟩
  have hle : stop ≤ front.length := by
    by_contra hlt
    exact hleast front.length (Nat.lt_of_not_le hlt) hlast
  rcases Nat.lt_or_ge front.length (stop + 2) with hlt | hge
  · rcases Nat.lt_or_ge stop front.length with hbefore | hat
    · -- the line break would begin inside the blank line
      exfalso
      have hsingle : (front.drop stop).length = 1 := by rw [List.length_drop]; omega
      obtain ⟨c, hc⟩ := List.length_eq_one_iff.mp hsingle
      rw [List.drop_append_of_le_length hle, hc] at hoccurs
      obtain ⟨more, hmore⟩ := hoccurs
      simp [crlf, blankLine] at hmore
    · obtain rfl : stop = front.length := Nat.le_antisymm hle hat
      left
      rw [← List.drop_drop, List.drop_left]
      rfl
  · right
    rw [List.drop_append_of_le_length hge]
    exact List.suffix_append _ _

theorem headerLines_fields {fuel : ℕ} {rest : List UInt8} {h h' : Headers} (hends : Ends rest)
    (hfuel : rest.length ≤ fuel) (hok : headerLines fuel rest h = .ok h') :
    ∃ fields extra, (∀ f ∈ fields, f.Plain) ∧ rest = Request.lines fields ++ (crlf ++ extra) := by
  induction fuel generalizing rest h with
  | zero =>
    obtain rfl : rest = [] := List.length_eq_zero_iff.mp (Nat.le_zero.mp hfuel)
    rcases hends with hends | hends
    · cases hends
    · exact absurd hends.length_le (by decide)
  | succ fuel ih =>
    unfold headerLines at hok
    split at hok
    · rename_i hshort
      rcases hends with rfl | hends
      · exact ⟨[], [], by simp, rfl⟩
      · have hle := hends.length_le
        simp only [blankLine, List.length_cons, List.length_nil] at hle
        omega
    · rename_i hlong
      split at hok
      · cases hok
      rename_i stop hstop
      have hsplit := (find_eq_some.mp hstop).split
      split at hok
      · cases hok
      split at hok
      · rename_i hempty
        refine ⟨[], rest.drop (stop + 2), by simp, ?_⟩
        rw [hempty] at hsplit
        exact hsplit
      · split at hok
        · cases hok
        rename_i g hline
        obtain ⟨f, hf, htext⟩ := headerLine_field hline
        have hnext := hends.drop (Nat.lt_of_not_le hlong) hstop
        have hless : (rest.drop (stop + 2)).length ≤ fuel := by
          rw [List.length_drop]
          omega
        obtain ⟨fields, extra, hplain, hrest⟩ := ih hnext hless hok
        refine ⟨f :: fields, extra, List.forall_mem_cons.mpr ⟨hf, hplain⟩, ?_⟩
        calc rest = rest.take stop ++ crlf ++ rest.drop (stop + 2) := hsplit
          _ = f.text ++ crlf ++ (Request.lines fields ++ (crlf ++ extra)) := by rw [htext, hrest]
          _ = Request.lines (f :: fields) ++ (crlf ++ extra) := by simp [Request.lines]

end Lines

section Counting

variable {fields : List Field} {h : Headers}

theorem named_cons (n : String) (f : Field) (fields : List Field) :
    named n (f :: fields) = if f.Named n then f :: named n fields else named n fields := by
  rw [named, List.filter_cons]
  simp only [decide_eq_true_eq]
  rfl

theorem forall_named_cons {n : String} {f : Field} {P : Field → Prop} :
    (∀ g ∈ named n (f :: fields), P g) ↔ (f.Named n → P f) ∧ ∀ g ∈ named n fields, P g := by
  rw [named_cons]
  split
  · rename_i hn
    simp [hn]
  · rename_i hn
    simp [hn]

/-- After `k` fields of the name there is at most one in all. -/
def AtMostOne (n : String) (k : ℕ) (fields : List Field) : Prop :=
  named n fields = [] ∨ k + (named n fields).length ≤ 1

theorem atMostOne_cons {n : String} {k : ℕ} {f : Field} : AtMostOne n k (f :: fields) ↔
    (f.Named n → k = 0) ∧ AtMostOne n (if f.Named n then k + 1 else k) fields := by
  unfold AtMostOne
  rw [named_cons]
  split
  · rename_i hn
    have hnil : named n fields = [] ↔ (named n fields).length = 0 := List.length_eq_zero_iff.symm
    rw [hnil, List.length_cons]
    simp only [hn, reduceCtorEq, false_or, forall_const]
    omega
  · rename_i hn
    simp only [hn, false_imp_iff, true_and]

/-- What is asked of the fields of one name, all of them together. -/
theorem admitted_iff (fields : List Field) (h : Headers) : Admitted fields h ↔
    (AtMostOne "host" h.hosts fields ∧ ∀ f ∈ named "host" fields, f.value ≠ []) ∧
    (AtMostOne "content-length" h.lengths fields ∧
      ∀ f ∈ named "content-length" fields, ∃ n, fromChars f.value = some n) ∧
    named "transfer-encoding" fields = [] := by
  induction fields generalizing h with
  | nil => simp [Admitted, AtMostOne, named]
  | cons f fields ih =>
    have hhosts : (f.count h).hosts = if f.Named "host" then h.hosts + 1 else h.hosts := rfl
    have hlengths : (f.count h).lengths =
      if f.Named "content-length" then h.lengths + 1 else h.lengths := rfl
    have hallowed : f.Allowed h ↔ (f.Named "host" → h.hosts = 0 ∧ f.value ≠ []) ∧
        (f.Named "content-length" → h.lengths = 0 ∧ ∃ n, fromChars f.value = some n) ∧
        ¬ f.Named "transfer-encoding" :=
      ⟨fun ⟨a, b, c⟩ => ⟨a, b, c⟩, fun ⟨a, b, c⟩ => ⟨a, b, c⟩⟩
    have htransfer : named "transfer-encoding" (f :: fields) = [] ↔
        ¬ f.Named "transfer-encoding" ∧ named "transfer-encoding" fields = [] := by
      rw [named_cons]
      split
      · rename_i hn
        simp [hn]
      · rename_i hn
        simp [hn]
    rw [Admitted, ih, hhosts, hlengths, hallowed, atMostOne_cons, atMostOne_cons, forall_named_cons,
      forall_named_cons, htransfer, imp_and, imp_and]
    exact iff_of_eq (by ac_rfl)

theorem counted_hosts (fields : List Field) (h : Headers) :
    (counted fields h).hosts = h.hosts + (named "host" fields).length := by
  induction fields generalizing h with
  | nil => rfl
  | cons f fields ih =>
    have hfirst : (f.count h).hosts = if f.Named "host" then h.hosts + 1 else h.hosts := rfl
    rw [counted, List.foldl_cons, ← counted, ih, hfirst, named_cons]
    split
    · rw [List.length_cons]
      omega
    · rfl

theorem counted_body (fields : List Field) (h : Headers) : (counted fields h).requestBody =
    (h.requestBody || (named "content-length" fields).any fun f => Decimal.value f.value ≠ 0) := by
  induction fields generalizing h with
  | nil => simp [counted, named]
  | cons f fields ih =>
    have hfirst : (f.count h).requestBody =
      (h.requestBody || f.Named "content-length" && Decimal.value f.value ≠ 0) := rfl
    rw [counted, List.foldl_cons, ← counted, ih, hfirst, named_cons]
    split
    · rename_i hn
      simp [hn, Bool.or_assoc]
    · rename_i hn
      simp [hn]

theorem containsToken_nil {token : List UInt8} (h : token ≠ []) : containsToken [] token = false := by
  simpa [containsToken, trim, lower] using h.symm

/-- Joining two lists of items joins their tokens. -/
theorem containsToken_join (s t : List UInt8) {token : List UInt8} (h : token ≠ []) :
    containsToken (if s = [] then t else s ++ [44] ++ t) token =
      (containsToken s token || containsToken t token) := by
  split
  · rename_i hs
    rw [hs, containsToken_nil h, Bool.false_or]
  · rw [containsToken, List.append_assoc, List.singleton_append, List.splitOn_append_cons_self,
      List.any_append]
    rfl

theorem counted_connection (fields : List Field) (h : Headers) {token : List UInt8} (ht : token ≠ []) :
    containsToken (counted fields h).connection token = (containsToken h.connection token ||
      (named "connection" fields).any fun f => containsToken f.value token) := by
  induction fields generalizing h with
  | nil => simp [counted, named]
  | cons f fields ih =>
    have hfirst : (f.count h).connection = if f.Named "connection" then
      (if h.connection = [] then f.value else h.connection ++ [44] ++ f.value) else h.connection := rfl
    rw [counted, List.foldl_cons, ← counted, ih, hfirst, named_cons]
    split
    · rw [containsToken_join _ _ ht, List.any_cons, Bool.or_assoc]
    · rfl

end Counting

section Start

theorem startLine_split {start method target version : List UInt8}
    (hok : startLine start = .ok (method, target, version)) :
    start = method ++ [32] ++ (target ++ [32] ++ version) ∧ tokenName method = true ∧
      target.head? = some 47 ∧ 35 ∉ target ∧ 32 ∉ target ∧
      (version = ascii "HTTP/1.1" ∨ version = ascii "HTTP/1.0") := by
  unfold startLine at hok
  split at hok
  · cases hok
  rename_i sp1 hsp1
  dsimp only at hok
  split at hok
  · cases hok
  rename_i n hn
  have hfirst := (find_eq_some.mp hsp1).split
  have hsecond := (find_eq_some.mp hn).split
  split at hok
  · cases hok
  split at hok
  · cases hok
  rename_i hparts
  split at hok
  · cases hok
  rename_i hversion
  obtain ⟨rfl, rfl, rfl⟩ : _ = method ∧ _ = target ∧ _ = version := by
    simpa only [Except.ok.injEq, Prod.mk.injEq] using hok
  simp only [Bool.or_eq_true, not_or, Bool.not_eq_true, Bool.not_eq_false', List.isEmpty_eq_false_iff,
    decide_eq_true_eq, not_not, List.contains_eq_mem] at hparts
  obtain ⟨⟨⟨⟨hmethod, -⟩, hhead⟩, hfragment⟩, hspace⟩ := hparts
  refine ⟨?_, hmethod, by simpa using hhead, hfragment, hspace, ?_⟩
  · exact hfirst.trans (congr_arg _ hsecond)
  · by_contra hboth
    exact hversion (not_or.mp hboth)

theorem startLine_parts {method target version : List UInt8} (hmethod : tokenName method = true)
    (hhead : target.head? = some 47) (hfragment : 35 ∉ target) (hspace : 32 ∉ target)
    (hversion : version = ascii "HTTP/1.1" ∨ version = ascii "HTTP/1.0") :
    startLine (method ++ [32] ++ (target ++ [32] ++ version)) = .ok (method, target, version) := by
  have hclear : Clear [32] method :=
    clear_of_notMem (token_notMem hmethod (.inl (by decide))) (by simp)
  have hclear' : Clear [32] target := clear_of_notMem hspace (by simp)
  have htarget : target ≠ [] := by
    rintro rfl
    cases hhead
  have hmethodPos := List.length_pos_iff.mpr (token_ne_nil hmethod)
  have htargetPos := List.length_pos_iff.mpr htarget
  have hsp1 : find [32] (method ++ [32] ++ (target ++ [32] ++ version)) = some method.length := by
    rw [List.append_assoc]
    exact hclear.find (by simp) _
  have hrest : (method ++ [32] ++ (target ++ [32] ++ version)).drop (method.length + 1) =
      target ++ [32] ++ version := by
    rw [← List.drop_drop, List.append_assoc, List.drop_left]
    rfl
  have hn : find [32] (target ++ [32] ++ version) = some target.length := by
    rw [List.append_assoc]
    exact hclear'.find (by simp) _
  have hlast : (target ++ [32] ++ version).drop (target.length + 1) = version := by
    rw [← List.drop_drop, List.append_assoc, List.drop_left]
    rfl
  have hno : find [32] version = none ∧ version ≠ [] := by
    rcases hversion with rfl | rfl <;> decide
  unfold startLine
  rw [hsp1]
  dsimp only
  rw [hrest, hn]
  dsimp only
  have hplaces : ¬ (find [32] version ≠ none ∨ method.length = 0 ∨ target.length = 0 ∨ version = []) := by
    rintro (hsome | hzero | hzero | hnil)
    · exact hsome hno.1
    · omega
    · omega
    · exact hno.2 hnil
  rw [hlast, if_neg hplaces]
  have htake : (method ++ [32] ++ (target ++ [32] ++ version)).take method.length = method := by simp
  have htake' : (target ++ [32] ++ version).take target.length = target := by simp
  rw [htake, htake', if_neg (by simp [hmethod, htarget, hhead, hfragment, hspace])]
  rw [if_neg (by rcases hversion with rfl | rfl <;> decide)]

theorem startLine_ok {start method target version : List UInt8} :
    startLine start = .ok (method, target, version) ↔
      start = method ++ [32] ++ (target ++ [32] ++ version) ∧ tokenName method = true ∧
        target.head? = some 47 ∧ 35 ∉ target ∧ 32 ∉ target ∧
        (version = ascii "HTTP/1.1" ∨ version = ascii "HTTP/1.0") := by
  constructor
  · exact startLine_split
  · rintro ⟨rfl, hmethod, hhead, hfragment, hspace, hversion⟩
    exact startLine_parts hmethod hhead hfragment hspace hversion

namespace Request

variable {r : Request}

def start (r : Request) : List UInt8 := r.method ++ [32] ++ (r.target ++ [32] ++ r.version)

theorem tokenName_method (r : Request) : tokenName r.method = true := by
  unfold method
  split <;> decide

theorem version_cases (r : Request) : r.version = ascii "HTTP/1.1" ∨ r.version = ascii "HTTP/1.0" := by
  unfold version
  split
  · exact .inr rfl
  · exact .inl rfl

theorem WellFormed.startLine (h : r.WellFormed) :
    Http.startLine r.start = .ok (r.method, r.target, r.version) :=
  startLine_ok.mpr ⟨rfl, r.tokenName_method, h.absolute, h.noFragment, h.noSpace, r.version_cases⟩

theorem WellFormed.clear_start (h : r.WellFormed) : Clear crlf r.start := by
  refine clear_of_not_within (by simp) fun hin => ?_
  have habsent {s : List UInt8} (hs : 13 ∉ s) : ¬ crlf <:+: s := fun hin =>
    hs (hin.subset List.mem_cons_self)
  have hmethod : 13 ∉ r.method := token_notMem r.tokenName_method (.inl (by decide))
  have hversion : 13 ∉ r.version := by
    rcases r.version_cases with heq | heq <;> rw [heq] <;> decide
  rw [start, List.append_assoc, List.singleton_append] at hin
  rcases infix_append_cons (by decide) hin with hin | hin
  · exact habsent hmethod hin
  · rw [List.append_assoc, List.singleton_append] at hin
    rcases infix_append_cons (by decide) hin with hin | hin
    · exact h.oneLine hin
    · exact habsent hversion hin

end Request

theorem value_eq_zero {s : List UInt8} (hdigits : s.all Decimal.isDigit = true) :
    Decimal.value s = 0 ↔ ∀ c ∈ s, c = 48 := by
  induction s using List.reverseRecOn with
  | nil => simp [Decimal.value, Decimal.valueFrom]
  | append_singleton s c ih =>
    rw [List.all_append, Bool.and_eq_true] at hdigits
    have hc : 48 ≤ c.toNat := by
      have hdigit : Decimal.isDigit c = true := by simpa using hdigits.2
      simp only [Decimal.isDigit, Bool.and_eq_true, decide_eq_true_eq, UInt8.le_iff_toNat_le] at hdigit
      exact hdigit.1
    have hzero : c = 48 ↔ c.toNat - 48 = 0 := by
      rw [← UInt8.toNat_inj]
      simp
      omega
    rw [Decimal.value_append, Nat.add_eq_zero_iff, List.forall_mem_append, List.forall_mem_singleton,
      hzero, ← ih hdigits.1]
    omega

/-- A length of zero is written with zeros. -/
theorem fromChars_zero {s : List UInt8} :
    ((∃ n, fromChars s = some n) ∧ Decimal.value s = 0) ↔ s ≠ [] ∧ ∀ c ∈ s, c = 48 := by
  constructor
  · rintro ⟨⟨n, hn⟩, hzero⟩
    unfold fromChars at hn
    split at hn
    · rename_i hgood
      exact ⟨hgood.1, (value_eq_zero hgood.2.1).mp hzero⟩
    · cases hn
  · rintro ⟨hne, hall⟩
    have hdigits : s.all Decimal.isDigit = true := by
      rw [List.all_eq_true]
      intro c hc
      rw [hall c hc]
      rfl
    have hzero := (value_eq_zero hdigits).mpr hall
    exact ⟨⟨0, by simp [fromChars, hne, hdigits, hzero]⟩, hzero⟩

end Start

namespace Request

variable {r : Request} {extra : List UInt8}

theorem text_eq (r : Request) (extra : List UInt8) :
    r.text ++ extra = r.start ++ (crlf ++ (lines r.fields ++ (crlf ++ extra))) := by
  simp [text, start]

theorem WellFormed.admitted (h : r.WellFormed) : Admitted r.fields {} := by
  refine (admitted_iff _ _).mpr ⟨⟨.inr (by simpa using h.hosts), h.host⟩,
    ⟨.inr (by simpa using h.lengths), fun f hf => ?_⟩, h.noTransfer⟩
  exact (fromChars_zero.mpr (h.length f hf)).1

theorem WellFormed.counted_body (h : r.WellFormed) : (counted r.fields {}).requestBody = false := by
  rw [Http.counted_body, Bool.false_or, List.any_eq_false]
  intro f hf
  simp [(fromChars_zero.mpr (h.length f hf)).2]

theorem counted_token (r : Request) {token : String} (ht : ascii token ≠ []) :
    containsToken (counted r.fields {}).connection (ascii token) = r.hasToken token := by
  rw [counted_connection _ _ ht, containsToken_nil ht, Bool.false_or]
  rfl

theorem WellFormed.counted_hosts (h : r.WellFormed) (hversion : r.http10 = false) :
    (counted r.fields {}).hosts = 1 := by
  have hpos := List.length_pos_iff.mpr (h.hostNeeded hversion)
  have hle := h.hosts
  rw [Http.counted_hosts]
  show 0 + _ = 1
  omega

end Request

/-- A request stands at the beginning of the text, which ends in a blank line and has
no bare controls anywhere. -/
structure Stands (r : Request) (extra raw : List UInt8) : Prop where
  wellFormed : r.WellFormed
  text : raw = r.text ++ extra
  ends : blankLine <:+ raw
  plain : ∀ c ∈ raw, bareControl c = false

theorem blankLine_suffix {raw : List UInt8} :
    blankLine <:+ raw ↔ ¬ (raw.length < 4 ∨ raw.drop (raw.length - 4) ≠ blankLine) := by
  rw [not_or, not_lt, ne_eq, not_not]
  constructor
  · rintro ⟨front, rfl⟩
    simp [blankLine]
  · rintro ⟨-, hdrop⟩
    exact hdrop ▸ List.drop_suffix _ _

theorem parse_stands {r : Request} {extra raw : List UInt8} (h : Stands r extra raw) :
    parse raw = r.parsed := by
  obtain ⟨hr, rfl, hends, hplain⟩ := h
  have hcontrol : ¬ (r.text ++ extra).any bareControl = true := by
    rw [Bool.not_eq_true, List.any_eq_false]
    exact fun c hc => by simp [hplain c hc]
  have hfirst : find crlf (r.text ++ extra) = some r.start.length := by
    rw [Request.text_eq]
    exact hr.clear_start.find (by decide) _
  have htake : (r.text ++ extra).take r.start.length = r.start := by
    rw [Request.text_eq, List.take_left]
  have hrest : (r.text ++ extra).drop (r.start.length + 2) =
      Request.lines r.fields ++ (crlf ++ extra) := by
    rw [Request.text_eq, ← List.drop_drop, List.drop_left]
    rfl
  have hfuel : (Request.lines r.fields).length < (r.text ++ extra).length := by
    have hpos : 0 < crlf.length := by decide
    rw [Request.text_eq]
    simp only [List.length_append]
    omega
  have hlines := (headerLines_text hr.fields extra {} _ hfuel).mpr ⟨hr.admitted, rfl⟩
  have hmethod : r.method = ascii "HEAD" ↔ r.head = true := by
    unfold Request.method
    cases r.head <;> decide
  have hknown : ¬ (r.method ≠ ascii "GET" ∧ r.method ≠ ascii "HEAD") := by
    unfold Request.method
    cases r.head <;> decide
  have hversion : r.version = ascii "HTTP/1.1" ↔ r.http10 = false := by
    unfold Request.version
    cases r.http10 <;> decide
  unfold parse
  rw [if_neg (blankLine_suffix.mp hends), if_neg hcontrol, hfirst]
  dsimp only
  rw [htake, hr.startLine]
  dsimp only
  rw [hrest, hlines]
  dsimp only
  rw [r.counted_token (by decide), r.counted_token (by decide), hr.counted_body, if_neg hknown,
    if_neg (by rw [hversion]; exact fun hboth => hboth.2 (hr.counted_hosts hboth.1))]
  have hclose : (!decide (r.version = ascii "HTTP/1.1")) = r.http10 := by
    cases hten : r.http10 <;> simp [hversion, hten]
  have hhead : decide (r.method = ascii "HEAD") = r.head := by
    cases hhead : r.head <;> simp [hmethod, hhead]
  rw [if_neg Bool.false_ne_true, hclose, hhead, Request.parsed, Request.closes]
  split
  · rfl
  · split <;> rfl

/-- The error statuses that the parser gives. -/
def refusals : List ℕ := [400, 405, 413, 501, 505]

theorem startLine_error {start : List UInt8} {e : ℕ} (h : startLine start = .error e) : e ∈ refusals := by
  unfold startLine at h
  dsimp only at h
  repeat' split at h
  all_goals
    cases h
    try decide

theorem headerLine_error {line : List UInt8} {h : Headers} {e : ℕ} (hline : headerLine line h = .error e) :
    e ∈ refusals := by
  unfold headerLine at hline
  dsimp only at hline
  repeat' split at hline
  all_goals
    cases hline
    try decide

theorem headerLines_error {fuel : ℕ} {rest : List UInt8} {h : Headers} {e : ℕ}
    (hlines : headerLines fuel rest h = .error e) : e ∈ refusals := by
  induction fuel generalizing rest h with
  | zero => cases hlines
  | succ fuel ih =>
    unfold headerLines at hlines
    split at hlines
    · cases hlines
    split at hlines
    · cases hlines
      decide
    split at hlines
    · cases hlines
      decide
    split at hlines
    · cases hlines
    split at hlines
    · rename_i hline
      cases hlines
      exact headerLine_error hline
    · exact ih hlines

theorem refusals_range : ∀ e ∈ refusals, 400 ≤ e := by decide

theorem parse_error (raw : List UInt8) : (parse raw).error = 0 ∨ (parse raw).error ∈ refusals := by
  unfold parse
  split
  · exact .inr (by decide)
  split
  · exact .inr (by decide)
  split
  · exact .inr (by decide)
  split
  · exact .inr (startLine_error ‹_›)
  dsimp only
  split
  · exact .inr (headerLines_error ‹_›)
  split
  · exact .inr (show 400 ∈ refusals by decide)
  split
  · exact .inr (show 413 ∈ refusals by decide)
  split
  · exact .inr (show 405 ∈ refusals by decide)
  left
  split
  · rfl
  · split <;> rfl

/-- What the parser has found where it does not refuse. -/
theorem parse_ok {raw : List UInt8} (h : (parse raw).error = 0) :
    ∃ firstEnd method target version headers, blankLine <:+ raw ∧ ¬raw.any bareControl = true ∧
      find crlf raw = some firstEnd ∧ startLine (raw.take firstEnd) = .ok (method, target, version) ∧
      headerLines raw.length (raw.drop (firstEnd + 2)) {} = .ok headers ∧
      ¬(version = ascii "HTTP/1.1" ∧ headers.hosts ≠ 1) ∧ ¬headers.requestBody = true ∧
      ¬(method ≠ ascii "GET" ∧ method ≠ ascii "HEAD") := by
  unfold parse at h
  split at h
  · cases h
  rename_i hends
  rw [← blankLine_suffix] at hends
  split at h
  · cases h
  rename_i hcontrol
  split at h
  · cases h
  rename_i firstEnd hfirst
  split at h
  · rename_i hstart
    have hstatus := refusals_range _ (startLine_error hstart)
    dsimp only at h
    omega
  rename_i method target version hstart
  dsimp only at h
  split at h
  · rename_i hlines
    have hstatus := refusals_range _ (headerLines_error hlines)
    dsimp only at h
    omega
  rename_i headers hlines
  split at h
  · cases h
  rename_i hhost
  split at h
  · cases h
  rename_i hbody
  split at h
  · cases h
  rename_i hmethod
  refine ⟨firstEnd, method, target, version, headers, hends, hcontrol, hfirst, hstart, hlines, ?_, hbody, hmethod⟩
  simpa using hhost

/-- A start line of a method that is served is that of a request. -/
theorem startLine_request {start method target version : List UInt8}
    (hstart : startLine start = .ok (method, target, version))
    (hmethod : ¬(method ≠ ascii "GET" ∧ method ≠ ascii "HEAD")) (fields : List Field) :
    Request.start ⟨method = ascii "HEAD", target, version = ascii "HTTP/1.0", fields⟩ = start := by
  obtain ⟨hparts, -, -, -, -, hversion⟩ := startLine_ok.mp hstart
  have hmethod' : Request.method ⟨method = ascii "HEAD", target, version = ascii "HTTP/1.0", fields⟩ = method := by
    simp only [Request.method, decide_eq_true_eq]
    split
    · rename_i heq
      exact heq.symm
    · rename_i hne
      by_contra hget
      exact hmethod ⟨fun heq => hget heq.symm, hne⟩
  have hversion' : Request.version ⟨method = ascii "HEAD", target, version = ascii "HTTP/1.0", fields⟩ =
      version := by
    simp only [Request.version, decide_eq_true_eq]
    split
    · rename_i heq
      exact heq.symm
    · rename_i hne
      exact (hversion.resolve_right hne).symm
  rw [hparts, Request.start, hmethod', hversion']

theorem parse_sound {raw : List UInt8} (h : (parse raw).error = 0) : ∃ r extra, Stands r extra raw := by
  obtain ⟨firstEnd, method, target, version, headers, hends, hcontrol, hfirst, hstart, hlines, hhost, hbody,
    hmethod⟩ := parse_ok h
  have hsplit := (find_eq_some.mp hfirst).split
  have hlong : 2 < raw.length := Nat.lt_of_lt_of_le (by decide) hends.length_le
  have hafter : Ends (raw.drop (firstEnd + 2)) := Ends.drop (.inr hends) hlong hfirst
  have hfuel : (raw.drop (firstEnd + 2)).length ≤ raw.length := by
    rw [List.length_drop]
    omega
  obtain ⟨fields, extra, hfields, hrest⟩ := headerLines_fields hafter hfuel hlines
  obtain ⟨hparts, -, habsolute, hfragment, hspace, hversion⟩ := startLine_ok.mp hstart
  let r : Request := ⟨method = ascii "HEAD", target, version = ascii "HTTP/1.0", fields⟩
  have htext : raw = r.text ++ extra := by
    rw [Request.text_eq, startLine_request hstart hmethod, ← hrest, ← List.append_assoc]
    exact hsplit
  rw [hrest] at hlines
  have hless : (Request.lines fields).length < raw.length := by
    have hpos : 0 < crlf.length := by decide
    rw [htext, Request.text_eq]
    simp only [List.length_append, r]
    omega
  obtain ⟨hadmitted, rfl⟩ := (headerLines_text hfields extra {} headers hless).mp hlines
  obtain ⟨⟨hhosts, hvalues⟩, ⟨hlengths, hnumbers⟩, htransfer⟩ := (admitted_iff _ _).mp hadmitted
  have hone {n : String} (h : AtMostOne n 0 fields) : (named n fields).length ≤ 1 := by
    rcases h with hnil | hle
    · simp [hnil]
    · omega
  refine ⟨r, extra, ⟨habsolute, hfragment, hspace, fun hin => ?_, hfields, hone hhosts, hvalues,
    fun hten => ?_, hone hlengths, fun f hf => ?_, htransfer⟩, htext, hends, fun c hc => ?_⟩
  · refine (clear_take hfirst (by decide)).not_within (by decide) (hin.trans ?_)
    rw [hparts]
    exact ⟨method ++ [32], [32] ++ version, by simp [r]⟩
  · have h11 : version = ascii "HTTP/1.1" := hversion.resolve_right (of_decide_eq_false hten)
    have hcount : (counted fields {}).hosts = 1 := by
      by_contra hne
      exact hhost ⟨h11, hne⟩
    rw [counted_hosts] at hcount
    intro hnil
    rw [hnil] at hcount
    cases hcount
  · refine fromChars_zero.mp ⟨hnumbers f hf, ?_⟩
    rw [counted_body, Bool.false_or, Bool.not_eq_true, List.any_eq_false] at hbody
    simpa using hbody f hf
  · rw [Bool.not_eq_true, List.any_eq_false] at hcontrol
    simpa using hcontrol c hc

/-- The parser accepts exactly the texts that begin with a well-formed request, and
says of them what the request says. -/
theorem parse_accepts (raw : List UInt8) (p : ParsedRequest) :
    parse raw = p ∧ p.error = 0 ↔ ∃ r extra, Stands r extra raw ∧ p = r.parsed := by
  constructor
  · rintro ⟨rfl, herror⟩
    obtain ⟨r, extra, h⟩ := parse_sound herror
    exact ⟨r, extra, h, parse_stands h⟩
  · rintro ⟨r, extra, h, rfl⟩
    exact ⟨parse_stands h, rfl⟩

end Aeon.Http
