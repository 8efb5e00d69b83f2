import Aeon.HttpPipelining

/-!
# Reading the responses back

A stream of responses tells a client by itself where each of them ends.
-/

namespace Aeon.Http

open Search Delimiter

namespace Response

/-- The lines of the header. -/
def lines (r : Response) : List (List UInt8) :=
  [(if r.http10 then ascii "HTTP/1.0 " else ascii "HTTP/1.1 ") ++
      (Decimal.text r.status ++ ([32] ++ reason r.status)),
    ascii "Content-Type: " ++ r.type,
    ascii "Content-Length: " ++ Decimal.text r.body.length,
    ascii "Connection: " ++ if r.close then ascii "close" else ascii "keep-alive"] ++
    if r.allowHeader then [ascii "Allow: GET, HEAD"] else []

/-- What follows the header. -/
def content (r : Response) : List UInt8 := if r.head then [] else r.body

theorem text_eq (r : Response) : r.text = block r.lines ++ r.content := by
  unfold text lines content block statusLine
  cases r.allowHeader <;> simp

/-- The responses that the server sends have one of few statuses and types. -/
structure Known (r : Response) : Prop where
  status : r.status ∈ [200, 404, 431] ++ refusals
  type : r.type ∈ [ascii "text/plain; charset=utf-8", ascii "text/html; charset=utf-8"]

end Response

/-- The number in the digits at the beginning of a text. -/
def number (s : List UInt8) : ℕ := Decimal.value (s.takeWhile Decimal.isDigit)

/-- What a client finds in a response. -/
structure Reply where
  status : ℕ
  body : List UInt8
  deriving DecidableEq, Repr

/-- A client reads one response, and knows whether it has asked for the head only. -/
def readReply (head : Bool) (stream : List UInt8) : Option (Reply × List UInt8) :=
  match find blankLine stream with
  | none => none
  | some stop =>
    let header := stream.take stop
    let rest := stream.drop (stop + 4)
    match find (ascii "Content-Length: ") header with
    | none => none
    | some place =>
      let length := if head then 0 else number (header.drop (place + 16))
      if rest.length < length then none
      else some (⟨number (stream.drop 9), rest.take length⟩, rest.drop length)

def readReplies : List Bool → List UInt8 → Option (List Reply × List UInt8)
  | [], stream => some ([], stream)
  | head :: heads, stream =>
    match readReply head stream with
    | none => none
    | some (reply, rest) => (readReplies heads rest).map fun r => (reply :: r.1, r.2)

section Reading

variable {r : Response}

def lengthName : List UInt8 := ascii "Content-Length: "

/-- A pattern that is not in a line is found behind it. -/
theorem find_crlf {pat l rest : List UInt8} {i : ℕ} (hpat : pat ≠ []) (hcr : 13 ∉ pat) (hlf : 10 ∉ pat)
    (hl : ¬ pat <:+: l) (hrest : find pat rest = some i) :
    find pat (l ++ (crlf ++ rest)) = some (l.length + 2 + i) := by
  obtain ⟨hoccurs, hleast⟩ := find_eq_some.mp hrest
  have hdrop (k : ℕ) : (l ++ (crlf ++ rest)).drop (l.length + 2 + k) = rest.drop k := by
    rw [← List.append_assoc, ← List.drop_drop, List.drop_left' (by simp [crlf])]
  refine find_eq_some.mpr ⟨by rwa [hdrop], fun j hj hbefore => ?_⟩
  rcases Nat.lt_or_ge j l.length with hline | hgt
  · rw [List.drop_append_of_le_length (Nat.le_of_lt hline)] at hbefore
    have hin : pat <+: l.drop j := prefix_of_notMem hcr hbefore
    exact hl (hin.isInfix.trans (List.drop_suffix j l).isInfix)
  · obtain ⟨k, rfl⟩ := Nat.exists_eq_add_of_le hgt
    obtain ⟨a, pat, rfl⟩ := List.exists_cons_of_ne_nil hpat
    rw [← List.drop_drop, List.drop_left] at hbefore
    rcases k with _ | _ | k
    · simp only [crlf, List.drop_zero, List.cons_append, List.cons_prefix_cons] at hbefore
      exact hcr (hbefore.1 ▸ List.mem_cons_self)
    · simp only [crlf, List.cons_append, List.drop_succ_cons, List.drop_zero, List.nil_append,
        List.cons_prefix_cons] at hbefore
      exact hlf (hbefore.1 ▸ List.mem_cons_self)
    · exact hleast k (by omega) (by simpa [crlf] using hbefore)

/-- The digits of a numeral end where something else begins. -/
theorem number_text (n : ℕ) {c : UInt8} (hc : Decimal.isDigit c = false) (rest : List UInt8) :
    number (Decimal.text n ++ c :: rest) = n := by
  rw [number, List.takeWhile_append_of_pos (Decimal.isDigit_text n), List.takeWhile_cons, hc,
    if_neg Bool.false_ne_true, List.append_nil, Decimal.value_text]

theorem number_append (s : List UInt8) {c : UInt8} (hc : Decimal.isDigit c = false) (rest : List UInt8) :
    number (s ++ c :: rest) = number s := by
  unfold number
  congr 1
  induction s with
  | nil => simp [hc]
  | cons a s ih =>
    rw [List.cons_append, List.takeWhile_cons, List.takeWhile_cons, ih]

def firstLine (status : ℕ) (http10 : Bool) : List UInt8 :=
  (if http10 then ascii "HTTP/1.0 " else ascii "HTTP/1.1 ") ++
    (Decimal.text status ++ ([32] ++ reason status))

/-- No known first line has a length in it or a line end. -/
theorem firstLine_known : ∀ status ∈ [200, 404, 431] ++ refusals, ∀ http10,
    ¬ lengthName <:+: firstLine status http10 ∧ 13 ∉ firstLine status http10 := by decide +kernel

theorem typeLine_known : ∀ type ∈ [ascii "text/plain; charset=utf-8", ascii "text/html; charset=utf-8"],
    ¬ lengthName <:+: ascii "Content-Type: " ++ type ∧ 13 ∉ ascii "Content-Type: " ++ type := by
  decide +kernel

/-- What the header has behind the length. -/
def lastLines (close allowHeader : Bool) : List (List UInt8) :=
  (ascii "Connection: " ++ if close then ascii "close" else ascii "keep-alive") ::
    if allowHeader then [ascii "Allow: GET, HEAD"] else []

theorem lastLines_known : ∀ close allowHeader, ∀ l ∈ lastLines close allowHeader, l ≠ [] ∧ 13 ∉ l := by
  decide +kernel

theorem Response.lines_eq (r : Response) : r.lines =
    firstLine r.status r.http10 :: (ascii "Content-Type: " ++ r.type) ::
      (lengthName ++ Decimal.text r.body.length) :: lastLines r.close r.allowHeader := by
  unfold Response.lines lastLines firstLine lengthName
  cases r.allowHeader <;> rfl

theorem Response.Known.line (hr : r.Known) : ∀ l ∈ r.lines, Line l := by
  have hline {l : List UInt8} (hne : l ≠ []) (hl : 13 ∉ l) : Line l := by
    obtain ⟨c, t, rfl⟩ := List.exists_cons_of_ne_nil hne
    exact line_of_notMem hl
  have hdigits : 13 ∉ Decimal.text r.body.length := fun hmem => by
    have hdigit := Decimal.isDigit_text _ 13 hmem
    revert hdigit
    decide
  rw [Response.lines_eq, List.forall_mem_cons, List.forall_mem_cons, List.forall_mem_cons]
  refine ⟨hline ?_ (firstLine_known _ hr.status _).2, hline ?_ (typeLine_known _ hr.type).2,
    hline ?_ ?_, ?_⟩
  · cases r.http10 <;> simp [firstLine, ascii]
  · simp [ascii]
  · simp [lengthName, ascii]
  · rw [List.mem_append, not_or]
    exact ⟨by decide, hdigits⟩
  · intro l hl
    obtain ⟨hne, hcr⟩ := lastLines_known _ _ l hl
    exact hline hne hcr

theorem block_cons (l : List UInt8) (lines : List (List UInt8)) :
    block (l :: lines) = l ++ (crlf ++ block lines) := by
  simp [block]

/-- The length in a header is that of the body. -/
theorem Response.Known.length (hr : r.Known) {header : List UInt8}
    (hblock : block r.lines = header ++ blankLine) : ∃ place, find lengthName header = some place ∧
      number (header.drop (place + 16)) = r.body.length := by
  have hname : lengthName ≠ [] := by decide
  have hcr : 13 ∉ lengthName := by decide
  have hlf : 10 ∉ lengthName := by decide
  have hsize : lengthName.length = 16 := by decide
  obtain ⟨rest, hrest⟩ : ∃ rest, rest = block (lastLines r.close r.allowHeader) := ⟨_, rfl⟩
  have hlong : 2 ≤ rest.length := by
    rw [hrest, block, List.length_append, show crlf.length = 2 from rfl]
    omega
  have hlines : block r.lines = firstLine r.status r.http10 ++ (crlf ++ ((ascii "Content-Type: " ++ r.type) ++
      (crlf ++ (lengthName ++ (Decimal.text r.body.length ++ (crlf ++ rest)))))) := by
    rw [r.lines_eq, block_cons, block_cons, block_cons, ← hrest, List.append_assoc lengthName]
  have hhere : find lengthName (lengthName ++ (Decimal.text r.body.length ++ (crlf ++ rest))) = some 0 :=
    find_eq_zero.mpr (List.prefix_append _ _)
  have hfind := find_crlf hname hcr hlf (firstLine_known _ hr.status r.http10).1
    (find_crlf hname hcr hlf (typeLine_known _ hr.type).1 hhere)
  rw [← hlines, hblock] at hfind
  have hcount := congrArg List.length (hblock.symm.trans hlines)
  simp only [List.length_append, show crlf.length = 2 from rfl, show blankLine.length = 4 from rfl,
    hsize] at hcount
  obtain ⟨place, hplace⟩ : ∃ place, place = (firstLine r.status r.http10).length + 2 +
      ((ascii "Content-Type: " ++ r.type).length + 2 + 0) := ⟨_, rfl⟩
  rw [← hplace] at hfind
  have hfits : place + 16 ≤ header.length := by
    rw [hplace, List.length_append]
    omega
  refine ⟨place, ?_, ?_⟩
  · cases hheader : find lengthName header with
    | none =>
      have hless := find_append_none hheader hfind
      omega
    | some i =>
      rw [find_append hheader hname] at hfind
      exact hfind
  · have hdrop := congrArg (List.drop (place + 16)) (hblock.symm.trans hlines)
    rw [List.drop_append_of_le_length hfits] at hdrop
    have hvalue := number_append (header.drop (place + 16)) (c := 13) rfl [10, 13, 10]
    rw [← hvalue, show (13 : UInt8) :: [10, 13, 10] = blankLine from rfl, hdrop]
    have hplace' : place + 16 = (firstLine r.status r.http10 ++ (crlf ++ ((ascii "Content-Type: " ++ r.type) ++
        (crlf ++ lengthName)))).length := by
      simp only [List.length_append, hplace, hsize, show crlf.length = 2 from rfl]
      omega
    have hparts : firstLine r.status r.http10 ++ (crlf ++ ((ascii "Content-Type: " ++ r.type) ++
        (crlf ++ (lengthName ++ (Decimal.text r.body.length ++ (crlf ++ rest)))))) =
        (firstLine r.status r.http10 ++ (crlf ++ ((ascii "Content-Type: " ++ r.type) ++
          (crlf ++ lengthName)))) ++ (Decimal.text r.body.length ++ 13 :: 10 :: rest) := by
      simp [crlf]
    rw [hparts, hplace', List.drop_left, number_text _ rfl]

/-- A client reads a response as it was sent, whatever follows it. -/
theorem readReply_text (hr : r.Known) (more : List UInt8) :
    readReply r.head (r.text ++ more) = some (⟨r.status, r.content⟩, more) := by
  have hlines := r.lines_eq ▸ hr.line
  obtain ⟨header, hclear, hblock, -⟩ := block_split _ _ hlines
  rw [← r.lines_eq] at hblock
  obtain ⟨place, hplace, hlength⟩ := hr.length hblock
  have htext : r.text ++ more = header ++ (blankLine ++ (r.content ++ more)) := by
    rw [r.text_eq, hblock]
    simp
  have hstatus : number ((r.text ++ more).drop 9) = r.status := by
    rw [r.text_eq, r.lines_eq, block_cons, firstLine]
    have hnine (s : List UInt8) :
        ((if r.http10 then ascii "HTTP/1.0 " else ascii "HTTP/1.1 ") ++ s).drop 9 = s := by
      cases r.http10 <;> rfl
    simp only [List.append_assoc, hnine]
    exact number_text _ rfl _
  have hcontent : (if r.head then 0 else r.body.length) = r.content.length := by
    unfold Response.content
    cases r.head <;> rfl
  have hrest : (header ++ (blankLine ++ (r.content ++ more))).drop (header.length + 4) =
      r.content ++ more := by
    rw [← List.drop_drop, List.drop_left]
    rfl
  unfold readReply
  rw [hstatus, htext, hclear.find blankLine_ne_nil]
  dsimp only
  rw [List.take_left, show ascii "Content-Length: " = lengthName from rfl, hplace]
  dsimp only
  rw [hlength, hcontent, hrest, if_neg (by simp), List.take_left, List.drop_left]

def Response.reply (r : Response) : Reply := ⟨r.status, r.content⟩

theorem readReplies_texts (rs : List Response) (hrs : ∀ r ∈ rs, r.Known) (more : List UInt8) :
    readReplies (rs.map Response.head) (rs.flatMap Response.text ++ more) =
      some (rs.map Response.reply, more) := by
  induction rs with
  | nil => rfl
  | cons r rs ih =>
    obtain ⟨hr, hrest⟩ := List.forall_mem_cons.mp hrs
    rw [List.map_cons, List.flatMap_cons, List.append_assoc, readReplies, readReply_text hr]
    dsimp only
    rw [ih hrest]
    rfl

theorem known_respondTo {request : ParsedRequest} (h : request.error = 0 ∨ request.error ∈ refusals) :
    (respondTo request).Known := by
  unfold respondTo
  split
  · rename_i herror
    exact ⟨List.mem_append_right _ (h.resolve_left herror), List.mem_cons_self⟩
  · split
    · exact ⟨List.mem_cons_self, List.mem_cons_of_mem _ List.mem_cons_self⟩
    · split
      · exact ⟨List.mem_cons_self, List.mem_cons_self⟩
      · exact ⟨List.mem_cons_of_mem _ List.mem_cons_self, List.mem_cons_self⟩

theorem known_answers (max : ℕ) (stream : List UInt8) : ∀ r ∈ answers max stream, r.Known := by
  have hlarge : tooLarge.Known := ⟨by decide, by decide⟩
  unfold answers
  generalize (split blankLine stream).2 = rest
  induction (split blankLine stream).1 with
  | nil =>
    unfold reply
    split
    · simpa using hlarge
    · simp
  | cons raw frames ih =>
    have hresponse : (response max raw).Known := by
      unfold response
      split
      · exact hlarge
      · exact known_respondTo (parse_error raw)
    unfold reply
    refine List.forall_mem_cons.mpr ⟨hresponse, ?_⟩
    split
    · exact ih
    · simp

end Reading

/-- In every run a client can tell the responses on its connection apart, and finds in them
the statuses and bodies of its answers. -/
theorem Server.run_replies (limits : Limits) (h : ℕ → Host) (ops : List Op) (id : ℕ) :
    let c := ((run limits h ops).record id).conn
    ∃ sent unsent, answers limits.maxHeaderBytes c.received = sent ++ unsent ∧
      readReplies (sent.map Response.head) c.accepted = some (sent.map Response.reply, []) ∧
      (id ∈ (run limits h ops).registered → unsent = []) := by
  intro c
  obtain ⟨sent, unsent, hanswers, haccepted, -, hall⟩ := (run_good limits h ops).answers id
  refine ⟨sent, unsent, hanswers, ?_, hall⟩
  have hknown : ∀ r ∈ sent, r.Known := fun r hr =>
    known_answers limits.maxHeaderBytes c.received r (hanswers ▸ List.mem_append_left _ hr)
  have hread := readReplies_texts sent hknown []
  rwa [List.append_nil, ← haccepted] at hread

end Aeon.Http
