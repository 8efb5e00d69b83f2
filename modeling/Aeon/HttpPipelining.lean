import Aeon.HttpStreams

/-!
# Requests and responses one behind the other

The requests that the server handles are exactly the well-formed ones that stand in the
stream of the client, each behind the end of the one before it.
-/

namespace Aeon.Http

open Search Delimiter ClientServer

namespace Request

/-- A request that can be sent. -/
structure Sound (r : Request) : Prop where
  wellFormed : r.WellFormed
  plain : ∀ c ∈ r.text, bareControl c = false

/-- A request after which the connection stays open. -/
structure Keeps (max : ℕ) (r : Request) : Prop where
  sound : r.Sound
  stays : r.closes = false
  fits : r.text.length ≤ max

/-- What the client is told. -/
def page (r : Request) : Response := respondTo r.parsed

end Request

section Blocks

variable {a b : List UInt8}

/-- A line in front of a block has no blank line, if the block does not begin with one. -/
theorem clear_block (ha : Clear crlf a) (hb : Clear blankLine b) (hstart : ∃ c t, b = c :: t ∧ c ≠ 13) :
    Clear blankLine (a ++ (crlf ++ b)) := by
  refine find_eq_some.mpr ⟨by rw [List.drop_left], fun j hj hbefore => ?_⟩
  rw [List.length_append, List.length_append, show crlf.length = 2 from rfl] at hj
  have hsplit : a ++ (crlf ++ b) ++ blankLine = a ++ crlf ++ (b ++ blankLine) := by simp
  rw [hsplit] at hbefore
  rcases Nat.lt_or_ge j a.length with hline | hgt
  · refine (find_eq_some.mp ha).least j hline (occurs_of_append (m := b ++ blankLine) ?_ ?_)
    · exact List.IsPrefix.trans (by decide) hbefore
    · rw [List.length_append, show crlf.length = 2 from rfl]
      omega
  · obtain ⟨c, t, rfl, hc⟩ := hstart
    obtain ⟨k, rfl⟩ := Nat.exists_eq_add_of_le hgt
    rw [List.append_assoc, ← List.drop_drop, List.drop_left] at hbefore
    cases k with
    | zero =>
      simp only [blankLine, crlf, List.drop_zero, List.cons_append, List.nil_append, List.cons_prefix_cons,
        true_and] at hbefore
      exact hc hbefore.1.symm
    | succ k =>
      cases k with
      | zero =>
        simp [blankLine, crlf] at hbefore
      | succ k =>
        refine (find_eq_some.mp hb).least k (by omega) ?_
        simpa [crlf] using hbefore

/-- A line of a header, without its end. -/
def Line (l : List UInt8) : Prop := Clear crlf l ∧ ∃ c t, l = c :: t ∧ c ≠ 13

/-- Lines and an empty one behind them. -/
def block (lines : List (List UInt8)) : List UInt8 := lines.flatMap (fun l => l ++ crlf) ++ crlf

theorem line_of_notMem {c : UInt8} {t : List UInt8} (h : 13 ∉ c :: t) : Line (c :: t) :=
  ⟨clear_of_notMem h (by decide), c, t, rfl, fun heq => h (heq ▸ List.mem_cons_self)⟩

/-- The first blank line of a block of lines is its end. -/
theorem block_split (line : List UInt8) (lines : List (List UInt8)) (hlines : ∀ l ∈ line :: lines, Line l) :
    ∃ body, Clear blankLine body ∧ block (line :: lines) = body ++ blankLine ∧
      ∃ c t, body = c :: t ∧ c ≠ 13 := by
  induction lines generalizing line with
  | nil =>
    obtain ⟨hclear, hstart⟩ := hlines line List.mem_cons_self
    exact ⟨line, hclear.longer, by simp [block, crlf, blankLine], hstart⟩
  | cons next lines ih =>
    obtain ⟨hclear, c, t, rfl, hc⟩ := hlines line List.mem_cons_self
    obtain ⟨body, hbody, heq, hstart⟩ := ih next fun l hl => hlines l (List.mem_cons_of_mem _ hl)
    refine ⟨c :: t ++ (crlf ++ body), clear_block hclear hbody hstart, ?_, c, _, rfl, hc⟩
    rw [block, List.flatMap_cons, List.append_assoc, ← block, heq]
    simp

end Blocks

section Texts

variable {max : ℕ} {r : Request} {raw : List UInt8}

/-- A field begins with its name. -/
theorem Field.Plain.line {f : Field} (h : f.Plain) : Line f.text := by
  obtain ⟨c, t, hct⟩ := List.exists_cons_of_ne_nil (token_ne_nil h.name)
  have hc : c ≠ 13 := fun heq =>
    token_notMem h.name (.inl (by decide)) (hct ▸ heq ▸ List.mem_cons_self : (13 : UInt8) ∈ f.name)
  exact ⟨h.oneLine, c, _, by rw [Field.text, hct]; rfl, hc⟩

/-- The text of a request ends with its first blank line. -/
theorem Request.WellFormed.frame (hr : r.WellFormed) : Frame blankLine r.text := by
  have htext := Request.text_eq r []
  rw [List.append_nil, List.append_nil] at htext
  cases hfields : r.fields with
  | nil =>
    refine ⟨r.start, hr.clear_start.longer, ?_⟩
    rw [htext, hfields]
    rfl
  | cons f fields =>
    have hlines : ∀ l ∈ f.text :: fields.map Field.text, Line l := by
      rw [← List.map_cons, ← hfields]
      simpa using fun g hg => (hr.fields g hg).line
    obtain ⟨body, hclear, hbody, hstart⟩ := block_split _ _ hlines
    refine ⟨r.start ++ (crlf ++ body), clear_block hr.clear_start hclear hstart, ?_⟩
    have hblock : Request.lines r.fields ++ crlf = block (f.text :: fields.map Field.text) := by
      rw [hfields, ← List.map_cons, block, List.flatMap_map]
      rfl
    rw [htext, hblock, hbody]
    simp

theorem Request.Sound.stands (hr : r.Sound) : Stands r [] r.text where
  wellFormed := hr.wellFormed
  text := (List.append_nil _).symm
  ends := by
    obtain ⟨body, -, hbody⟩ := hr.wellFormed.frame
    rw [hbody]
    exact List.suffix_append _ _
  plain := hr.plain

theorem Request.Sound.respond (hr : r.Sound) : respond r.text = r.page := by
  rw [Http.respond, parse_stands hr.stands, Request.page]

/-- What the parser accepts of a frame is all of it. -/
theorem frame_request (hraw : Frame blankLine raw) (haccept : (parse raw).error = 0) :
    ∃ r : Request, r.Sound ∧ raw = r.text := by
  obtain ⟨r, extra, hr, rfl, -, hplain⟩ := parse_sound haccept
  have hfind := hraw.find blankLine_ne_nil []
  have hfirst := hr.frame.find blankLine_ne_nil extra
  rw [List.append_nil, hfirst] at hfind
  have hextra : extra = [] := by
    have hlength := Option.some.inj hfind
    have hle := hr.frame.length_le
    rw [List.length_append] at hlength
    exact List.length_eq_zero_iff.mp (by omega)
  subst hextra
  exact ⟨r, ⟨hr, fun c hc => hplain c (by simpa using hc)⟩, List.append_nil _⟩

theorem page_close (r : Request) : r.page.close = r.closes := by
  unfold Request.page respondTo
  rw [if_neg (by simp [Request.parsed])]
  dsimp only
  split
  · rfl
  · split <;> rfl

theorem Request.Keeps.kept (hr : r.Keeps max) : Kept max r.text :=
  ⟨hr.fits, by rw [hr.sound.respond, page_close, hr.stays]⟩

theorem kept_request (hraw : Frame blankLine raw) (hkept : Kept max raw) :
    ∃ r : Request, r.Keeps max ∧ raw = r.text := by
  obtain ⟨r, hr, rfl⟩ := frame_request hraw (respond_open hkept.2)
  refine ⟨r, ⟨hr, ?_, hkept.1⟩, rfl⟩
  rw [← page_close, ← hr.respond, hkept.2]

/-- A status that says that the request was at fault. -/
theorem response_error (hraw : Frame blankLine raw) (hnot : ¬Kept max raw) :
    (response max raw).close = true ∧ (400 ≤ (response max raw).status ∨
      ∃ r : Request, r.Sound ∧ r.closes = true ∧ raw = r.text ∧ response max raw = r.page) := by
  unfold response
  split
  · exact ⟨rfl, .inl (by decide)⟩
  · rename_i hshort
    have hclose : (respond raw).close = true := by
      by_contra hopen
      exact hnot ⟨Nat.le_of_not_lt hshort, Bool.eq_false_iff.mpr hopen⟩
    refine ⟨hclose, ?_⟩
    rcases parse_error raw with haccept | herror
    · obtain ⟨r, hr, rfl⟩ := frame_request hraw haccept
      exact .inr ⟨r, hr, by rw [← page_close, ← hr.respond, hclose], rfl, hr.respond⟩
    · left
      have hstatus := refusals_range _ herror
      rw [respond, respondTo, if_pos (by omega)]
      exact hstatus

end Texts

section Streams

variable {max : ℕ}

/-- Requests that keep the connection open are answered each with its page, in their
order, and what follows them is answered as if it came first. -/
theorem answers_requests (rs : List Request) (hrs : ∀ r ∈ rs, r.Keeps max) (rest : List UInt8) :
    answers max (rs.flatMap Request.text ++ rest) = rs.map Request.page ++ answers max rest := by
  have hframes : ∀ raw ∈ rs.map Request.text, Frame blankLine raw := by
    simpa using fun r hr => (hrs r hr).sound.wellFormed.frame
  have hkept : ∀ raw ∈ rs.map Request.text, Kept max raw := by
    simpa using fun r hr => (hrs r hr).kept
  unfold answers
  rw [List.flatMap_def, split_frames blankLine_ne_nil hframes, reply_kept hkept, List.map_map]
  congr 1
  exact List.map_congr_left fun r hr => (hrs r hr).sound.respond

theorem answers_closing {r : Request} (hr : r.Sound) (hclose : r.closes = true) (hfits : r.text.length ≤ max)
    (more : List UInt8) : answers max (r.text ++ more) = [r.page] := by
  have hframes : ∀ raw ∈ [r.text], Frame blankLine raw := by
    simpa using hr.wellFormed.frame
  have hnot : ¬Kept max r.text := fun hkept => by
    rw [Kept, hr.respond, page_close, hclose] at hkept
    exact absurd hkept.2 (by decide)
  have hcut := split_frames blankLine_ne_nil hframes more
  rw [List.flatten_singleton] at hcut
  rw [answers, hcut, List.singleton_append, reply, if_neg hnot, response,
    if_neg (Nat.not_lt.mpr hfits), hr.respond]

/-- How a stream ends behind the requests that keep the connection open: with an
incomplete request, or with something that closes the connection. -/
inductive Last (rest : List UInt8) : List Response → Prop
  | waits : ¬ blankLine <:+: rest → Last rest []
  | closes (r : Request) : r.Sound → r.closes = true → r.text <+: rest → Last rest [r.page]
  | refused (x : Response) : x.close = true → 400 ≤ x.status → Last rest [x]

/-- Nothing but a well-formed request at its place is answered with a page. -/
theorem answers_sound (max : ℕ) (stream : List UInt8) :
    ∃ (rs : List Request) (rest : List UInt8) (last : List Response),
    stream = rs.flatMap Request.text ++ rest ∧ (∀ r ∈ rs, r.Keeps max) ∧
      answers max stream = rs.map Request.page ++ last ∧ Last rest last := by
  obtain ⟨hframes, hnone, hflat⟩ := split_spec blankLine_ne_nil stream
  have hanswers : answers max stream = reply max (split blankLine stream).1 (split blankLine stream).2 := rfl
  rw [hanswers]
  generalize hcut : split blankLine stream = cut at hframes hnone hflat ⊢
  obtain ⟨frames, rest⟩ := cut
  dsimp only at hframes hnone hflat ⊢
  clear hcut hanswers
  induction frames generalizing stream with
  | nil =>
    refine ⟨[], rest, reply max [] rest, by simpa using hflat.symm, List.forall_mem_nil _, rfl, ?_⟩
    unfold reply
    split
    · exact .refused tooLarge rfl (by decide)
    · refine .waits fun hin => ?_
      obtain ⟨front, back, heq⟩ := hin
      refine find_eq_none.mp hnone front.length ?_
      rw [← heq, List.append_assoc, List.drop_left]
      exact List.prefix_append _ _
  | cons raw frames ih =>
    have hraw := hframes raw List.mem_cons_self
    by_cases hkept : Kept max raw
    · obtain ⟨r, hr, rfl⟩ := kept_request hraw hkept
      obtain ⟨rs, rest', last, hstream, hrs, hreply, hlast⟩ := ih (frames.flatten ++ rest)
        (fun f hf => hframes f (List.mem_cons_of_mem _ hf)) rfl
      refine ⟨r :: rs, rest', last, ?_, List.forall_mem_cons.mpr ⟨hr, hrs⟩, ?_, hlast⟩
      · rw [← hflat, List.flatten_cons, List.append_assoc, hstream]
        simp
      · rw [reply, if_pos hkept, kept_response hkept, hreply, hr.sound.respond]
        rfl
    · refine ⟨[], stream, [response max raw], rfl, List.forall_mem_nil _, by rw [reply, if_neg hkept]; rfl, ?_⟩
      obtain ⟨hclose, herror | ⟨r, hr, hcloses, rfl, hpage⟩⟩ := response_error hraw hkept
      · exact .refused _ hclose herror
      · rw [hpage]
        refine .closes r hr hcloses ?_
        rw [← hflat, List.flatten_cons, List.append_assoc]
        exact List.prefix_append _ _

/-- In every run the stream of a client is cut into its requests, each of which gets its
page in turn, and at most one more response follows, which closes the connection. -/
theorem Server.run_requests (limits : Limits) (h : ℕ → Host) (ops : List Op) (id : ℕ) :
    let c := ((run limits h ops).record id).conn
    ∃ (rs : List Request) (rest : List UInt8) (last sent unsent : List Response),
      c.received = rs.flatMap Request.text ++ rest ∧ (∀ r ∈ rs, r.Keeps limits.maxHeaderBytes) ∧
      Last rest last ∧ rs.map Request.page ++ last = sent ++ unsent ∧
      c.accepted = sent.flatMap Response.text ∧
      (id ∈ (run limits h ops).registered → unsent = []) := by
  intro c
  obtain ⟨sent, unsent, hanswers, haccepted, -, hall⟩ := (run_good limits h ops).answers id
  obtain ⟨rs, rest, last, hstream, hrs, heq, hlast⟩ := answers_sound limits.maxHeaderBytes c.received
  exact ⟨rs, rest, last, sent, unsent, hstream, hrs, hlast, heq.symm.trans hanswers, haccepted, hall⟩

/-- A client that is registered has been sent the pages of the requests it has sent, in
whatever pieces they came, and then the answers to the rest. -/
theorem Server.run_pipelined (limits : Limits) (h : ℕ → Host) (ops : List Op) (id : ℕ)
    (hid : id ∈ (run limits h ops).registered) (rs : List Request)
    (hrs : ∀ r ∈ rs, r.Keeps limits.maxHeaderBytes) (rest : List UInt8)
    (hreceived : ((run limits h ops).record id).conn.received = rs.flatMap Request.text ++ rest) :
    ((run limits h ops).record id).conn.accepted =
      rs.flatMap (fun r => r.page.text) ++ (answers limits.maxHeaderBytes rest).flatMap Response.text := by
  obtain ⟨sent, unsent, hanswers, haccepted, -, hall⟩ := (run_good limits h ops).answers id
  rw [hall hid, List.append_nil, hreceived, answers_requests rs hrs] at hanswers
  rw [haccepted, ← hanswers, List.flatMap_append, List.flatMap_map]

/-- Two requests that come in three reads, the last with the first bytes of another. -/
theorem Server.run_pipelined_twice :
    let raw := ascii "GET /health HTTP/1.1\r\nHost: a\r\n\r\n"
    let stream := raw ++ raw ++ ascii "GET"
    let ops : List Op := [.start true true, .poll [
      .listen [⟨{ sockfd := some 3, connected := true, blocking := false }, rfl⟩] 0,
      .data 0 ⟨stream.take 20, by decide⟩ 1, .data 0 ⟨(stream.drop 20).take 40, by decide⟩ 2,
      .data 0 ⟨stream.drop 60, by decide⟩ 3] 4 false]
    ((run {} (fun _ => .steady) ops).record 0).conn.accepted = (respond raw).text ++ (respond raw).text := by
  intro raw stream ops
  have hframe : Frame blankLine raw := ⟨raw.take (raw.length - 4), by decide +kernel, by decide +kernel⟩
  obtain ⟨r, hr, hraw⟩ := @kept_request 8192 raw hframe (by decide +kernel)
  have hrs : ∀ s ∈ [r, r], s.Keeps 8192 := by simpa using hr
  have hreceived : ((run {} (fun _ => .steady) ops).record 0).conn.received =
      [r, r].flatMap Request.text ++ ascii "GET" := by
    have hstream : ((run {} (fun _ => .steady) ops).record 0).conn.received = raw ++ raw ++ ascii "GET" := by
      decide +kernel
    rw [hstream, hraw]
    simp
  have hpages := run_pipelined {} (fun _ => .steady) ops 0 (by decide +kernel) [r, r] hrs (ascii "GET")
    hreceived
  have hrest : answers 8192 (ascii "GET") = [] := by decide +kernel
  rw [hpages, hrest, hraw, hr.sound.respond]
  simp

end Streams

end Aeon.Http
