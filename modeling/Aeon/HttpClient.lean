import Aeon.HttpResponses

/-!
# The HTTP client

What the client makes of a URL and of the response, and that it shows the page that the
server has for the URL.
-/

namespace Aeon.Http

open Search Delimiter ClientServer

structure UrlParts where
  isHttps : Bool
  domain : List UInt8
  path : List UInt8
  port : ℕ
  deriving DecidableEq, Repr

def parseUrl (url : List UInt8) : UrlParts :=
  let scheme : Bool × ℕ × List UInt8 :=
    if find (ascii "https://") url = some 0 then (true, 443, url.drop 8)
    else if find (ascii "http://") url = some 0 then (false, 80, url.drop 7)
    else (false, 80, url)
  let workingUrl := scheme.2.2
  match find [47] workingUrl with
  | some slash => ⟨scheme.1, workingUrl.take slash, workingUrl.drop slash, scheme.2.1⟩
  | none => ⟨scheme.1, workingUrl, [47], scheme.2.1⟩

def extractRedirectUrl (headers : List UInt8) : List UInt8 :=
  match find (ascii "Location: ") headers with
  | none => []
  | some place =>
    let value := headers.drop (place + (ascii "Location: ").length)
    match find crlf value with
    | some stop => value.take stop
    | none =>
      match find [10] value with
      | some stop => value.take stop
      | none => []

def requestText (domain path : List UInt8) : List UInt8 :=
  ascii "GET " ++ path ++ ascii " HTTP/1.1\r\n" ++
    (ascii "Host: " ++ domain ++ ascii "\r\n" ++ (ascii "Connection: close\r\n" ++ ascii "\r\n"))

def redirectCodes : List (List UInt8) :=
  [ascii "301", ascii "302", ascii "303", ascii "307", ascii "308"]

def isRedirect (headers : List UInt8) : Bool :=
  let statusLine := match find crlf headers with
    | some stop => headers.take stop
    | none => headers
  statusLine.take 7 = ascii "HTTP/1." && 12 ≤ statusLine.length && statusLine[8]? = some 32 &&
    redirectCodes.contains ((statusLine.drop 9).take 3)

/-- How the client ends. -/
inductive Outcome
  | invalidUrl
  | failed
  | incomplete
  | page (body : List UInt8)
  | tooManyRedirects
  deriving DecidableEq, Repr

/-- What comes of a response: the end, or another URL. -/
def readPage (response : List UInt8) : Outcome ⊕ List UInt8 :=
  match find blankLine response with
  | none => .inl .incomplete
  | some headerEnd =>
    let headers := response.take headerEnd
    if isRedirect headers ∧ extractRedirectUrl headers ≠ [] then .inr (extractRedirectUrl headers)
    else .inl (.page (response.drop (headerEnd + 4)))

/-- The loop of the client.  `exchange` connects, sends the request and reads the response. -/
def fetch (exchange : UrlParts → Option (List UInt8)) : ℕ → List UInt8 → Outcome
  | 0, _ => .tooManyRedirects
  | left + 1, currentUrl =>
    let parts := parseUrl currentUrl
    if parts.domain = [] then .invalidUrl
    else match exchange parts with
      | none => .failed
      | some response =>
        match readPage response with
        | .inl outcome => outcome
        | .inr redirectUrl => fetch exchange left redirectUrl

def maxRedirects : ℕ := 5

namespace UrlParts

/-- How the parts are written. -/
def text (parts : UrlParts) : List UInt8 :=
  (if parts.isHttps then ascii "https://" else ascii "http://") ++ (parts.domain ++ parts.path)

/-- Parts that a URL can have. -/
structure Proper (parts : UrlParts) : Prop where
  domain : 47 ∉ parts.domain
  path : parts.path.head? = some 47
  port : parts.port = if parts.isHttps then 443 else 80

end UrlParts

section Urls

variable {parts : UrlParts}

/-- The slash after the domain is where the URL is cut. -/
theorem find_slash {domain path : List UInt8} (hdomain : 47 ∉ domain) (hpath : path.head? = some 47) :
    find [47] (domain ++ path) = some domain.length := by
  obtain ⟨rest, rfl⟩ : ∃ rest, path = 47 :: rest := by
    cases path with
    | nil => cases hpath
    | cons c rest => exact ⟨rest, by rw [Option.some.inj hpath]⟩
  exact (clear_of_notMem hdomain List.not_mem_nil).find (by simp) rest

theorem parseUrl_proper (url : List UInt8) : (parseUrl url).Proper := by
  unfold parseUrl
  dsimp only
  generalize hscheme : (if find (ascii "https://") url = some 0 then (true, 443, url.drop 8)
    else if find (ascii "http://") url = some 0 then (false, 80, url.drop 7)
    else ((false, 80, url) : Bool × ℕ × List UInt8)) = scheme
  have hport : scheme.2.1 = if scheme.1 then 443 else 80 := by
    rw [← hscheme]
    split
    · rfl
    · split <;> rfl
  split
  · rename_i slash hslash
    obtain ⟨hoccurs, hleast⟩ := find_eq_some.mp hslash
    refine ⟨fun hmem => ?_, ?_, hport⟩
    · obtain ⟨front, back, hparts⟩ := List.append_of_mem hmem
      have hparts : scheme.2.2.take slash = front ++ 47 :: back := hparts
      have hle := find_le hslash (by simp)
      have hlength := congrArg List.length hparts
      rw [List.length_take, List.length_append, List.length_cons] at hlength
      refine hleast front.length (by omega) ?_
      rw [← List.take_append_drop slash scheme.2.2, hparts, List.append_assoc, List.drop_left]
      exact List.prefix_append [47] _
    · obtain ⟨rest, hrest⟩ := hoccurs
      show (scheme.2.2.drop slash).head? = some 47
      rw [← hrest]
      rfl
  · rename_i hnone
    refine ⟨fun hmem => ?_, rfl, hport⟩
    obtain ⟨front, back, hparts⟩ := List.append_of_mem hmem
    refine find_eq_none.mp hnone front.length ?_
    rw [show scheme.2.2 = _ from hparts, List.drop_left]
    exact List.prefix_append [47] _

/-- The parts that a URL can have are read back as they are written, and no others are. -/
theorem parseUrl_text (parts : UrlParts) : parseUrl parts.text = parts ↔ parts.Proper := by
  constructor
  · intro heq
    exact heq ▸ parseUrl_proper _
  · rintro ⟨hdomain, hpath, hport⟩
    obtain ⟨isHttps, domain, path, port⟩ := parts
    dsimp only at hdomain hpath hport
    have hslash := find_slash hdomain hpath
    have hnot : ¬ ascii "https://" <+: ascii "http://" ++ (domain ++ path) := fun hpre => by
      have htake := hpre.take 5
      rw [List.take_append_of_le_length (by decide)] at htake
      revert htake
      decide
    unfold parseUrl UrlParts.text
    cases isHttps with
    | true =>
      have hscheme : find (ascii "https://") (ascii "https://" ++ (domain ++ path)) = some 0 :=
        find_eq_zero.mpr (List.prefix_append _ _)
      simp only [if_true, hscheme]
      rw [show (ascii "https://" ++ (domain ++ path)).drop 8 = domain ++ path from rfl, hslash, hport]
      simp
    | false =>
      have hscheme : find (ascii "http://") (ascii "http://" ++ (domain ++ path)) = some 0 :=
        find_eq_zero.mpr (List.prefix_append _ _)
      have hother : find (ascii "https://") (ascii "http://" ++ (domain ++ path)) ≠ some 0 :=
        fun heq => hnot (find_eq_zero.mp heq)
      simp only [Bool.false_eq_true, if_false, hother, hscheme, if_true]
      rw [show (ascii "http://" ++ (domain ++ path)).drop 7 = domain ++ path from rfl, hslash, hport]
      simp

end Urls

/-- The request of the client. -/
def clientRequest (domain path : List UInt8) : Request where
  target := path
  fields := [{ name := ascii "Host", before := [32], value := domain },
    { name := ascii "Connection", before := [32], value := ascii "close" }]

section Requests

variable {domain path : List UInt8}

theorem requestText_eq (domain path : List UInt8) : requestText domain path = (clientRequest domain path).text := by
  have h : ascii "GET " = ascii "GET" ++ [32] ∧ ascii " HTTP/1.1\r\n" = [32] ++ ascii "HTTP/1.1" ++ crlf ∧
      ascii "Host: " = ascii "Host" ++ [58] ++ [32] ∧ ascii "\r\n" = crlf ∧
      ascii "Connection: close\r\n" = ascii "Connection" ++ [58] ++ [32] ++ ascii "close" ++ crlf := by
    decide
  obtain ⟨hget, hversion, hhost, hcrlf, hconnection⟩ := h
  simp [requestText, clientRequest, Request.text, Request.method, Request.version, Request.lines, Field.text,
    hget, hversion, hhost, hcrlf, hconnection]

/-- Bytes that may stand in the URL of a page. -/
def Printed (s : List UInt8) : Prop := ∀ c ∈ s, 33 ≤ c ∧ c < 127 ∧ c ≠ 35

instance (s : List UInt8) : Decidable (Printed s) := inferInstanceAs (Decidable (∀ c ∈ s, _))

theorem Printed.notMem {s : List UInt8} (h : Printed s) {c : UInt8} (hc : c < 33) : c ∉ s := fun hmem =>
  absurd (h c hmem).1 (by rwa [UInt8.not_le])

theorem Printed.trim {s : List UInt8} (h : Printed s) : trim s = s := by
  have hblank : ∀ c ∈ s, blank c = false := fun c hc => by
    have hne {b : UInt8} (hb : b < 33) : c ≠ b := fun heq => h.notMem hb (heq ▸ hc)
    simp [blank, hne (show (32 : UInt8) < 33 by decide), hne (show (9 : UInt8) < 33 by decide)]
  have hdrop : s.dropWhile blank = s := by
    cases s with
    | nil => rfl
    | cons c s => rw [List.dropWhile_cons_of_neg (by simp [hblank c List.mem_cons_self])]
  rw [Http.trim, hdrop]
  induction s using List.reverseRecOn with
  | nil => rfl
  | append_singleton s c _ =>
    exact List.rdropWhile_concat_neg _ _ _ (by simp [hblank c (by simp)])

theorem clientRequest_sound (hdomain : Printed domain) (hne : domain ≠ []) (hpath : Printed path)
    (habsolute : path.head? = some 47) : (clientRequest domain path).Sound := by
  have hhost : named "host" (clientRequest domain path).fields =
      [{ name := ascii "Host", before := [32], value := domain }] := rfl
  have hlength : named "content-length" (clientRequest domain path).fields = [] := rfl
  have hnotMem : 13 ∉ path := hpath.notMem (by decide)
  refine ⟨⟨habsolute, fun hmem => (hpath 35 hmem).2.2 rfl, hpath.notMem (by decide),
    fun hin => hnotMem (hin.subset List.mem_cons_self), ?_, ?_, ?_, ?_, ?_, ?_, rfl⟩, ?_⟩
  · simp only [clientRequest, List.forall_mem_cons, List.not_mem_nil, false_imp_iff, implies_true, and_true]
    refine ⟨⟨show tokenName (ascii "Host") = true by decide +kernel, rfl, rfl, hdomain.trim, fun _ => rfl,
      fun c hc => .inl ?_⟩, ⟨by decide +kernel, by decide +kernel, rfl, by decide +kernel, fun _ => rfl, by decide +kernel⟩⟩
    exact UInt8.le_trans (by decide : (32 : UInt8) ≤ 33) (hdomain c hc).1
  · rw [hhost]
    exact Nat.le_refl 1
  · rw [hhost]
    simpa using hne
  · rw [hhost]
    simp
  · rw [hlength]
    exact Nat.zero_le 1
  · rw [hlength]
    nofun
  · have hprinted {s : List UInt8} (hs : Printed s) : ∀ c ∈ s, bareControl c = false := fun c hc => by
      obtain ⟨hlow, hhigh, -⟩ := hs c hc
      have hlow : ¬c < 32 := by
        rw [UInt8.not_lt]
        exact UInt8.le_trans (by decide) hlow
      simp [bareControl, UInt8.not_le.mpr hhigh, hlow]
    rw [← requestText_eq]
    unfold requestText
    simp only [List.forall_mem_append]
    refine ⟨⟨⟨by decide +kernel, hprinted hpath⟩, by decide +kernel⟩,
      ⟨⟨by decide +kernel, hprinted hdomain⟩, by decide +kernel⟩, by decide +kernel, by decide +kernel⟩

theorem clientRequest_closes (domain path : List UInt8) : (clientRequest domain path).closes = true := by
  have htoken : (clientRequest domain path).hasToken "close" = true := by
    rw [Request.hasToken, show named "connection" (clientRequest domain path).fields =
      [{ name := ascii "Connection", before := [32], value := ascii "close" }] from rfl]
    decide
  rw [Request.closes, if_pos htoken]

end Requests

section Reading

variable {r : Request} {response : List UInt8}

theorem page_status (r : Request) : r.page.status = 200 ∨ r.page.status = 404 := by
  unfold Request.page respondTo
  rw [if_neg (by simp [Request.parsed])]
  dsimp only
  split
  · exact .inl rfl
  · split
    · exact .inl rfl
    · exact .inr rfl

theorem page_known (r : Request) : r.page.Known := known_respondTo (.inl rfl)

/-- No page is taken for a redirect. -/
theorem not_redirect {r : Response} (hr : r.status = 200 ∨ r.status = 404) {headers : List UInt8}
    (rest : List UInt8)
    (h : headers ++ rest = firstLine r.status r.http10 ++ (crlf ++ block r.lines.tail)) :
    isRedirect headers = false := by
  have hfirst : ∀ http10, (((firstLine 200 http10).drop 9).take 3 = ascii "200" ∧ 12 ≤ (firstLine 200 http10).length) ∧
      ((firstLine 404 http10).drop 9).take 3 = ascii "404" ∧ 12 ≤ (firstLine 404 http10).length := by
    decide +kernel
  have hline : ((firstLine r.status r.http10).drop 9).take 3 ∉ redirectCodes ∧
      12 ≤ (firstLine r.status r.http10).length := by
    obtain ⟨⟨hcode, hlong⟩, hcode', hlong'⟩ := hfirst r.http10
    rcases hr with heq | heq
    · rw [heq, hcode]
      exact ⟨by decide, hlong⟩
    · rw [heq, hcode']
      exact ⟨by decide, hlong'⟩
  have hpre {line : List UInt8} (hline' : line <+: headers) (hlong : 12 ≤ line.length) :
      (line.drop 9).take 3 ∉ redirectCodes := by
    obtain ⟨tail, rfl⟩ := hline'
    have hcut (s t : List UInt8) (hs : 12 ≤ s.length) : ((s ++ t).drop 9).take 3 = (s.drop 9).take 3 := by
      rw [List.drop_append_of_le_length (by omega), List.take_append_of_le_length]
      rw [List.length_drop]
      omega
    rw [List.append_assoc] at h
    rw [← hcut line (tail ++ rest) hlong, h, hcut _ _ hline.2]
    exact hline.1
  unfold isRedirect
  dsimp only
  generalize hstatus : (match find crlf headers with
    | some stop => headers.take stop
    | none => headers) = line
  have hprefix : line <+: headers := by
    rw [← hstatus]
    split
    · exact List.take_prefix _ _
    · exact List.prefix_rfl
  by_cases hlong : 12 ≤ line.length
  · have hnot : redirectCodes.contains ((line.drop 9).take 3) = false := by
      rw [List.contains_eq_mem]
      exact decide_eq_false (hpre hprefix hlong)
    rw [hnot, Bool.and_false]
  · simp [hlong]

/-- The client shows of a page what it has got of the body, once it has the header. -/
theorem readPage_page (r : Request) (h : response <+: r.page.text) :
    readPage response = .inl .incomplete ∧ response ≠ r.page.text ∨
      ∃ body, readPage response = .inl (.page body) ∧ body <+: r.page.content ∧
        (response = r.page.text → body = r.page.content) := by
  have hlines := r.page.lines_eq ▸ (page_known r).line
  obtain ⟨header, hclear, hblock, -⟩ := block_split _ _ hlines
  rw [← r.page.lines_eq] at hblock
  have htext : r.page.text = header ++ (blankLine ++ r.page.content) := by
    rw [r.page.text_eq, hblock, List.append_assoc]
  have hwhole : find blankLine r.page.text = some header.length := by
    rw [htext]
    exact hclear.find blankLine_ne_nil _
  obtain ⟨missing, hmissing⟩ := h
  unfold readPage
  cases hfind : find blankLine response with
  | none =>
    refine .inl ⟨rfl, fun heq => ?_⟩
    rw [heq, hwhole] at hfind
    cases hfind
  | some headerEnd =>
    have hend := find_append hfind blankLine_ne_nil missing
    rw [hmissing, hwhole] at hend
    obtain rfl := Option.some.inj hend
    have hle := find_le hfind blankLine_ne_nil
    have hfour : blankLine.length = 4 := rfl
    have htake : response.take header.length = header := by
      have heq := congrArg (List.take header.length) (hmissing.trans htext)
      rwa [List.take_append_of_le_length (by omega), List.take_left] at heq
    have hdrop : response.drop (header.length + 4) ++ missing = r.page.content := by
      have heq := congrArg (List.drop (header.length + 4)) (hmissing.trans htext)
      rw [List.drop_append_of_le_length (by omega), ← List.drop_drop (l := header ++ _),
        List.drop_left] at heq
      exact heq
    have hnot : isRedirect header = false := by
      refine not_redirect (page_status r) blankLine ?_
      rw [← hblock, r.page.lines_eq, block_cons]
      rfl
    dsimp only
    rw [htake, hnot, if_neg (by simp)]
    refine .inr ⟨_, rfl, ⟨missing, hdrop⟩, fun heq => ?_⟩
    rw [heq] at hmissing
    have hnil : missing = [] := List.self_eq_append_right.mp hmissing.symm
    rw [← hdrop, hnil, List.append_nil]

end Reading

/-- A URL whose page the client can ask the server for. -/
structure Askable (max : ℕ) (url : List UInt8) : Prop where
  domain : Printed (parseUrl url).domain ∧ (parseUrl url).domain ≠ []
  path : Printed (parseUrl url).path
  fits : (requestText (parseUrl url).domain (parseUrl url).path).length ≤ max

/-- The page of a URL. -/
def pageOf (url : List UInt8) : Response := (clientRequest (parseUrl url).domain (parseUrl url).path).page

/-- The client that has sent its request over a connection of the server and reads until
the end shows the page of its URL, or the first part of it if the server has not sent all,
or finds the header incomplete. -/
theorem Server.run_fetch (limits : Limits) (h : ℕ → Host) (ops : List Op) (id : ℕ) {url : List UInt8}
    (hurl : Askable limits.maxHeaderBytes url) (left : ℕ)
    (hreceived : requestText (parseUrl url).domain (parseUrl url).path <+:
      ((run limits h ops).record id).conn.received) :
    let response := handed ((run limits h ops).record id).conn.calls
    let shown := fetch (fun _ => some response) (left + 1) url
    response <+: (pageOf url).text ∧
      (shown = .incomplete ∨ ∃ body, shown = .page body ∧ body <+: (pageOf url).body) ∧
      (response = (pageOf url).text → shown = .page (pageOf url).body) := by
  intro response shown
  obtain ⟨⟨hdomain, hne⟩, hpath, hfits⟩ := hurl
  have hsound := clientRequest_sound hdomain hne hpath (parseUrl_proper url).path
  have hcloses := clientRequest_closes (parseUrl url).domain (parseUrl url).path
  rw [requestText_eq] at hfits hreceived
  obtain ⟨sent, unsent, hanswers, haccepted, hhanded, -⟩ := (run_good limits h ops).answers id
  obtain ⟨more, hmore⟩ := hreceived
  rw [← hmore, answers_closing hsound hcloses hfits] at hanswers
  have hpre : response <+: (pageOf url).text := by
    refine hhanded.trans ?_
    rw [haccepted]
    cases sent with
    | nil => exact List.nil_prefix
    | cons r sent =>
      obtain ⟨rfl, hnil⟩ := List.cons.inj hanswers
      obtain ⟨rfl, -⟩ := List.append_eq_nil_iff.mp hnil.symm
      simp [pageOf]
  have hcontent : (pageOf url).content = (pageOf url).body := by
    have hhead : (pageOf url).head = false := by
      unfold pageOf Request.page respondTo
      rw [if_neg (by simp [Request.parsed])]
      dsimp only
      split
      · rfl
      · split <;> rfl
    rw [Response.content, hhead]
    rfl
  have hshown : shown = match readPage response with
      | .inl outcome => outcome
      | .inr redirectUrl => fetch (fun _ => some response) left redirectUrl := by
    show fetch _ (left + 1) url = _
    rw [fetch, if_neg hne]
  refine ⟨hpre, ?_⟩
  rcases readPage_page _ hpre with ⟨hread, hpart⟩ | ⟨body, hread, hbody, hall⟩
  · rw [hread] at hshown
    exact ⟨.inl hshown, fun heq => absurd heq hpart⟩
  · rw [hread] at hshown
    dsimp only at hshown
    rw [← hcontent]
    exact ⟨.inr ⟨body, hshown, hbody⟩, fun heq => hall heq ▸ hshown⟩

/-- A client of `http://a/health` whose request comes in two reads. -/
theorem Server.run_fetch_health :
    let url := ascii "http://a/health"
    let text := requestText (ascii "a") (ascii "/health")
    let h : ℕ → Host := fun _ => { Host.steady with send := fun _ => ⟨101, 0⟩ }
    let ops : List Op := [.start true true, .poll [
      .listen [⟨{ sockfd := some 3, connected := true, blocking := false }, rfl⟩] 0,
      .data 0 ⟨text.take 20, by decide⟩ 1, .data 0 ⟨text.drop 20, by decide⟩ 2, .writable 0] 3 false]
    fetch (fun _ => some (handed ((run {} h ops).record 0).conn.calls)) maxRedirects url =
      .page (ascii "ok\n") := by
  intro url text h ops
  have hurl : Askable 8192 url := ⟨⟨by decide +kernel, by decide +kernel⟩, by decide +kernel, by decide +kernel⟩
  have hreceived : requestText (parseUrl url).domain (parseUrl url).path <+:
      ((run {} h ops).record 0).conn.received := by decide +kernel
  obtain ⟨-, -, hshown⟩ := run_fetch {} h ops 0 hurl 4 hreceived
  exact hshown (by decide +kernel)

end Aeon.Http
