import Aeon.Library.Search
import Aeon.Library.Decimal
import Mathlib.Data.List.DropRight

/-!
# Requests of the HTTP server

`parse` of the HTTP server, on the bytes up to the end of the headers of one
request.
-/

namespace Aeon.Http

open Search

/-- The bytes of an ASCII text. -/
def ascii (s : String) : List UInt8 := s.toList.map fun c => c.toNat.toUInt8

def crlf : List UInt8 := [13, 10]
def blankLine : List UInt8 := [13, 10, 13, 10]

/-- `std::tolower` on every byte, in the C locale. -/
def lower (input : List UInt8) : List UInt8 := input.map fun c => if 65 ≤ c ∧ c ≤ 90 then c + 32 else c

def blank (c : UInt8) : Bool := c = 32 || c = 9

def trim (s : List UInt8) : List UInt8 := (s.dropWhile blank).rdropWhile blank

/-- `std::isalnum`, in the C locale. -/
def isAlnum (c : UInt8) : Bool := (48 ≤ c && c ≤ 57) || (65 ≤ c && c ≤ 90) || (97 ≤ c && c ≤ 122)

def tokenExtra : List UInt8 := ascii "!#$%&'*+-.^_`|~"

def tokenName (s : List UInt8) : Bool := !s.isEmpty && s.all fun c => isAlnum c || tokenExtra.contains c

/-- One of the items between commas is the token, in whatever case.  The loop of the
source leaves out an empty item at the end, which is no token. -/
def containsToken (commaSeparated token : List UInt8) : Bool :=
  (commaSeparated.splitOn 44).any fun item => lower (trim item) = token

/-- `std::from_chars` of a 64-bit number, if it takes the whole text. -/
def fromChars (s : List UInt8) : Option ℕ :=
  if s ≠ [] ∧ s.all Decimal.isDigit ∧ Decimal.value s < UInt64.size then some (Decimal.value s) else none

structure ParsedRequest where
  error : ℕ := 0
  head : Bool := false
  close : Bool := true
  http10 : Bool := false
  path : List UInt8 := []
  deriving DecidableEq, Repr

/-- What the loop over the header lines has counted and collected. -/
structure Headers where
  hosts : ℕ := 0
  lengths : ℕ := 0
  requestBody : Bool := false
  connection : List UInt8 := []
  deriving DecidableEq, Repr

/-- Bytes that a request may not have anywhere. -/
def bareControl (c : UInt8) : Bool := 127 ≤ c || (c < 32 && c ≠ 13 && c ≠ 10 && c ≠ 9)

/-- The method, the target and the version between the two spaces of the first line. -/
def startLine (start : List UInt8) : Except ℕ (List UInt8 × List UInt8 × List UInt8) :=
  match find [32] start with
  | none => .error 400
  | some sp1 =>
    let rest := start.drop (sp1 + 1)
    match find [32] rest with
    | none => .error 400
    | some n =>
      let method := start.take sp1
      let target := rest.take n
      let version := rest.drop (n + 1)
      if find [32] version ≠ none ∨ sp1 = 0 ∨ n = 0 ∨ version = [] then .error 400
      else if !tokenName method || target.isEmpty || target.head? ≠ some 47 || target.contains 35 ||
          target.contains 32 then .error 400
      else if version ≠ ascii "HTTP/1.1" ∧ version ≠ ascii "HTTP/1.0" then
        .error (if version.take 5 = ascii "HTTP/" then 505 else 400)
      else .ok (method, target, version)

def headerLine (line : List UInt8) (h : Headers) : Except ℕ Headers :=
  match find [58] line with
  | none => .error 400
  | some colon =>
    if !tokenName (line.take colon) then .error 400
    else
      let field := lower (line.take colon)
      let value := trim (line.drop (colon + 1))
      if value.any fun c => c = 13 || c = 10 || (c < 32 && c ≠ 9) then .error 400
      else if field = ascii "host" then
        if h.hosts + 1 ≠ 1 ∨ value = [] then .error 400 else .ok { h with hosts := h.hosts + 1 }
      else if field = ascii "content-length" then
        if h.lengths + 1 ≠ 1 ∨ value = [] then .error 400
        else match fromChars value with
          | none => .error 400
          | some length => .ok { h with
              lengths := h.lengths + 1
              requestBody := h.requestBody || length ≠ 0 }
      else if field = ascii "transfer-encoding" then .error 501
      else if field = ascii "connection" then
        .ok { h with connection := if h.connection = [] then value else h.connection ++ [44] ++ value }
      else .ok h

/-- The loop over the header lines of what follows the first line.  The last two
bytes of it end the headers. -/
def headerLines : ℕ → List UInt8 → Headers → Except ℕ Headers
  | 0, _, h => .ok h
  | fuel + 1, rest, h =>
    if rest.length ≤ 2 then .ok h
    else match find crlf rest with
      | none => .error 400
      | some stop =>
        if rest.length < stop + 2 then .error 400
        else if rest.take stop = [] then .ok h
        else match headerLine (rest.take stop) h with
          | .error e => .error e
          | .ok h => headerLines fuel (rest.drop (stop + 2)) h

def parse (raw : List UInt8) : ParsedRequest :=
  if raw.length < 4 ∨ raw.drop (raw.length - 4) ≠ blankLine then { error := 400 }
  else if raw.any bareControl then { error := 400 }
  else match find crlf raw with
    | none => { error := 400 }
    | some firstEnd =>
      match startLine (raw.take firstEnd) with
      | .error e => { error := e }
      | .ok (method, target, version) =>
        let http11 := version = ascii "HTTP/1.1"
        let p : ParsedRequest := {
          http10 := !http11
          close := !http11
          head := method = ascii "HEAD"
          path := target.takeWhile (· ≠ 63) }
        match headerLines raw.length (raw.drop (firstEnd + 2)) {} with
        | .error e => { p with error := e }
        | .ok h =>
          if http11 ∧ h.hosts ≠ 1 then { p with error := 400 }
          else
            let p := if containsToken h.connection (ascii "close") then { p with close := true }
              else if containsToken h.connection (ascii "keep-alive") then { p with close := false }
              else p
            if h.requestBody then { p with error := 413 }
            else if method ≠ ascii "GET" ∧ method ≠ ascii "HEAD" then { p with error := 405 }
            else p

example : parse (ascii "GET /health?a HTTP/1.1\r\nHost: a\r\nConnection: x, Close\r\n\r\n") =
    { path := ascii "/health" } := by decide +kernel

end Aeon.Http
