import Aeon.EventSocket
import Aeon.SocketIo
import Aeon.SslSocket
import Aeon.Udp

/-!
# The lengths of strings that are written

The `write` overloads for C strings and for `std::string`, of the plain, the TLS,
the event and the datagram sockets.  A length is a `std::size_t`, the sizes of
the other overloads are `int`, and the native functions take a `std::size_t`
again, or an `int` in the case of `SSL_write`.
-/

namespace Aeon

/-- `static_cast<int>` of a length. -/
def toInt (n : Int) : Int := (n + 2147483648) % 4294967296 - 2147483648

/-- An `int` as a `std::size_t`. -/
def toSize (n : Int) : ℕ := (n % 18446744073709551616).toNat

theorem toInt_of_le {n : ℕ} (h : n ≤ intMax) : toInt n = n := by
  unfold toInt intMax at *
  omega

theorem toSize_of_le {n : ℕ} (h : n ≤ intMax) : toSize n = n := by
  unfold toSize intMax at *
  omega

/-- The lengths that come back from an `int`: the small ones, and those at the
other end that become negative and are extended again. -/
theorem toSize_toInt_iff {n : ℕ} (h : n < 2 ^ 64) :
    toSize (toInt n) = n ↔ n ≤ intMax ∨ 2 ^ 64 - 2 ^ 31 ≤ n := by
  unfold toSize toInt intMax
  omega

theorem toInt_iff {n : ℕ} : toInt n = n ↔ n ≤ intMax := by
  unfold toInt intMax
  omega

/-- The overloads that take a string.  A null pointer is `none`, and a C string is
given without its terminator. -/
inductive Text
  | chars (data : Option (List UInt8))
  | constChars (data : Option (List UInt8))
  | string (data : List UInt8)

/-- The length of the payload. -/
def Text.length : Text → ℕ
  | .chars data => (data.getD []).length
  | .constChars data => (data.getD []).length
  | .string data => data.length

/-- What a write returns, and the length that it has given to the native call, if it
has made one. -/
structure Written where
  ret : Int
  length : Option Int := none
  deriving DecidableEq, Repr

namespace Socket

variable (h : Host)

/-- The `send` of the overloads, with its length narrowed to an `int`. -/
def sendNarrowed (data : List UInt8) (s : Socket) : Written × Socket :=
  let answer := s.nativeSend h
  let sent := toInt answer.1.ret
  (⟨sent, some (toSize (toInt data.length))⟩,
    answer.2.setError (if sent < 0 then translateNativeError answer.1.errno else errNone))

/-- The arguments are refused. -/
def refuseWrite (s : Socket) : Written × Socket :=
  (⟨-1, none⟩, s.setError (if s.isValidSocket then errInvalidArgument else errNoSocket))

/-- `write(char*)`. -/
def writeChars (data : Option (List UInt8)) (s : Socket) : Written × Socket :=
  match data with
  | none => s.refuseWrite
  | some data =>
    if !s.isValidSocket then s.refuseWrite
    else if data.length = 0 then (⟨0, none⟩, s)
    else s.sendNarrowed h data

/-- `write(const char*)`. -/
def writeConstChars (data : Option (List UInt8)) (s : Socket) : Written × Socket := s.writeChars h data

/-- `write(const std::string&)`. -/
def writeString (data : List UInt8) (s : Socket) : Written × Socket :=
  if !s.isValidSocket || data.length = 0 then s.refuseWrite else s.sendNarrowed h data

def write : Text → Socket → Written × Socket
  | .chars data => writeChars h data
  | .constChars data => writeConstChars h data
  | .string data => writeString h data

end Socket

namespace SslSocket

variable {κ : Type} (h : SslHost)

/-- `write(data, size)`, which gives the size to `SSL_write` as it is.  `SSL_write`
refuses a negative length. -/
def writeSized (data : List UInt8) (size : Int) (c : SslSocket κ) : Written × SslSocket κ :=
  match c.session with
  | none => (⟨errNoSocket, none⟩, c.setError errNoSocket)
  | some s =>
    if !c.connected then (⟨errNoSocket, none⟩, c.setError errNoSocket)
    else
      let answer := h.sslWrite c.tick size.toNat
      let c := (c.onSocket Socket.ticked).record
        (.sslWrite s.id .direct (data.take size.toNat) answer false 0)
      if answer.ret ≤ 0 then
        (⟨sslErrorIo, some size⟩, if answer.code ≠ .none then c.setError sslErrorIo else c)
      else (⟨answer.ret, some size⟩, c)

/-- `write(char*)`. -/
def writeChars (data : Option (List UInt8)) (c : SslSocket κ) : Written × SslSocket κ :=
  match data with
  | none => (⟨sslError, none⟩, c.setError sslError)
  | some data => c.writeSized h data (toInt data.length)

/-- `write(const char*)`. -/
def writeConstChars (data : Option (List UInt8)) (c : SslSocket κ) : Written × SslSocket κ :=
  c.writeChars h data

/-- `write(const std::string&)`. -/
def writeString (data : List UInt8) (c : SslSocket κ) : Written × SslSocket κ :=
  c.writeSized h data (toInt data.length)

def writeText : Text → SslSocket κ → Written × SslSocket κ
  | .chars data => writeChars h data
  | .constChars data => writeConstChars h data
  | .string data => writeString h data

/-- Of a payload that fits into an `int` the call is `SslSocket.write`. -/
theorem writeString_eq {data : List UInt8} (hdata : data.length ≤ intMax) (c : SslSocket κ) :
    (c.writeString h data).1.ret = (c.write h data).1 ∧ (c.writeString h data).2 = (c.write h data).2 := by
  unfold writeString writeSized write
  rw [toInt_of_le hdata, Int.toNat_natCast, List.take_length]
  cases c.session with
  | none => exact ⟨rfl, rfl⟩
  | some s =>
    dsimp only
    split
    · exact ⟨rfl, rfl⟩
    · split
      · exact ⟨rfl, rfl⟩
      · exact ⟨rfl, rfl⟩

end SslSocket

namespace EventSocket

variable (h : Host)

/-- `write(data, size)` up to its handlers, which are called when it has been sent. -/
def writeSized (size : Int) (s : EventSocket) : Written × EventSocket :=
  if !s.isValidSocket || size ≤ 0 then
    (⟨-1, none⟩, { s with errorCode := if s.isValidSocket then errInvalidArgument else errNoSocket })
  else
    let answer := s.toSocket.nativeSend h
    let sent := toInt answer.1.ret
    let code := if sent < 0 then translateNativeError answer.1.errno else errNone
    (⟨sent, some (toSize size)⟩, { s with toSocket := answer.2.setError code })

/-- `write(const char*)`. -/
def writeConstChars (data : Option (List UInt8)) (s : EventSocket) : Written × EventSocket :=
  match data with
  | none => (⟨-1, none⟩, s)
  | some data =>
    if !s.isValidSocket then (⟨-1, none⟩, s)
    else if data.length = 0 then (⟨0, none⟩, s)
    else if data.length > intMax then (⟨-1, none⟩, s)
    else s.writeSized h (toInt data.length)

/-- `write(char*)`. -/
def writeChars (data : Option (List UInt8)) (s : EventSocket) : Written × EventSocket :=
  s.writeConstChars h data

/-- `write(const std::string&)`. -/
def writeString (data : List UInt8) (s : EventSocket) : Written × EventSocket :=
  if !s.isValidSocket || data.length = 0 || data.length > intMax then (⟨-1, none⟩, s)
  else s.writeSized h (toInt data.length)

def write : Text → EventSocket → Written × EventSocket
  | .chars data => writeChars h data
  | .constChars data => writeConstChars h data
  | .string data => writeString h data

end EventSocket

/-- The object that a datagram is sent through, and the answer to its `sendto`. -/
structure Datagrams where
  valid : Bool
  fd : ℕ
  family : Family
  remote : Sockaddr
  answer : IoResult

namespace Datagrams

/-- `send_datagram`. -/
def send (data : List UInt8) (size : Int) (d : Datagrams) : Written :=
  let sent := sendDatagram d.valid d.fd d.family d.remote d.answer (some data) size
  ⟨sent.ret, sent.call.map fun _ => (toSize size : Int)⟩

/-- `write(char*)`. -/
def writeChars (data : Option (List UInt8)) (d : Datagrams) : Written :=
  match data with
  | none => ⟨-1, none⟩
  | some data => if data.length > intMax then ⟨-1, none⟩ else d.send data (toInt data.length)

/-- `write(const char*)`. -/
def writeConstChars (data : Option (List UInt8)) (d : Datagrams) : Written :=
  match data with
  | none => ⟨-1, none⟩
  | some data => if data.length > intMax then ⟨-1, none⟩ else d.send data (toInt data.length)

/-- `write(const std::string&)`. -/
def writeString (data : List UInt8) (d : Datagrams) : Written :=
  if data.length > intMax then ⟨-1, none⟩ else d.send data (toInt data.length)

def write : Text → Datagrams → Written
  | .chars data => writeChars data
  | .constChars data => writeConstChars data
  | .string data => writeString data

end Datagrams

/-! ### What the overloads hand on -/

/-- The native call is given the length of the payload, or there is none: the call
reports an error, or that it has written the nothing that there was. -/
def Exact (length : ℕ) (w : Written) : Prop :=
  match w.length with
  | some given => given = length
  | none => w.ret < 0 ∨ length = 0 ∧ w.ret = 0

/-- A call of one of the overloads. -/
inductive TextWrite (κ : Type)
  | socket (s : Socket) (text : Text)
  | ssl (c : SslSocket κ) (text : Text)
  | event (s : EventSocket) (text : Text)
  | udp (d : Datagrams) (text : Text)

namespace TextWrite

variable {κ : Type}

def text : TextWrite κ → Text
  | .socket _ text | .ssl _ text | .event _ text | .udp _ text => text

def run (h : SslHost) : TextWrite κ → Written
  | .socket s text => (s.write h.toHost text).1
  | .ssl c text => (c.writeText h text).1
  | .event s text => (s.write h.toHost text).1
  | .udp d text => d.write text

/-- The call gets as far as a native function, with a length that is not the same
after the conversions. -/
def Wraps : TextWrite κ → Prop
  | .socket s text => s.isValidSocket ∧ intMax < text.length ∧ text.length < 2 ^ 64 - 2 ^ 31
  | .ssl c text => c.session.isSome ∧ c.connected ∧ intMax < text.length
  | .event _ _ | .udp _ _ => False

end TextWrite

theorem exact_refused {ret : Int} (h : ret < 0) (length : ℕ) : Exact length ⟨ret, none⟩ := .inl h

theorem Socket.sendNarrowed_exact_iff (h : Host) {data : List UInt8} (hlength : data.length < 2 ^ 64)
    (s : Socket) : Exact data.length (s.sendNarrowed h data).1 ↔
      data.length ≤ intMax ∨ 2 ^ 64 - 2 ^ 31 ≤ data.length := by
  rw [← toSize_toInt_iff hlength]
  exact Int.natCast_inj

/-- A length that wraps and one that does not. -/
theorem not_wraps_iff {n : ℕ} : (n ≤ intMax ∨ 2 ^ 64 - 2 ^ 31 ≤ n) ↔ ¬ (intMax < n ∧ n < 2 ^ 64 - 2 ^ 31) := by
  omega

theorem Socket.writeChars_exact_iff (h : Host) {data : Option (List UInt8)}
    (hlength : (data.getD []).length < 2 ^ 64) (s : Socket) :
    Exact (data.getD []).length (s.writeChars h data).1 ↔
      ¬ (s.isValidSocket ∧ intMax < (data.getD []).length ∧ (data.getD []).length < 2 ^ 64 - 2 ^ 31) := by
  cases data with
  | none => exact iff_of_true (exact_refused (by decide) _) fun hwraps => absurd hwraps.2.1 (Nat.not_lt_zero _)
  | some data =>
    simp only [Option.getD_some] at hlength ⊢
    unfold Socket.writeChars
    cases hvalid : s.isValidSocket with
    | false => exact iff_of_true (exact_refused (by decide) _) fun hwraps => absurd hwraps.1 Bool.false_ne_true
    | true =>
      by_cases hempty : data.length = 0
      · simp only [hempty, Bool.not_true, Bool.false_eq_true, if_false, if_true]
        exact iff_of_true (.inr ⟨rfl, rfl⟩) fun hwraps => absurd hwraps.2.1 (Nat.not_lt_zero _)
      · simp only [hempty, Bool.not_true, Bool.false_eq_true, if_false, true_and]
        rw [sendNarrowed_exact_iff h hlength, not_wraps_iff]

theorem Socket.writeString_exact_iff (h : Host) {data : List UInt8} (hlength : data.length < 2 ^ 64)
    (s : Socket) : Exact data.length (s.writeString h data).1 ↔
      ¬ (s.isValidSocket ∧ intMax < data.length ∧ data.length < 2 ^ 64 - 2 ^ 31) := by
  unfold Socket.writeString
  by_cases hrefused : (!s.isValidSocket || data.length = 0) = true
  · rw [if_pos hrefused]
    refine iff_of_true (exact_refused (by decide) _) ?_
    rintro ⟨hvalid, hlong, -⟩
    simp only [hvalid, Bool.not_true, Bool.false_or, decide_eq_true_eq] at hrefused
    omega
  · rw [if_neg hrefused, sendNarrowed_exact_iff h hlength, not_wraps_iff]
    have hvalid : s.isValidSocket = true := by
      by_contra hinvalid
      exact hrefused (by simp [hinvalid])
    simp only [hvalid, true_and]

theorem SslSocket.writeSized_exact_iff {κ : Type} (h : SslHost) (data : List UInt8) (c : SslSocket κ) :
    Exact data.length (c.writeSized h data (toInt data.length)).1 ↔
      ¬ (c.session.isSome ∧ c.connected ∧ intMax < data.length) := by
  unfold SslSocket.writeSized
  cases hsession : c.session with
  | none => exact iff_of_true (exact_refused (by decide) _) fun hwraps => absurd hwraps.1 Bool.false_ne_true
  | some s =>
    dsimp only
    cases hconnected : c.connected with
    | false => exact iff_of_true (exact_refused (by decide) _) fun hwraps => absurd hwraps.2.1 Bool.false_ne_true
    | true =>
      have hgiven : toInt data.length = data.length ↔ ¬ intMax < data.length := toInt_iff.trans not_lt.symm
      simp only [Bool.not_true, Bool.false_eq_true, if_false, Option.isSome_some, true_and]
      split
      · exact hgiven
      · exact hgiven

theorem EventSocket.writeSized_exact (h : Host) {n : ℕ} (hn : n ≤ intMax) (s : EventSocket) :
    Exact n (s.writeSized h (toInt n)).1 := by
  unfold EventSocket.writeSized
  split
  · exact exact_refused (by decide) n
  · rw [toInt_of_le hn]
    exact congr_arg Nat.cast (toSize_of_le hn)

theorem EventSocket.writeConstChars_exact (h : Host) (data : Option (List UInt8)) (s : EventSocket) :
    Exact (data.getD []).length (s.writeConstChars h data).1 := by
  unfold EventSocket.writeConstChars
  cases data with
  | none => exact exact_refused (by decide) _
  | some data =>
    dsimp only [Option.getD_some]
    split
    · exact exact_refused (by decide) _
    · split
      · rename_i hempty
        exact .inr ⟨hempty, rfl⟩
      · split
        · exact exact_refused (by decide) _
        · exact writeSized_exact h (not_lt.mp ‹_›) s

theorem EventSocket.write_exact (h : Host) (text : Text) (s : EventSocket) :
    Exact text.length (s.write h text).1 := by
  cases text with
  | chars data => exact writeConstChars_exact h data s
  | constChars data => exact writeConstChars_exact h data s
  | string data =>
    unfold EventSocket.write EventSocket.writeString
    dsimp only
    split
    · exact exact_refused (by decide) _
    · rename_i hgoes
      refine writeSized_exact h ?_ s
      simp only [Bool.or_eq_true, decide_eq_true_eq, not_or, not_lt] at hgoes
      exact hgoes.2

theorem Datagrams.send_exact {data : List UInt8} (hdata : data.length ≤ intMax) (d : Datagrams) :
    Exact data.length (d.send data (toInt data.length)) := by
  unfold Datagrams.send sendDatagram
  rw [toInt_of_le hdata, toSize_of_le hdata]
  split
  · exact exact_refused (show (-1 : Int) < 0 by decide) _
  · split
    · exact exact_refused (show (-1 : Int) < 0 by decide) _
    · exact rfl

theorem Datagrams.writeString_exact (data : List UInt8) (d : Datagrams) :
    Exact data.length (d.writeString data) := by
  unfold Datagrams.writeString
  split
  · exact exact_refused (by decide) _
  · exact send_exact (not_lt.mp ‹_›) d

theorem Datagrams.write_exact (text : Text) (d : Datagrams) : Exact text.length (d.write text) := by
  cases text with
  | chars data | constChars data =>
    cases data with
    | none => exact exact_refused (by decide) _
    | some data => exact writeString_exact data d
  | string data => exact writeString_exact data d

/-- The event sockets and the datagram sockets compare a length with `INT_MAX` first.
The others hand a longer one on as what is left of it in an `int`. -/
theorem run_exact_iff {κ : Type} (h : SslHost) (call : TextWrite κ) (hlength : call.text.length < 2 ^ 64) :
    Exact call.text.length (call.run h) ↔ ¬ call.Wraps := by
  cases call with
  | socket s text =>
    cases text with
    | chars data => exact Socket.writeChars_exact_iff h.toHost hlength s
    | constChars data => exact Socket.writeChars_exact_iff h.toHost hlength s
    | string data => exact Socket.writeString_exact_iff h.toHost hlength s
  | ssl c text =>
    cases text with
    | chars data | constChars data =>
      cases data with
      | none =>
        exact iff_of_true (exact_refused (by decide) _) fun hwraps => absurd hwraps.2.2 (Nat.not_lt_zero _)
      | some data => exact SslSocket.writeSized_exact_iff h data c
    | string data => exact SslSocket.writeSized_exact_iff h data c
  | event s text => exact iff_of_true (EventSocket.write_exact h.toHost text s) id
  | udp d text => exact iff_of_true (Datagrams.write_exact text d) id

/-- "hi" on a connected TLS socket. -/
def shortText : TextWrite Unit :=
  .ssl { toSocket := { sockfd := some 3, connected := true }, session := some ⟨0, (), some 3, none, true, true⟩ }
    (.chars (some [104, 105]))

theorem run_exact_iff_shortText :
    Exact shortText.text.length (shortText.run .steady) ↔ ¬ shortText.Wraps :=
  run_exact_iff .steady shortText (by decide)

theorem replicate_not_exact {n : ℕ} (hlong : intMax < n) (hshort : n < 2 ^ 64 - 2 ^ 31) (h : Host) {s : Socket}
    (hs : s.isValidSocket) : ¬ Exact n (s.writeString h (List.replicate n 65)).1 := by
  have hlength : (List.replicate n (65 : UInt8)).length = n := List.length_replicate
  have hiff : Exact (List.replicate n (65 : UInt8)).length _ ↔ _ :=
    Socket.writeString_exact_iff h (by omega) s
  rw [hlength] at hiff
  exact fun hexact => hiff.mp hexact ⟨hs, hlong, hshort⟩

/-- A string of 5 bytes more than `2 ^ 32` on a plain socket, which sends 5. -/
theorem long_string_not_exact :
    ¬ Exact 4294967301 (Socket.writeString .steady (List.replicate 4294967301 65) { sockfd := some 3 }).1 :=
  replicate_not_exact (by decide) (by decide) Host.steady rfl

end Aeon
