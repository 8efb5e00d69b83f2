import Aeon.Socket

/-!
# Reading and sending on the descriptor

The native calls under the `read` and `write` functions, and the two `read`
functions of the base class that make them.
-/

namespace Aeon

open Errno

namespace Socket

variable (h : Host)

def maxBufferSize : ℕ := 256

/-- `::recv` of at most `room` bytes on the descriptor of the object. -/
def nativeRecv (room : ℕ) (s : Socket) : (IoResult × List UInt8) × Socket :=
  match s.sockfd with
  | none => ((⟨-1, EBADF⟩, []), s)
  | some fd => (h.recv s.tick room, s.ticked.record (.recv fd))

/-- `::send` on the descriptor of the object. -/
def nativeSend (s : Socket) : IoResult × Socket :=
  match s.sockfd with
  | none => (⟨-1, EBADF⟩, s)
  | some fd => (h.send s.tick, s.ticked.record (.send fd))

/-- `wait_for_readable`, if there is a timeout. -/
def waitReadable (s : Socket) : IoResult × Socket :=
  if s.readTimeoutMs > 0 then (h.select s.tick, s.ticked) else (⟨1, 0⟩, s)

/-- A read that reports `ret` and leaves the code. -/
def readEnds (ret code : Int) (s : Socket) : (Int × List UInt8) × Socket :=
  ((ret, []), { s with errorCode := code, n := ret })

/-- `read(buffer, size)`; a null buffer is `false`. -/
def read (buffer : Bool) (size : Int) (s : Socket) : (Int × List UInt8) × Socket :=
  if !buffer || !s.isValidSocket || size ≤ 0 then
    s.readEnds (-1) (if s.isValidSocket then errInvalidArgument else errNoSocket)
  else
    let ready := s.waitReadable h
    if ready.1.ret = 0 then ready.2.readEnds 0 errTimeout
    else if ready.1.ret < 0 then ready.2.readEnds (-1) (translateNativeError ready.1.errno)
    else
      let answer := ready.2.nativeRecv h size.toNat
      let received := answer.1.1.ret
      ((received, if received > 0 then answer.1.2 else []), { answer.2 with
        n := received
        connected := if received = 0 then false else answer.2.connected
        errorCode := if received < 0 then translateNativeError answer.1.1.errno else errNone })

/-- The loop of `read_line`, until a carriage return and a line feed have come. -/
def readLineLoop : ℕ → Bool → Bool → List UInt8 → Socket → (Int × List UInt8) × Socket
  | 0, _, _, line, s => ((s.n, line), s)
  | room + 1, carriage, linefeed, line, s =>
    let answer := s.nativeRecv h 1
    let s := answer.2
    if answer.1.1.ret = 0 then ((s.n, line), { s with connected := false })
    else if answer.1.1.ret < 0 then
      ((s.n, line), s.setError (translateNativeError answer.1.1.errno))
    else
      let byte := answer.1.2.headD 0
      let s := { s with n := s.n + answer.1.1.ret }
      let carriage := carriage || byte == 13
      let linefeed := linefeed || byte == 10
      if carriage && linefeed then ((s.n, line ++ [byte]), s)
      else readLineLoop room carriage linefeed (line ++ [byte]) s

def readLine (buffer : Bool) (size : Int) (s : Socket) : (Int × List UInt8) × Socket :=
  if !buffer || !s.isValidSocket || size ≤ 0 then ((-1, []), s)
  else ({ s with n := 0 } : Socket).readLineLoop h ((min size maxBufferSize).toNat - 1) false false []

end Socket

end Aeon
