import Mathlib.Data.List.Basic
import Mathlib.Tactic.Common

/-!
# Native errors and the library's own codes

The POSIX build on Linux.  Native error numbers are the `errno` values of that
platform, and the public codes are the negative constants of the library.
-/

namespace Aeon

def socketError : Int := -1
def errNone : Int := 0
def errNoHost : Int := -0x010001
def errNoSocket : Int := -0x010002
def errInvalidArgument : Int := -0x010003
def errTimeout : Int := -0x010004
def errWouldBlock : Int := -0x010005
def errInterrupted : Int := -0x010006
def errConnectionRefused : Int := -0x010007
def errConnectionReset : Int := -0x010008
def errConnectionAborted : Int := -0x010009
def errNotConnected : Int := -0x01000A
def errAddressInUse : Int := -0x01000B
def errNetworkUnreachable : Int := -0x01000C
def errHostUnreachable : Int := -0x01000D
def errPermissionDenied : Int := -0x01000E
def errMessageTooLarge : Int := -0x01000F
def errAddressNotAvailable : Int := -0x010010
def errAlreadyConnected : Int := -0x010011
def errInProgress : Int := -0x010012
def errBrokenPipe : Int := -0x010013
def errNetworkDown : Int := -0x010014
def errNetworkReset : Int := -0x010015
def errNoBuffers : Int := -0x010016
def errResourceLimit : Int := -0x010017
def errUnsupported : Int := -0x010018
def errProtocol : Int := -0x010019
def errSystem : Int := -0x01FFFF

def stateResolve : ℕ := 1
def stateCreate : ℕ := 2
def stateAccept : ℕ := 3
def stateConnect : ℕ := 4
def stateBind : ℕ := 5

def sslError : Int := -0x020001
def sslErrorInit : Int := -0x020002
def sslErrorCert : Int := -0x020003
def sslErrorKey : Int := -0x020004
def sslErrorHandshake : Int := -0x020005
def sslErrorIo : Int := -0x020006

namespace Errno

def EPERM : ℕ := 1
def EINTR : ℕ := 4
def EBADF : ℕ := 9
def EAGAIN : ℕ := 11
def EWOULDBLOCK : ℕ := 11
def EACCES : ℕ := 13
def EINVAL : ℕ := 22
def ENFILE : ℕ := 23
def EMFILE : ℕ := 24
def EPIPE : ℕ := 32
def EPROTO : ℕ := 71
def ENOTSOCK : ℕ := 88
def EMSGSIZE : ℕ := 90
def EPROTONOSUPPORT : ℕ := 93
def ENOTSUP : ℕ := 95
def EOPNOTSUPP : ℕ := 95
def EAFNOSUPPORT : ℕ := 97
def EADDRINUSE : ℕ := 98
def EADDRNOTAVAIL : ℕ := 99
def ENETDOWN : ℕ := 100
def ENETUNREACH : ℕ := 101
def ENETRESET : ℕ := 102
def ECONNABORTED : ℕ := 103
def ECONNRESET : ℕ := 104
def ENOBUFS : ℕ := 105
def EISCONN : ℕ := 106
def ENOTCONN : ℕ := 107
def ETIMEDOUT : ℕ := 110
def ECONNREFUSED : ℕ := 111
def EHOSTUNREACH : ℕ := 113
def EALREADY : ℕ := 114
def EINPROGRESS : ℕ := 115

end Errno

open Errno

def translateNativeError (e : ℕ) : Int :=
  if e = 0 then errNone
  else if e = EBADF ∨ e = ENOTSOCK then errNoSocket
  else if e = EINVAL then errInvalidArgument
  else if e = ETIMEDOUT then errTimeout
  else if e = EAGAIN ∨ e = EWOULDBLOCK then errWouldBlock
  else if e = EINTR then errInterrupted
  else if e = ECONNREFUSED then errConnectionRefused
  else if e = ECONNRESET then errConnectionReset
  else if e = ECONNABORTED then errConnectionAborted
  else if e = ENOTCONN then errNotConnected
  else if e = EADDRINUSE then errAddressInUse
  else if e = ENETUNREACH then errNetworkUnreachable
  else if e = EHOSTUNREACH then errHostUnreachable
  else if e = EACCES ∨ e = EPERM then errPermissionDenied
  else if e = EMSGSIZE then errMessageTooLarge
  else if e = EADDRNOTAVAIL then errAddressNotAvailable
  else if e = EISCONN then errAlreadyConnected
  else if e = EINPROGRESS ∨ e = EALREADY then errInProgress
  else if e = EPIPE then errBrokenPipe
  else if e = ENETDOWN then errNetworkDown
  else if e = ENETRESET then errNetworkReset
  else if e = ENOBUFS then errNoBuffers
  else if e = EMFILE ∨ e = ENFILE then errResourceLimit
  else if e = ENOTSUP ∨ e = EOPNOTSUPP ∨ e = EPROTONOSUPPORT ∨ e = EAFNOSUPPORT then errUnsupported
  else if e = EPROTO then errProtocol
  else errSystem

theorem ite_lt {p : Prop} [Decidable p] {a b c : Int} (ha : a < c) (hb : b < c) :
    (if p then a else b) < c := by
  split <;> assumption

/-- Every nonzero native error has a negative public code other than the raw `-1`. -/
theorem translateNativeError_lt {e : ℕ} (h : e ≠ 0) : translateNativeError e < socketError := by
  unfold translateNativeError
  rw [if_neg h]
  repeat refine ite_lt (by decide) ?_
  decide

@[simp] theorem translateNativeError_zero : translateNativeError 0 = errNone := rfl

def invalidDescriptorError : ℕ := EBADF

def wouldBlockError (e : ℕ) : Bool := e = EAGAIN || e = EWOULDBLOCK || e = EINTR

/-- The `short` bit mask that `poll` reports for one descriptor. -/
structure Flags where
  pollin : Bool := false
  pollout : Bool := false
  pollerr : Bool := false
  pollhup : Bool := false
  pollnval : Bool := false
  deriving DecidableEq, Repr

/-- `flags != 0`. -/
def Flags.any (f : Flags) : Bool := f.pollin || f.pollout || f.pollerr || f.pollhup || f.pollnval

/-- A native call that returns a count or a negative number with `errno`. -/
structure IoResult where
  ret : Int
  errno : ℕ := 0
  deriving DecidableEq, Repr

/-- `socket_pending_error`: what `SO_ERROR` says, or why it cannot be asked for. -/
def socketPendingError (answer : IoResult) : Int :=
  if answer.ret ≠ 0 then translateNativeError answer.errno
  else if answer.errno ≠ 0 then translateNativeError answer.errno
  else errSystem

end Aeon
