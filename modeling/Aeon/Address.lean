import Aeon.Native
import Mathlib.Data.Vector.Basic

/-!
# Network addresses

A `sockaddr_storage` by what the library reads of it.  The `address` class is
this storage with a copy of its family, so the two share one type.
-/

namespace Aeon

inductive Family
  | inet | inet6 | other
  deriving DecidableEq, Repr

/-- Ports are in host order.  Addresses are bytes in network order. -/
inductive Sockaddr
  | other
  | inet (port : UInt16) (addr : Vector UInt8 4)
  | inet6 (port : UInt16) (flowinfo : UInt32) (addr : Vector UInt8 16) (scope : UInt32)
  deriving DecidableEq, Repr

/-- The IPv4 address that is written with dots between its bytes. -/
def dotted (a b c d : UInt8) : Vector UInt8 4 := #v[a, b, c, d]

namespace Sockaddr

def family : Sockaddr → Family
  | .other => .other
  | .inet .. => .inet
  | .inet6 .. => .inet6

def getPort : Sockaddr → UInt16
  | .other => 0
  | .inet port _ => port
  | .inet6 port .. => port

def mappedPrefix : List UInt8 := [0, 0, 0, 0, 0, 0, 0, 0, 0, 0, 0xff, 0xff]

/-- `IN6_IS_ADDR_V4MAPPED`. -/
def isMapped (addr : Vector UInt8 16) : Bool := addr.toList.take 12 = mappedPrefix

/-- An IPv4 address and its IPv4-mapped IPv6 address name the same endpoint. -/
def sameMapped (v4 : Vector UInt8 4) (v6 : Vector UInt8 16) (scope : UInt32) : Bool :=
  scope = 0 && isMapped v6 && v6.toList.drop 12 = v4.toList

def sameUdpAddress (a b : Sockaddr) : Bool :=
  if a.getPort ≠ b.getPort then false
  else match a, b with
    | .inet _ l, .inet _ r => l = r
    | .inet6 _ _ l lscope, .inet6 _ _ r rscope => lscope = rscope && l = r
    | .inet _ v4, .inet6 _ _ v6 scope => sameMapped v4 v6 scope
    | .inet6 _ _ v6 scope, .inet _ v4 => sameMapped v4 v6 scope
    | _, _ => false

/-- The IPv4-mapped IPv6 address. -/
def toMapped (v4 : Vector UInt8 4) : Vector UInt8 16 :=
  (#v[0, 0, 0, 0, 0, 0, 0, 0, 0, 0, 0xff, 0xff] : Vector UInt8 12) ++ v4

/-- The destination as a native socket of the family takes it, if it can be given one. -/
def native (family : Family) (remote : Sockaddr) : Option Sockaddr :=
  if remote.family = family then some remote
  else match family, remote with
    | .inet6, .inet port addr => some (.inet6 port 0 (toMapped addr) 0)
    | _, _ => none

/-- `get_remote_ip` of a socket with this remote address.  `inet_ntop` is given
a buffer that is long enough, so it only depends on the bytes. -/
def getRemoteIp (inetNtop : Family → List UInt8 → String) : Sockaddr → String
  | .other => ""
  | .inet _ addr => inetNtop .inet addr.toList
  | .inet6 _ _ addr _ =>
    if isMapped addr then inetNtop .inet (addr.toList.drop 12) else inetNtop .inet6 addr.toList

def getRemotePort (a : Sockaddr) : ℕ := a.getPort.toNat

end Sockaddr

end Aeon
