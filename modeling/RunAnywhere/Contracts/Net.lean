import Mathlib.Data.BitVec

/-!
# Addresses and URLs

The types of `std::net` that the API and the scheduler read, by octets and segments, and what
both read of a parsed URL.
-/

namespace RunAnywhere

/-! ## Addresses -/

structure Ipv4Addr where
  a : BitVec 8
  b : BitVec 8
  c : BitVec 8
  d : BitVec 8
  deriving DecidableEq

/-- An IPv6 address, by its segments. -/
structure Ipv6Addr where
  s0 : BitVec 16
  s1 : BitVec 16
  s2 : BitVec 16
  s3 : BitVec 16
  s4 : BitVec 16
  s5 : BitVec 16
  s6 : BitVec 16
  s7 : BitVec 16
  deriving DecidableEq

inductive IpAddr
  | v4 (address : Ipv4Addr)
  | v6 (address : Ipv6Addr)
  deriving DecidableEq

structure SocketAddr where
  ip : IpAddr
  port : Nat
  deriving DecidableEq

def Ipv4Addr.toNat (x : Ipv4Addr) : Nat :=
  ((x.a.toNat * 256 + x.b.toNat) * 256 + x.c.toNat) * 256 + x.d.toNat

def Ipv6Addr.toNat (x : Ipv6Addr) : Nat :=
  ((((((x.s0.toNat * 65536 + x.s1.toNat) * 65536 + x.s2.toNat) * 65536 + x.s3.toNat) * 65536 +
    x.s4.toNat) * 65536 + x.s5.toNat) * 65536 + x.s6.toNat) * 65536 + x.s7.toNat

/-- `Ipv6Addr::to_ipv4`: the address in `::ffff:a.b.c.d` or `::a.b.c.d`. -/
def Ipv6Addr.toIpv4 (x : Ipv6Addr) : Option Ipv4Addr :=
  if x.s0 = 0 ∧ x.s1 = 0 ∧ x.s2 = 0 ∧ x.s3 = 0 ∧ x.s4 = 0 ∧ (x.s5 = 0 ∨ x.s5 = 0xffff) then
    some ⟨x.s6.extractLsb' 8 8, x.s6.extractLsb' 0 8, x.s7.extractLsb' 8 8, x.s7.extractLsb' 0 8⟩
  else none

/-- `Ipv6Addr::is_unspecified`. -/
def Ipv6Addr.isUnspecified (x : Ipv6Addr) : Bool := decide (x = ⟨0, 0, 0, 0, 0, 0, 0, 0⟩)

/-- `Ipv6Addr::is_loopback`. -/
def Ipv6Addr.isLoopback (x : Ipv6Addr) : Bool := decide (x = ⟨0, 0, 0, 0, 0, 0, 0, 1⟩)

/-- The order of addresses: IPv4 first. -/
def IpAddr.key : IpAddr → Nat
  | .v4 x => x.toNat
  | .v6 x => 2 ^ 32 + x.toNat

def SocketAddr.le (x y : SocketAddr) : Bool :=
  decide (x.ip.key < y.ip.key) || (decide (x.ip.key = y.ip.key) && decide (x.port ≤ y.port))

/-! ## URLs -/

inductive Host
  | ipv4 (address : Ipv4Addr)
  | ipv6 (address : Ipv6Addr)
  | domain (name : String)
  deriving DecidableEq

/-- What is read of a parsed URL. -/
structure Url where
  scheme : String
  username : String
  password : Option String
  fragment : Option String
  host : Option Host
  portOrKnownDefault : Option Nat
  deriving DecidableEq

end RunAnywhere
