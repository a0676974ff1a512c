import Vantage.Lib.IpAddress

/-!
# Addresses and networks of the Go package `net`

A `net.IP` has 16 bytes and holds an IPv4 address in its mapped form, so
mapped IPv6 text and dotted text denote the same address. The text grammar
is that of `IpAddress`, without zones.
-/

namespace NetIp

open Text IpAddress

abbrev IP := BitVec 128

def ofV4 (ip : BitVec 32) : IP := 0xffff00000000 ||| ip.setWidth 128

def to4 (ip : IP) : Option (BitVec 32) := ipv4Mapped ip

def parseIP (s : String) : Option IP :=
  match parseV4 s.toList with
  | some ip => some (ofV4 ip)
  | none => parseV6 s.toList

theorem ofV4_shiftRight (ip : BitVec 32) : ofV4 ip >>> 32 = 0xffff := by
  have hlow : (ip.setWidth 128) >>> 32 = 0 := by
    apply BitVec.eq_of_toNat_eq
    have hlt := ip.isLt
    simp only [BitVec.toNat_ushiftRight, BitVec.toNat_setWidth, Nat.shiftRight_eq_div_pow]
    simp
    omega
  rw [ofV4, BitVec.ushiftRight_or_distrib, hlow]
  decide

theorem setWidth_ofV4 (ip : BitVec 32) : (ofV4 ip).setWidth 32 = ip := by
  unfold ofV4
  rw [BitVec.setWidth_or]
  simp

@[simp] theorem to4_ofV4 (ip : BitVec 32) : to4 (ofV4 ip) = some ip := by
  simp [to4, ipv4Mapped, ofV4_shiftRight, setWidth_ofV4]

theorem ofV4_inj {a b : BitVec 32} : ofV4 a = ofV4 b ↔ a = b :=
  ⟨fun h ↦ by simpa using congrArg to4 h, congrArg ofV4⟩

theorem ofV4_ne_zero (ip : BitVec 32) : ofV4 ip ≠ 0 := by
  intro h
  have hshift := ofV4_shiftRight ip
  rw [h] at hshift
  revert hshift
  decide

inductive IPNet where
  | v4 (base : BitVec 32) (ones : ℕ)
  | v6 (base : BitVec 128) (ones : ℕ)
deriving DecidableEq, Repr

/-- The network of a masked IPv6 address; it is an IPv4 network when the
masked address is still a mapped one. -/
def IPNet.ofV6 (ip : IP) (ones : ℕ) : IPNet :=
  let masked := ip &&& (BitVec.allOnes 128 <<< (128 - ones))
  match to4 masked with
  | some ip4 => .v4 ip4 (ones - 96)
  | none => .v6 masked ones

/-- `net.ParseCIDR`. -/
def parseCIDR (s : String) : Option IPNet :=
  match cut '/' s.toList with
  | (_, none) => none
  | (addr, some mask) =>
      match parseV4 addr with
      | some ip => (parsePrefix 32 mask).map (.v4 ip)
      | none =>
          match parseV6 addr with
          | some ip => (parsePrefix 128 mask).map (.ofV6 ip)
          | none => none

def IPNet.contains (n : IPNet) (ip : IP) : Bool :=
  match n, to4 ip with
  | .v4 base ones, some ip4 => inBlock base ones ip4
  | .v6 base ones, none => inBlock base ones ip
  | _, _ => false

def isLoopback (ip : IP) : Bool :=
  match to4 ip with
  | some ip4 => inBlock 0x7f000000 8 ip4
  | none => ip == 1

def isPrivate (ip : IP) : Bool :=
  match to4 ip with
  | some ip4 => inBlocks [(0x0a000000, 8), (0xac100000, 12), (0xc0a80000, 16)] ip4
  | none => inBlock (0xfc00 <<< 112) 7 ip

def isLinkLocalUnicast (ip : IP) : Bool :=
  match to4 ip with
  | some ip4 => inBlock 0xa9fe0000 16 ip4
  | none => inBlock (0xfe80 <<< 112) 10 ip

def isLinkLocalMulticast (ip : IP) : Bool :=
  match to4 ip with
  | some ip4 => inBlock 0xe0000000 24 ip4
  | none => (ip >>> 112) &&& 0xff0f == 0xff02

def isMulticast (ip : IP) : Bool :=
  match to4 ip with
  | some ip4 => inBlock 0xe0000000 4 ip4
  | none => inBlock (0xff00 <<< 112) 8 ip

def isUnspecified (ip : IP) : Bool := ip == ofV4 0 || ip == 0

example : (parseCIDR "::ffff:10.0.0.0/104").bind (fun n ↦ (parseIP "10.1.2.3").map n.contains) =
    some true := by decide

end NetIp
