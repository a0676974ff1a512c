import Vantage.Lib.Text

/-!
# IP address literals

Parsing and classification of address literals and networks as in the
Python 3.12 module `ipaddress`. Addresses are bit vectors, so a value out
of range cannot be written; a scope id of an IPv6 address takes part in
equality but not in network membership.
-/

namespace IpAddress

open Text

inductive Addr where
  | v4 (ip : BitVec 32)
  | v6 (ip : BitVec 128) (scopeId : Option (List Char))
deriving DecidableEq, Repr

/-! ## Address text -/

def parseOctet (s : List Char) : Option ℕ :=
  if isDigits s && s.length ≤ 3 && (s == ['0'] || s.head? != some '0') && decimal s ≤ 255 then
    some (decimal s)
  else none

def parseV4 (s : List Char) : Option (BitVec 32) :=
  match s.splitOn '.' with
  | [a, b, c, d] => do
      let a ← parseOctet a
      let b ← parseOctet b
      let c ← parseOctet c
      let d ← parseOctet d
      some (BitVec.ofNat 32 (((a * 256 + b) * 256 + c) * 256 + d))
  | _ => none

def hexValue (c : Char) : Option ℕ :=
  if '0' ≤ c && c ≤ '9' then some (c.toNat - 48)
  else if 'a' ≤ c && c ≤ 'f' then some (c.toNat - 87)
  else if 'A' ≤ c && c ≤ 'F' then some (c.toNat - 55)
  else none

def parseHextet (s : List Char) : Option ℕ :=
  if s.isEmpty || 4 < s.length then none
  else s.foldlM (fun n c ↦ (hexValue c).map (16 * n + ·)) 0

/-- The last part of an IPv6 text may be dotted decimal; it stands for two hextets. -/
def expandV4Suffix (parts : List (List Char)) : Option (List (List Char)) :=
  match parts.getLast? with
  | none => none
  | some last =>
      if last.contains '.' then do
        let ip ← parseV4 last
        some (parts.dropLast ++
          [Nat.toDigits 16 (ip.toNat / 65536), Nat.toDigits 16 (ip.toNat % 65536)])
      else some parts

/-- The positions strictly between the endpoints at which a part is empty. -/
def innerGaps (parts : List (List Char)) : List ℕ :=
  (List.range' 1 (parts.length - 2)).filter fun i ↦ parts[i]? == some []

/-- The hextets before and after the run of zeroes, and the length of that run. -/
def hextetParts (parts : List (List Char)) : Option (List (List Char) × ℕ × List (List Char)) :=
  match innerGaps parts with
  | [] =>
      if parts.length = 8 then some (parts, 0, []) else none
  | [i] =>
      let leading := parts.head? == some []
      let trailing := parts.getLast? == some []
      let hi := if leading then i - 1 else i
      let lo := parts.length - i - 1 - (if trailing then 1 else 0)
      if (leading && hi ≠ 0) || (trailing && lo ≠ 0) || 8 ≤ hi + lo then none
      else some (parts.take hi, 8 - (hi + lo), if lo = 0 then [] else parts.drop (parts.length - lo))
  | _ => none

def parseV6 (s : List Char) : Option (BitVec 128) := do
  let parts := s.splitOn ':'
  if parts.length < 3 then none else
  let parts ← expandV4Suffix parts
  if 9 < parts.length then none else
  let (hi, skipped, lo) ← hextetParts parts
  let hi ← hi.mapM parseHextet
  let lo ← lo.mapM parseHextet
  some (BitVec.ofNat 128 ((hi ++ List.replicate skipped 0 ++ lo).foldl (fun n h ↦ 65536 * n + h) 0))

def parseScopedV6 (s : List Char) : Option Addr :=
  if s.contains '/' then none
  else match cut '%' s with
    | (addr, none) => (parseV6 addr).map (Addr.v6 · none)
    | (addr, some scope) =>
        if scope.isEmpty || scope.contains '%' then none
        else (parseV6 addr).map (Addr.v6 · (some scope))

/-- `ipaddress.ip_address`; `none` is its `ValueError`. -/
def ipAddress (s : String) : Option Addr :=
  match parseV4 s.toList with
  | some ip => some (.v4 ip)
  | none => parseScopedV6 s.toList

/-! ## Networks -/

/-- Membership in the block of addresses that share the first `len` bits with `base`. -/
def inBlock {w : ℕ} (base : BitVec w) (len : ℕ) (ip : BitVec w) : Bool :=
  ip >>> (w - len) == base >>> (w - len)

def inBlocks {w : ℕ} (blocks : List (BitVec w × ℕ)) (ip : BitVec w) : Bool :=
  blocks.any fun b ↦ inBlock b.1 b.2 ip

/-- A block lies in every shorter block of its own base. -/
theorem inBlock_of_inBlock {w l l' : ℕ} {base base' ip : BitVec w} (hle : l' ≤ l) (hl : l ≤ w)
    (hbase : base >>> (w - l') = base' >>> (w - l')) (h : inBlock base l ip = true) :
    inBlock base' l' ip = true := by
  simp only [inBlock, beq_iff_eq] at h ⊢
  have hsum : w - l' = (w - l) + (l - l') := by omega
  rw [← hbase, hsum, BitVec.shiftRight_add, h, ← BitVec.shiftRight_add]

theorem inBlock_eq_false_of_inBlock {w l' : ℕ} {base' ip : BitVec w} (base : BitVec w) (l : ℕ)
    (hle : l' ≤ l) (hl : l ≤ w) (hbase : base >>> (w - l') = base' >>> (w - l')) (h : inBlock base' l' ip = false) :
    inBlock base l ip = false := by
  by_contra hin
  rw [inBlock_of_inBlock hle hl hbase (by simpa using hin)] at h
  simp at h

inductive Network where
  | v4 (base : BitVec 32) (prefixlen : ℕ)
  | v6 (base : BitVec 128) (prefixlen : ℕ)
deriving DecidableEq, Repr

/-- The length of a netmask written as an address, or of a hostmask. -/
def prefixOfMask (mask : BitVec 32) : Option ℕ :=
  let isMask := fun m n ↦ (m : BitVec 32) == BitVec.allOnes 32 <<< (32 - n)
  ((List.range 33).find? (isMask mask)).or ((List.range 33).find? (isMask (mask ^^^ BitVec.allOnes 32)))

def parsePrefix (maxlen : ℕ) (s : List Char) : Option ℕ :=
  if isDigits s && decimal s ≤ maxlen then some (decimal s) else none

def parseMask4 (s : List Char) : Option ℕ :=
  (parsePrefix 32 s).or ((parseV4 s).bind prefixOfMask)

/-- `ipaddress.ip_network(s, strict=False)`; `none` is its `ValueError`. -/
def ipNetwork (s : String) : Option Network :=
  match s.toList.splitOn '/' with
  | [addr] =>
      match ipAddress (String.ofList addr) with
      | some (.v4 ip) => some (.v4 ip 32)
      | some (.v6 ip _) => some (.v6 ip 128)
      | none => none
  | [addr, mask] =>
      match parseV4 addr, parseMask4 mask with
      | some ip, some len => some (.v4 ip len)
      | _, _ =>
          match parseScopedV6 addr, parsePrefix 128 mask with
          | some (.v6 ip _), some len => some (.v6 ip len)
          | _, _ => none
  | _ => none

def Network.contains : Network → Addr → Bool
  | .v4 base len, .v4 ip => inBlock base len ip
  | .v6 base len, .v6 ip _ => inBlock base len ip
  | _, _ => false

/-! ## Address classes -/

def privateBlocks4 : List (BitVec 32 × ℕ) :=
  [(0x00000000, 8), (0x0a000000, 8), (0x7f000000, 8), (0xa9fe0000, 16), (0xac100000, 12),
    (0xc0000000, 24), (0xc00000aa, 31), (0xc0000200, 24), (0xc0a80000, 16), (0xc6120000, 15),
    (0xc6336400, 24), (0xcb007100, 24), (0xf0000000, 4), (0xffffffff, 32)]

def privateExceptions4 : List (BitVec 32 × ℕ) := [(0xc0000009, 32), (0xc000000a, 32)]

def privateBlocks6 : List (BitVec 128 × ℕ) :=
  [(0x1, 128), (0x0, 128), (0xffff00000000, 96), (0x0064ff9b0001 <<< 80, 48), (0x0100 <<< 112, 64),
    (0x2001 <<< 112, 23), (0x20010db8 <<< 96, 32), (0x2002 <<< 112, 16), (0xfc00 <<< 112, 7),
    (0xfe80 <<< 112, 10)]

def privateExceptions6 : List (BitVec 128 × ℕ) :=
  [(0x20010001 <<< 96 ||| 0x1, 128), (0x20010001 <<< 96 ||| 0x2, 128), (0x20010003 <<< 96, 32),
    (0x200100040112 <<< 80, 48), (0x20010020 <<< 96, 28), (0x20010030 <<< 96, 28)]

def reservedBlocks6 : List (BitVec 128 × ℕ) :=
  [(0x0, 8), (0x0100 <<< 112, 8), (0x0200 <<< 112, 7), (0x0400 <<< 112, 6), (0x0800 <<< 112, 5),
    (0x1000 <<< 112, 4), (0x4000 <<< 112, 3), (0x6000 <<< 112, 3), (0x8000 <<< 112, 3),
    (0xa000 <<< 112, 3), (0xc000 <<< 112, 3), (0xe000 <<< 112, 4), (0xf000 <<< 112, 5),
    (0xf800 <<< 112, 6), (0xfe00 <<< 112, 9)]

def isPrivate4 (ip : BitVec 32) : Bool :=
  inBlocks privateBlocks4 ip && !inBlocks privateExceptions4 ip

/-- The IPv4 address embedded in `::ffff:0:0/96`. -/
def ipv4Mapped (ip : BitVec 128) : Option (BitVec 32) :=
  if ip >>> 32 == 0xffff then some (ip.setWidth 32) else none

def Addr.isPrivate : Addr → Bool
  | .v4 ip => isPrivate4 ip
  | .v6 ip _ =>
      match ipv4Mapped ip with
      | some ip4 => isPrivate4 ip4
      | none => inBlocks privateBlocks6 ip && !inBlocks privateExceptions6 ip

def Addr.isLoopback : Addr → Bool
  | .v4 ip => inBlock 0x7f000000 8 ip
  | .v6 ip _ => ip == 1

def Addr.isLinkLocal : Addr → Bool
  | .v4 ip => inBlock 0xa9fe0000 16 ip
  | .v6 ip _ => inBlock (0xfe80 <<< 112) 10 ip

def Addr.isReserved : Addr → Bool
  | .v4 ip => inBlock 0xf0000000 4 ip
  | .v6 ip _ => inBlocks reservedBlocks6 ip

def Addr.isMulticast : Addr → Bool
  | .v4 ip => inBlock 0xe0000000 4 ip
  | .v6 ip _ => inBlock (0xff00 <<< 112) 8 ip

def Addr.isUnspecified : Addr → Bool
  | .v4 ip => ip == 0
  | .v6 ip _ => ip == 0

/-! ## Texts that no address starts with -/

/-- Neither a hexadecimal digit nor a separator of an address text. -/
def StartsNone (c : Char) : Prop :=
  hexValue c = none ∧ c ≠ '.' ∧ c ≠ ':' ∧ c ≠ '%' ∧ c ≠ '/'

variable {c : Char}

theorem StartsNone.isAsciiDigit (h : StartsNone c) : isAsciiDigit c = false := by
  have hhex := h.1
  unfold hexValue at hhex
  split_ifs at hhex with hdigit
  simpa [Text.isAsciiDigit] using hdigit

theorem StartsNone.parseOctet (h : StartsNone c) (l : List Char) :
    parseOctet (c :: l) = none := by
  simp [IpAddress.parseOctet, isDigits, h.isAsciiDigit]

theorem StartsNone.parseHextet (h : StartsNone c) (l : List Char) :
    parseHextet (c :: l) = none := by
  unfold IpAddress.parseHextet
  split_ifs
  · rfl
  · simp [List.foldlM_cons, h.1]

theorem StartsNone.parseV4 (h : StartsNone c) (l : List Char) : parseV4 (c :: l) = none := by
  obtain ⟨part, parts, hparts⟩ := exists_splitOn_cons h.2.1 l
  unfold IpAddress.parseV4
  rw [hparts]
  split
  · rename_i heq
    obtain ⟨rfl, -⟩ := List.cons.inj heq
    simp [h.parseOctet]
  · rfl

theorem head_expandV4Suffix {part : List Char} {parts parts' : List (List Char)}
    (hlong : 2 ≤ (part :: parts).length) (h : expandV4Suffix (part :: parts) = some parts') :
    parts'.head? = some part := by
  have hdrop : ((part :: parts).dropLast).head? = some part := by
    cases parts with
    | nil => simp at hlong
    | cons q qs => rfl
  unfold expandV4Suffix at h
  split at h
  · cases h
  · split_ifs at h
    · obtain ⟨ip, -, h⟩ := Option.bind_eq_some_iff.mp h
      obtain rfl := Option.some.inj h
      rw [List.head?_append, hdrop]
      rfl
    · obtain rfl := Option.some.inj h
      rfl

/-- A first part that is not empty stays the first hextet. -/
theorem head_hextetParts {part : List Char} {parts hi lo : List (List Char)} {n : ℕ}
    (hne : part ≠ []) (hhead : parts.head? = some part) (h : hextetParts parts = some (hi, n, lo)) :
    hi.head? = some part := by
  unfold hextetParts at h
  split at h
  · split_ifs at h
    simp only [Option.some.injEq, Prod.mk.injEq] at h
    rw [← h.1, hhead]
  · rename_i i hgaps
    have hgap : i ∈ innerGaps parts := by simp [hgaps]
    have hpos : i ≠ 0 := by
      have hrange := List.mem_range'.mp (List.mem_of_mem_filter hgap)
      omega
    have hleading : (parts.head? == some []) = false := by
      rw [hhead]
      simpa using hne
    dsimp only at h
    simp only [hleading, Bool.false_eq_true, if_false] at h
    have htake : parts.take i = hi := by
      split_ifs at h <;> exact (Prod.mk.inj (Option.some.inj h)).1
    rw [← htake, List.head?_take, if_neg hpos, hhead]
  · cases h

theorem StartsNone.parseV6 (h : StartsNone c) (l : List Char) : parseV6 (c :: l) = none := by
  obtain ⟨part, parts, hparts⟩ := exists_splitOn_cons h.2.2.1 l
  unfold IpAddress.parseV6
  dsimp only
  rw [hparts]
  split_ifs with hshort
  · rfl
  rw [Option.bind_eq_bind, Option.bind_eq_none_iff]
  intro parts' hexpand
  split_ifs
  · rfl
  rw [Option.bind_eq_bind, Option.bind_eq_none_iff]
  rintro ⟨hi, n, lo⟩ hhextets
  have hhead := head_hextetParts (List.cons_ne_nil c part)
    (head_expandV4Suffix (by omega) hexpand) hhextets
  obtain ⟨rest, rfl⟩ := List.head?_eq_some_iff.mp hhead
  simp [List.mapM_cons, h.parseHextet]

theorem StartsNone.parseScopedV6 (h : StartsNone c) (l : List Char) :
    parseScopedV6 (c :: l) = none := by
  have hcut : (cut '%' (c :: l)) = (c :: (cut '%' l).1, (cut '%' l).2) := by
    have hne : '%' ∉ [c] := by simpa using h.2.2.2.1.symm
    exact cut_append_left hne l
  unfold IpAddress.parseScopedV6
  rw [hcut]
  split_ifs
  · rfl
  · cases (cut '%' l).2 with
    | none => simp [h.parseV6]
    | some scope => simp [h.parseV6]

theorem StartsNone.ipAddress {s : String} {l : List Char} (h : StartsNone c)
    (hs : s.toList = c :: l) : ipAddress s = none := by
  simp only [IpAddress.ipAddress, hs, h.parseV4, h.parseScopedV6]

theorem StartsNone.ipNetwork {s : String} {l : List Char} (h : StartsNone c)
    (hs : s.toList = c :: l) : ipNetwork s = none := by
  obtain ⟨part, parts, hparts⟩ := exists_splitOn_cons h.2.2.2.2 l
  unfold IpAddress.ipNetwork
  rw [hs, hparts]
  cases parts with
  | nil =>
      have haddr := h.ipAddress (s := String.ofList (c :: part)) String.toList_ofList
      simp only [haddr]
  | cons mask rest =>
      cases rest with
      | nil => simp [h.parseV4, h.parseScopedV6]
      | cons _ _ => rfl

end IpAddress
