import Linklint.Js.Text
import Linklint.Lib.Numeral
import Linklint.Lib.PrefixTable
import Mathlib.Data.List.Sort

/-!
# Special-purpose IP ranges

The registry rows, the multicast overlay and the two longest-prefix matchers. A
row without a bucket is an exception to the rows around it.
-/

namespace Linklint

open PrefixTable

inductive IpRangeBucket where
  | ipLoopback | ipLinkLocal | ipPrivate | ipReserved
deriving DecidableEq

structure Ipv4RangeRow where
  base : Nat
  prefixLength : Nat
  bucket : Option IpRangeBucket
  name : Text
  rfc : Text

/-- `base` is the network address as eight hextets. -/
structure Ipv6RangeRow where
  base : List Nat
  prefixLength : Nat
  bucket : Option IpRangeBucket
  name : Text
  rfc : Text

structure IpRangeMatch where
  bucket : IpRangeBucket
  name : Text
  rfc : Text

def IPV4_SPECIAL_RANGES : List Ipv4RangeRow :=
  [⟨0x00000000, 32, some .ipReserved, text "\"This host on this network\"",
     text "[RFC1122], Section 3.2.1.3"⟩,
   ⟨0xc0000008, 32, some .ipReserved, text "IPv4 dummy address", text "[RFC7600]"⟩,
   ⟨0xc0000009, 32, none, text "Port Control Protocol Anycast", text "[RFC7723]"⟩,
   ⟨0xc000000a, 32, none, text "Traversal Using Relays around NAT Anycast", text "[RFC8155]"⟩,
   ⟨0xc00000aa, 32, some .ipReserved, text "NAT64/DNS64 Discovery",
     text "[RFC8880][RFC7050], Section 2.2"⟩,
   ⟨0xc00000ab, 32, some .ipReserved, text "NAT64/DNS64 Discovery",
     text "[RFC8880][RFC7050], Section 2.2"⟩,
   ⟨0xc0586302, 32, some .ipReserved, text "6a44-relay anycast address", text "[RFC6751]"⟩,
   ⟨0xffffffff, 32, some .ipReserved, text "Limited Broadcast",
     text "[RFC8190] [RFC919], Section 7"⟩,
   ⟨0xc0000000, 29, some .ipReserved, text "IPv4 Service Continuity Prefix", text "[RFC7335]"⟩,
   ⟨0xc0000000, 24, some .ipReserved, text "IETF Protocol Assignments",
     text "[RFC6890], Section 2.1"⟩,
   ⟨0xc0000200, 24, none, text "Documentation (TEST-NET-1)", text "[RFC5737]"⟩,
   ⟨0xc01fc400, 24, none, text "AS112-v4", text "[RFC7535]"⟩,
   ⟨0xc034c100, 24, none, text "AMT", text "[RFC7450]"⟩,
   ⟨0xc0586300, 24, some .ipReserved, text "Deprecated (6to4 Relay Anycast)", text "[RFC7526]"⟩,
   ⟨0xc0af3000, 24, none, text "Direct Delegation AS112 Service", text "[RFC7534]"⟩,
   ⟨0xc6336400, 24, none, text "Documentation (TEST-NET-2)", text "[RFC5737]"⟩,
   ⟨0xcb007100, 24, none, text "Documentation (TEST-NET-3)", text "[RFC5737]"⟩,
   ⟨0xa9fe0000, 16, some .ipLinkLocal, text "Link Local", text "[RFC3927]"⟩,
   ⟨0xc0a80000, 16, some .ipPrivate, text "Private-Use", text "[RFC1918]"⟩,
   ⟨0xc6120000, 15, some .ipReserved, text "Benchmarking", text "[RFC2544]"⟩,
   ⟨0xac100000, 12, some .ipPrivate, text "Private-Use", text "[RFC1918]"⟩,
   ⟨0x64400000, 10, some .ipReserved, text "Shared Address Space", text "[RFC6598]"⟩,
   ⟨0x00000000, 8, some .ipReserved, text "\"This network\"", text "[RFC791], Section 3.2"⟩,
   ⟨0x0a000000, 8, some .ipPrivate, text "Private-Use", text "[RFC1918]"⟩,
   ⟨0x7f000000, 8, some .ipLoopback, text "Loopback", text "[RFC1122], Section 3.2.1.3"⟩,
   ⟨0xf0000000, 4, some .ipReserved, text "Reserved", text "[RFC1112], Section 4"⟩]

def IPV6_SPECIAL_RANGES : List Ipv6RangeRow :=
  [⟨[0, 0, 0, 0, 0, 0, 0, 0], 128, some .ipReserved, text "Unspecified Address",
     text "[RFC4291]"⟩,
   ⟨[0, 0, 0, 0, 0, 0, 0, 0x1], 128, some .ipLoopback, text "Loopback Address",
     text "[RFC4291]"⟩,
   ⟨[0x2001, 0x1, 0, 0, 0, 0, 0, 0x1], 128, none, text "Port Control Protocol Anycast",
     text "[RFC7723]"⟩,
   ⟨[0x2001, 0x1, 0, 0, 0, 0, 0, 0x2], 128, none,
     text "Traversal Using Relays around NAT Anycast", text "[RFC8155]"⟩,
   ⟨[0x2001, 0x1, 0, 0, 0, 0, 0, 0x3], 128, none,
     text "DNS-SD Service Registration Protocol Anycast", text "[RFC9665]"⟩,
   ⟨[0, 0, 0, 0, 0, 0xffff, 0, 0], 96, none, text "IPv4-mapped Address", text "[RFC4291]"⟩,
   ⟨[0x64, 0xff9b, 0, 0, 0, 0, 0, 0], 96, none, text "IPv4-IPv6 Translat.", text "[RFC6052]"⟩,
   ⟨[0x100, 0, 0, 0, 0, 0, 0, 0], 64, some .ipReserved, text "Discard-Only Address Block",
     text "[RFC6666]"⟩,
   ⟨[0x100, 0, 0, 0x1, 0, 0, 0, 0], 64, some .ipReserved, text "Dummy IPv6 Prefix",
     text "[RFC9780]"⟩,
   ⟨[0x64, 0xff9b, 0x1, 0, 0, 0, 0, 0], 48, none, text "IPv4-IPv6 Translat.", text "[RFC8215]"⟩,
   ⟨[0x2001, 0x2, 0, 0, 0, 0, 0, 0], 48, some .ipReserved, text "Benchmarking",
     text "[RFC5180][RFC Errata 1752]"⟩,
   ⟨[0x2001, 0x4, 0x112, 0, 0, 0, 0, 0], 48, none, text "AS112-v6", text "[RFC7535]"⟩,
   ⟨[0x2620, 0x4f, 0x8000, 0, 0, 0, 0, 0], 48, none, text "Direct Delegation AS112 Service",
     text "[RFC7534]"⟩,
   ⟨[0x2001, 0, 0, 0, 0, 0, 0, 0], 32, none, text "TEREDO", text "[RFC4380] [RFC8190]"⟩,
   ⟨[0x2001, 0x3, 0, 0, 0, 0, 0, 0], 32, none, text "AMT", text "[RFC7450]"⟩,
   ⟨[0x2001, 0xdb8, 0, 0, 0, 0, 0, 0], 32, none, text "Documentation", text "[RFC3849]"⟩,
   ⟨[0x2001, 0x10, 0, 0, 0, 0, 0, 0], 28, some .ipReserved, text "Deprecated (previously ORCHID)",
     text "[RFC4843]"⟩,
   ⟨[0x2001, 0x20, 0, 0, 0, 0, 0, 0], 28, none, text "ORCHIDv2", text "[RFC7343]"⟩,
   ⟨[0x2001, 0x30, 0, 0, 0, 0, 0, 0], 28, none,
     text "Drone Remote ID Protocol Entity Tags (DETs) Prefix", text "[RFC9374]"⟩,
   ⟨[0x2001, 0, 0, 0, 0, 0, 0, 0], 23, some .ipReserved, text "IETF Protocol Assignments",
     text "[RFC2928]"⟩,
   ⟨[0x3fff, 0, 0, 0, 0, 0, 0, 0], 20, none, text "Documentation", text "[RFC9637]"⟩,
   ⟨[0x2002, 0, 0, 0, 0, 0, 0, 0], 16, none, text "6to4", text "[RFC3056]"⟩,
   ⟨[0x5f00, 0, 0, 0, 0, 0, 0, 0], 16, some .ipReserved, text "Segment Routing (SRv6) SIDs",
     text "[RFC9602]"⟩,
   ⟨[0xfe80, 0, 0, 0, 0, 0, 0, 0], 10, some .ipLinkLocal, text "Link-Local Unicast",
     text "[RFC4291]"⟩,
   ⟨[0xfc00, 0, 0, 0, 0, 0, 0, 0], 7, some .ipPrivate, text "Unique-Local",
     text "[RFC4193] [RFC8190]"⟩]

def MULTICAST_IPV4 : Ipv4RangeRow :=
  ⟨0xe0000000, 4, some .ipReserved, text "Multicast", text "[RFC5771], Section 2"⟩

def MULTICAST_IPV6 : Ipv6RangeRow :=
  ⟨[0xff00, 0, 0, 0, 0, 0, 0, 0], 8, some .ipReserved, text "Multicast",
    text "[RFC4291], Section 2.7"⟩

def IPV4_RANGES : List Ipv4RangeRow :=
  (IPV4_SPECIAL_RANGES ++ [MULTICAST_IPV4]).insertionSort
    fun a b => b.prefixLength ≤ a.prefixLength

def IPV6_RANGES : List Ipv6RangeRow :=
  (IPV6_SPECIAL_RANGES ++ [MULTICAST_IPV6]).insertionSort
    fun a b => b.prefixLength ≤ a.prefixLength

/-- Longest-prefix match of a 32-bit address; an exception stops the search. -/
def matchIpv4Range (addr : Nat) : Option IpRangeMatch :=
  match IPV4_RANGES.find? fun row => (addr ^^^ row.base) >>> (32 - row.prefixLength) == 0 with
  | none => none
  | some row => row.bucket.map fun bucket => ⟨bucket, row.name, row.rfc⟩

/-- The comparison of one row: whole hextets first, then the masked rest. -/
def Ipv6RangeRow.matchesHextets (row : Ipv6RangeRow) (hextets : List Nat) : Bool :=
  let whole := row.prefixLength >>> 4
  let rest := row.prefixLength &&& 15
  hextets.take whole == row.base.take whole &&
    (rest == 0 ||
      hextets.getD whole 0 &&& (0xffff <<< (16 - rest) &&& 0xffff) == row.base.getD whole 0)

def matchIpv6Range (hextets : List Nat) : Option IpRangeMatch :=
  if hextets.length ≠ 8 then none
  else
    match IPV6_RANGES.find? fun row => row.matchesHextets hextets with
    | none => none
    | some row => row.bucket.map fun bucket => ⟨bucket, row.name, row.rfc⟩

/-! ### The tables as blocks of addresses -/

/-- The 128 bits of eight hextets. -/
def addressValue (hextets : List Nat) : Nat := Numeral.value (2 ^ 16) hextets

def Ipv4RangeRow.block (row : Ipv4RangeRow) : Block 32 := ⟨row.base, row.prefixLength⟩

def Ipv6RangeRow.block (row : Ipv6RangeRow) : Block 128 :=
  ⟨addressValue row.base, row.prefixLength⟩

theorem IPV4_RANGES_sorted : LongestFirst Ipv4RangeRow.block IPV4_RANGES := by
  have : Std.Total fun a b : Ipv4RangeRow => b.prefixLength ≤ a.prefixLength :=
    ⟨fun a b => Nat.le_total b.prefixLength a.prefixLength⟩
  have : IsTrans Ipv4RangeRow fun a b => b.prefixLength ≤ a.prefixLength :=
    ⟨fun _ _ _ hab hbc => Nat.le_trans hbc hab⟩
  exact List.pairwise_insertionSort _ _

theorem IPV6_RANGES_sorted : LongestFirst Ipv6RangeRow.block IPV6_RANGES := by
  have : Std.Total fun a b : Ipv6RangeRow => b.prefixLength ≤ a.prefixLength :=
    ⟨fun a b => Nat.le_total b.prefixLength a.prefixLength⟩
  have : IsTrans Ipv6RangeRow fun a b => b.prefixLength ≤ a.prefixLength :=
    ⟨fun _ _ _ hab hbc => Nat.le_trans hbc hab⟩
  exact List.pairwise_insertionSort _ _

theorem matchIpv4Range_eq (addr : Nat) : matchIpv4Range addr =
    (firstMatch Ipv4RangeRow.block IPV4_RANGES addr).bind fun row =>
      row.bucket.map fun bucket => ⟨bucket, row.name, row.rfc⟩ := by
  have hfind := @find?_eq_firstMatch _ _ Ipv4RangeRow.block IPV4_RANGES addr
    (fun row => (addr ^^^ row.base) >>> (32 - row.prefixLength) == 0) fun row _ => by
      simp [Block.covers_iff_xor, Ipv4RangeRow.block]
  rw [matchIpv4Range, hfind]
  cases firstMatch Ipv4RangeRow.block IPV4_RANGES addr <;> rfl

/-- Eight hextets. -/
structure IsHextets (gs : List Nat) : Prop where
  eight : gs.length = 8
  small : ∀ g ∈ gs, g < 2 ^ 16

/-- A row whose network address has no bit after its prefix. -/
structure Ipv6RangeRow.WellFormed (row : Ipv6RangeRow) : Prop where
  hextets : IsHextets row.base
  prefix_le : row.prefixLength ≤ 128
  masked : row.base.getD (row.prefixLength / 16) 0 % 2 ^ (16 - row.prefixLength % 16) = 0

/-- The mask of a partial hextet keeps its high bits. -/
theorem and_mask {x s : Nat} (hx : x < 2 ^ 16) :
    x &&& (0xffff <<< s &&& 0xffff) = x / 2 ^ s * 2 ^ s := by
  refine Nat.eq_of_testBit_eq fun i => ?_
  have hfull : (0xffff : Nat) = 2 ^ 16 - 1 := rfl
  rw [hfull, Nat.testBit_and, Nat.testBit_and, Nat.testBit_shiftLeft, Nat.testBit_two_pow_sub_one,
    Nat.testBit_two_pow_sub_one, Nat.testBit_mul_two_pow, Nat.testBit_div_two_pow]
  by_cases hi : s ≤ i
  · have hsum : i - s + s = i := Nat.sub_add_cancel hi
    rw [hsum]
    by_cases hsmall : i < 16
    · simp [hi, hsmall, show i - s < 16 by omega]
    · have hzero : x.testBit i = false :=
        Nat.testBit_lt_two_pow (Nat.lt_of_lt_of_le hx (Nat.pow_le_pow_right (by decide) (by omega)))
      simp [hzero]
  · simp [hi]

theorem mul_add_eq_iff {a b c d m : Nat} (hb : b < m) (hd : d < m) :
    a * m + b = c * m + d ↔ a = c ∧ b = d := by
  constructor
  · intro h
    have hquot := congrArg (· / m) h
    have hrem := congrArg (· % m) h
    have hm : 0 < m := by omega
    simp only [Nat.mul_comm _ m, Nat.mul_add_div hm, Nat.div_eq_of_lt hb, Nat.div_eq_of_lt hd,
      Nat.mul_add_mod, Nat.mod_eq_of_lt hb, Nat.mod_eq_of_lt hd] at hquot hrem
    exact ⟨hquot, hrem⟩
  · rintro ⟨rfl, rfl⟩
    rfl

theorem IsHextets.take {gs : List Nat} (h : IsHextets gs) (k : Nat) :
    addressValue (gs.take k) = addressValue gs >>> (16 * (8 - k)) := by
  rw [addressValue, Numeral.value_take h.small, h.eight, Nat.shiftRight_eq_div_pow, ← Nat.pow_mul]
  rfl

theorem IsHextets.take_eq_iff {gs hs : List Nat} (hg : IsHextets gs) (hh : IsHextets hs) (k : Nat) :
    gs.take k = hs.take k ↔
      addressValue gs >>> (16 * (8 - k)) = addressValue hs >>> (16 * (8 - k)) := by
  rw [← hg.take, ← hh.take]
  constructor
  · intro h
    rw [h]
  · intro h
    have hlen : (gs.take k).length = (hs.take k).length := by
      rw [List.length_take, List.length_take, hg.eight, hh.eight]
    exact Numeral.value_inj hlen (fun d hd => hg.small d (List.mem_of_mem_take hd))
      (fun d hd => hh.small d (List.mem_of_mem_take hd)) h

theorem IsHextets.getD_lt {gs : List Nat} (h : IsHextets gs) (k : Nat) : gs.getD k 0 < 2 ^ 16 := by
  rw [List.getD_eq_getElem?_getD]
  cases hk : gs[k]? with
  | none => decide
  | some g => exact h.small g (List.mem_of_getElem? hk)

/-- The bits of the first `k` hextets and of the high part of the next one. -/
theorem IsHextets.shift {gs : List Nat} (h : IsHextets gs) {k r : Nat} (hk : k < 8)
    (hr : r ≤ 16) : addressValue gs >>> (16 * (7 - k) + (16 - r)) =
      addressValue (gs.take k) * 2 ^ r + gs.getD k 0 / 2 ^ (16 - r) := by
  have hlt : k < gs.length := by
    rw [h.eight]
    exact hk
  have htake : gs.take (k + 1) = gs.take k ++ [gs.getD k 0] := by
    rw [List.take_succ_eq_append_getElem hlt, List.getD_eq_getElem _ _ hlt]
  have hvalue : addressValue gs >>> (16 * (7 - k))
      = addressValue (gs.take k) * 2 ^ 16 + gs.getD k 0 := by
    have hshift := h.take (k + 1)
    rw [show 8 - (k + 1) = 7 - k by omega] at hshift
    rw [← hshift, htake, addressValue, Numeral.value_append]
    simp [Numeral.value, addressValue]
  have hsplit : (2 : Nat) ^ 16 = 2 ^ r * 2 ^ (16 - r) := by
    rw [← Nat.pow_add, Nat.add_sub_of_le hr]
  rw [Nat.shiftRight_add, hvalue, Nat.shiftRight_eq_div_pow, hsplit, ← Nat.mul_assoc, Nat.add_comm,
    Nat.add_mul_div_right _ _ (Nat.two_pow_pos _), Nat.add_comm]

/-- The hextet comparison of a row asks whether its block covers the address. -/
theorem Ipv6RangeRow.matchesHextets_iff {row : Ipv6RangeRow} (wf : row.WellFormed)
    {gs : List Nat} (h : IsHextets gs) :
    row.matchesHextets gs = true ↔ row.block.Covers (addressValue gs) := by
  have hwhole : row.prefixLength >>> 4 = row.prefixLength / 16 := Nat.shiftRight_eq_div_pow _ 4
  have hrest : row.prefixLength &&& 15 = row.prefixLength % 16 :=
    Nat.and_two_pow_sub_one_eq_mod _ 4
  have hle := wf.prefix_le
  have hmasked := wf.masked
  simp only [Ipv6RangeRow.matchesHextets, Block.Covers, Ipv6RangeRow.block, hwhole, hrest,
    Bool.and_eq_true, Bool.or_eq_true, beq_iff_eq]
  generalize hk : row.prefixLength / 16 = k at *
  generalize hr : row.prefixLength % 16 = r at *
  have hlength : row.prefixLength = 16 * k + r := by omega
  by_cases hr0 : r = 0
  · have hshift : 128 - row.prefixLength = 16 * (8 - k) := by omega
    rw [hshift, ← h.take_eq_iff wf.hextets]
    simp [hr0]
  · have hk8 : k < 8 := by omega
    have hr16 : r ≤ 16 := by omega
    have hshift : 128 - row.prefixLength = 16 * (7 - k) + (16 - r) := by omega
    have hhigh {x : Nat} (hx : x < 2 ^ 16) : x / 2 ^ (16 - r) < 2 ^ r := by
      rw [Nat.div_lt_iff_lt_mul (Nat.two_pow_pos _), ← Nat.pow_add, Nat.add_sub_of_le hr16]
      exact hx
    have hbase : row.base.getD k 0 = row.base.getD k 0 / 2 ^ (16 - r) * 2 ^ (16 - r) :=
      (Nat.div_mul_cancel (Nat.dvd_of_mod_eq_zero hmasked)).symm
    have hmask : gs.getD k 0 &&& (0xffff <<< (16 - r) &&& 0xffff) = row.base.getD k 0 ↔
        gs.getD k 0 / 2 ^ (16 - r) = row.base.getD k 0 / 2 ^ (16 - r) := by
      rw [and_mask (h.getD_lt k)]
      constructor
      · intro heq
        rw [← heq, Nat.mul_div_cancel _ (Nat.two_pow_pos _)]
      · intro heq
        rw [heq, ← hbase]
    rw [hshift, h.shift hk8 hr16, wf.hextets.shift hk8 hr16,
      mul_add_eq_iff (hhigh (h.getD_lt k)) (hhigh (wf.hextets.getD_lt k)), hmask,
      h.take_eq_iff wf.hextets, ← h.take, ← wf.hextets.take]
    simp [hr0]

theorem wellFormed_iff (row : Ipv6RangeRow) : row.WellFormed ↔
    (row.base.length = 8 ∧ ∀ g ∈ row.base, g < 2 ^ 16) ∧ row.prefixLength ≤ 128 ∧
      row.base.getD (row.prefixLength / 16) 0 % 2 ^ (16 - row.prefixLength % 16) = 0 :=
  ⟨fun h => ⟨⟨h.hextets.eight, h.hextets.small⟩, h.prefix_le, h.masked⟩,
    fun h => ⟨⟨h.1.1, h.1.2⟩, h.2.1, h.2.2⟩⟩

instance (row : Ipv6RangeRow) : Decidable row.WellFormed :=
  decidable_of_iff' _ (wellFormed_iff row)

theorem IPV6_RANGES_wellFormed : ∀ row ∈ IPV6_RANGES, row.WellFormed := by
  have hrows : ∀ row ∈ IPV6_SPECIAL_RANGES ++ [MULTICAST_IPV6], row.WellFormed := by
    decide +kernel
  intro row hrow
  exact hrows row ((List.mem_insertionSort _).mp hrow)

theorem matchIpv6Range_eq {gs : List Nat} (h : IsHextets gs) : matchIpv6Range gs =
    (firstMatch Ipv6RangeRow.block IPV6_RANGES (addressValue gs)).bind fun row =>
      row.bucket.map fun bucket => ⟨bucket, row.name, row.rfc⟩ := by
  have hfind := @find?_eq_firstMatch _ _ Ipv6RangeRow.block IPV6_RANGES (addressValue gs)
    (fun row => row.matchesHextets gs) fun row hrow => Ipv6RangeRow.matchesHextets_iff (IPV6_RANGES_wellFormed row hrow) h
  rw [matchIpv6Range, if_neg (not_not.mpr h.eight), hfind]
  cases firstMatch Ipv6RangeRow.block IPV6_RANGES (addressValue gs) <;> rfl

end Linklint
