import Linklint.Detectors.IpClassification

/-!
# Addresses at the connection boundary

`isIP` and `BlockList` of `node:net` over the bits a text denotes, the
supplemental ranges, and the fail-closed decision for one resolved address.
-/

namespace Linklint

open PrefixTable

/-- The bits of an address: 32 of them, or eight hextets. -/
inductive Address where
  | v4 (bits : Nat)
  | v6 (hextets : List Nat)
deriving DecidableEq

/-- A code unit of a zone suffix. -/
def isZoneUnit (u : CodeUnit) : Bool :=
  isDigit u || isAsciiLetter u || u == unit '-' || u == unit '.' || u == unit ':'

/-- A text `isIP` accepts, its zone and the bits it denotes. -/
inductive AddressText : Text → Option Text → Address → Prop
  | quad {s : Text} {n : Nat} (quad : Ipv4Text s n) : AddressText s none (.v4 n)
  | literal {s : Text} {gs : List Nat} (literal : Ipv6Text s gs) : AddressText s none (.v6 gs)
  | zoned {s zone : Text} {gs : List Nat} (literal : Ipv6Text s gs) (ne : zone ≠ [])
      (units : zone.all isZoneUnit = true) : AddressText (s ++ unit '%' :: zone) (some zone) (.v6 gs)

/-- The reader behind `isIP` and `BlockList`: a quad, or an IPv6 literal and its zone. -/
def readAddress (address : Text) : Option Address :=
  match parseStrictDottedQuad address with
  | some n => some (.v4 n)
  | none =>
      match Text.cutFirst (unit '%') address with
      | (body, none) => (ipv6Groups body).map .v6
      | (body, some zone) =>
          if zone ≠ [] ∧ zone.all isZoneUnit then (ipv6Groups body).map .v6 else none

inductive IpFamily where
  | ipv4 | ipv6
deriving DecidableEq

def Address.family : Address → IpFamily
  | .v4 _ => .ipv4
  | .v6 _ => .ipv6

/-- `isIP`, with `none` for zero. -/
def isIP (address : Text) : Option IpFamily := (readAddress address).map Address.family

inductive TransportAddressCategory where
  | core (bucket : Bucket)
  | documentation | benchmark | discard | transition | invalid
deriving DecidableEq

def TransportAddressCategory.name : TransportAddressCategory → Text
  | .core .ipCloudMetadata => text "ip_cloud_metadata"
  | .core (.range .ipLoopback) => text "ip_loopback"
  | .core (.range .ipLinkLocal) => text "ip_link_local"
  | .core (.range .ipPrivate) => text "ip_private"
  | .core (.range .ipReserved) => text "ip_reserved"
  | .documentation => text "documentation"
  | .benchmark => text "benchmark"
  | .discard => text "discard"
  | .transition => text "transition"
  | .invalid => text "invalid"

structure SupplementalRange where
  category : TransportAddressCategory
  network : Text
  prefixLength : Nat
  family : IpFamily

def SUPPLEMENTAL_RANGES : List SupplementalRange :=
  [⟨.documentation, text "192.0.2.0", 24, .ipv4⟩,
   ⟨.documentation, text "198.51.100.0", 24, .ipv4⟩,
   ⟨.documentation, text "203.0.113.0", 24, .ipv4⟩,
   ⟨.documentation, text "2001:db8::", 32, .ipv6⟩,
   ⟨.documentation, text "3fff::", 20, .ipv6⟩,
   ⟨.benchmark, text "198.18.0.0", 15, .ipv4⟩,
   ⟨.benchmark, text "2001:2::", 48, .ipv6⟩,
   ⟨.discard, text "192.0.0.0", 24, .ipv4⟩,
   ⟨.discard, text "192.88.99.0", 24, .ipv4⟩,
   ⟨.discard, text "100::", 64, .ipv6⟩,
   ⟨.discard, text "5f00::", 16, .ipv6⟩,
   ⟨.transition, text "64:ff9b::", 96, .ipv6⟩,
   ⟨.transition, text "64:ff9b:1::", 48, .ipv6⟩,
   ⟨.transition, text "::", 96, .ipv6⟩,
   ⟨.transition, text "2001::", 23, .ipv6⟩,
   ⟨.transition, text "2002::", 16, .ipv6⟩,
   ⟨.core (.range .ipReserved), text "::ffff:0:0", 96, .ipv6⟩,
   ⟨.core (.range .ipReserved), text "fec0::", 10, .ipv6⟩]

/-- The bits of an address lie in a range: same family, same leading bits. -/
def SupplementalRange.Contains (range : SupplementalRange) (address : Address) : Prop :=
  match readAddress range.network, address with
  | some (.v4 network), .v4 n => (Block.mk network range.prefixLength : Block 32).Covers n
  | some (.v6 network), .v6 gs =>
      (Block.mk (addressValue network) range.prefixLength : Block 128).Covers (addressValue gs)
  | _, _ => False

instance (range : SupplementalRange) (address : Address) : Decidable (range.Contains address) := by
  unfold SupplementalRange.Contains
  split <;> infer_instance

/-- `BlockList.check` of a rule: it reads the bits of the text and ignores a zone. -/
def SupplementalRange.check (range : SupplementalRange) (address : Text) : Bool :=
  match readAddress address with
  | some bits => decide (range.Contains bits)
  | none => false

structure TransportAddressDecision where
  address : Text
  family : Option IpFamily
  allowed : Bool
  category : Option TransportAddressCategory

def classifyTransportAddress (address : Text) : TransportAddressDecision :=
  match isIP address with
  | none => { address, family := none, allowed := false, category := some .invalid }
  | some family =>
      match classifyHost address with
      | some coreClassification =>
          { address, family := some family, allowed := false,
            category := some (.core coreClassification.found.bucket) }
      | none =>
          match SUPPLEMENTAL_RANGES.find? fun rule =>
              rule.family == family && rule.check address with
          | some rule =>
              { address, family := some family, allowed := false, category := some rule.category }
          | none => { address, family := some family, allowed := true, category := none }

/-- Two texts of one family denote the same bits. -/
def addressesEqual (left right : Text) : Bool :=
  match readAddress left, readAddress right with
  | some l, some r => l == r
  | _, _ => false

end Linklint
