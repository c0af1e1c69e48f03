import Linklint.Transport.Address
import Linklint.Js.Number

/-!
# Pinning a destination

The one decision between a resolver's answers and the address that is connected
to: every answer is classified, and the first one is selected.
-/

namespace Linklint

/-- An answer as a resolver outside the types may give it. -/
structure DnsAddress where
  address : Text
  family : JsNum
  ttlSeconds : JsNum

/-- `isIP` as a number. -/
def ipNumber : Option IpFamily → JsNum
  | none => .ofNat 0
  | some .ipv4 => .ofNat 4
  | some .ipv6 => .ofNat 6

/-- A finite number that is not negative. -/
def isTtl : JsNum → Bool
  | .fin q => decide (0 ≤ q)
  | _ => false

def malformedAddress (answer : DnsAddress) : Bool :=
  ipNumber (isIP answer.address) != answer.family || (isIP answer.address).isNone
    || !isTtl answer.ttlSeconds

def resolvedTexts (addresses : List DnsAddress) : List Text := addresses.map DnsAddress.address

/-- An answer the connection boundary may use. -/
def Allowed (answer : DnsAddress) : Prop :=
  (classifyTransportAddress answer.address).allowed = true

instance : DecidablePred Allowed := fun answer => by
  unfold Allowed
  infer_instance

/-- A set of answers that were all allowed, the first of them selected. -/
structure PinnedDestination where
  addresses : List DnsAddress
  selected : DnsAddress
  first : addresses.head? = some selected
  wellFormed : addresses.any malformedAddress = false
  allowed : ∀ answer ∈ addresses, Allowed answer

namespace PinnedDestination

def resolvedAddresses (pin : PinnedDestination) : List Text := resolvedTexts pin.addresses

theorem selected_mem (pin : PinnedDestination) : pin.selected ∈ pin.addresses :=
  List.mem_of_mem_head? pin.first

end PinnedDestination

inductive PinResult where
  | pinned (pin : PinnedDestination)
  | prohibited (answer : DnsAddress) (category : TransportAddressCategory)
  | dnsNotFound
  | dnsMalformed

/-- A literal is its own and only answer; the resolver is not asked. -/
def literalAddresses (hostname : Text) : Option (List DnsAddress) :=
  (isIP hostname).map fun family =>
    [{ address := hostname, family := ipNumber (some family), ttlSeconds := .ofNat 0 }]

def pinDestination (addresses : List DnsAddress) : PinResult :=
  match first : addresses.head? with
  | none => .dnsNotFound
  | some selected =>
      if malformed : addresses.any malformedAddress then .dnsMalformed
      else
        match refused : addresses.find? fun answer => !decide (Allowed answer) with
        | some answer =>
            .prohibited answer ((classifyTransportAddress answer.address).category.getD .invalid)
        | none =>
            .pinned
              { addresses, selected, first
                wellFormed := by simpa using malformed
                allowed := by
                  intro answer hanswer
                  have passes := List.find?_eq_none.mp refused answer hanswer
                  simpa using passes }

theorem pinDestination_addresses {addresses : List DnsAddress} {pin : PinnedDestination}
    (h : pinDestination addresses = .pinned pin) : pin.addresses = addresses := by
  unfold pinDestination at h
  split at h
  · cases h
  · split at h
    · cases h
    · split at h
      · cases h
      · cases h
        rfl

end Linklint
