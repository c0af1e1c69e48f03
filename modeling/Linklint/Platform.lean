import Linklint.Js.Host

/-!
# What the program takes from its platform

Unicode case mapping and classes, the IDNA processor, the Public Suffix List
lookup and the clock. The laws are the documented behaviour on ASCII that the
program relies on.
-/

namespace Linklint

structure TldtsResult where
  domain : Option Text
  publicSuffix : Option Text
  subdomain : Option Text
  isIp : Option Bool
  isIcann : Option Bool

structure Platform where
  /-- `String.prototype.toLowerCase` -/
  toLowerCase : Text → Text
  /-- `[\p{L}\p{M}\p{N}]` with the `u` flag -/
  isLetterMarkNumber : Nat → Bool
  /-- `tr46.toUnicode(host, { transitionalProcessing: false }).domain` -/
  tr46ToUnicode : Text → Except Thrown Text
  /-- `parse(host, { allowPrivateDomains, detectIp: true })` -/
  tldtsParse : (allowPrivateDomains : Bool) → Text → Except Thrown TldtsResult
  /-- `Date.now()`, in milliseconds -/
  now : Int
  toLowerCase_ascii : ∀ s : Text, (∀ u ∈ s, u.toNat < 128) → toLowerCase s = s.map asciiLower
  isLetterMarkNumber_ascii : ∀ cp < 128,
    isLetterMarkNumber cp = (isDigit (UInt16.ofNat cp) || isAsciiLetter (UInt16.ofNat cp))

namespace Platform

variable (P : Platform)

/-- The Unicode form of a host, or the host itself when processing fails. -/
def toUnicode (host : Text) : Text :=
  match P.tr46ToUnicode host with
  | .ok domain => if domain = [] then host else domain
  | .error _ => host

/-- A platform that knows ASCII only and whose suffix list is empty. -/
def ascii : Platform where
  toLowerCase s := s.map asciiLower
  isLetterMarkNumber cp :=
    decide (cp < 128) && (isDigit (UInt16.ofNat cp) || isAsciiLetter (UInt16.ofNat cp))
  tr46ToUnicode host := .ok (host.map asciiLower)
  tldtsParse _ host := .ok
    { domain := some host, publicSuffix := (host.splitOn (unit '.')).getLast?,
      subdomain := some [], isIp := some false, isIcann := some true }
  now := 0
  toLowerCase_ascii := fun _ _ => rfl
  isLetterMarkNumber_ascii := by
    intro cp h
    simp [h]

end Platform

theorem toLowerCase_visible {P : Platform} {s : Text} (h : ∀ u ∈ s, VisibleAscii u) :
    P.toLowerCase s = s.map asciiLower := by
  refine P.toLowerCase_ascii s fun u hu => ?_
  have := (h u hu).2
  omega

end Linklint
