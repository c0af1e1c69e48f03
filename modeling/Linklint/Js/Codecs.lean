import Linklint.Js.Text

/-!
# Text codecs of the platform

UTF-8, percent encoding and base64url as the language and its runtime decode
them. A decoder that throws is one that answers `none`.
-/

namespace Linklint

/-! ### UTF-8 -/

def isScalarValue (n : Nat) : Bool := n ≤ 0x10FFFF && !(0xD800 ≤ n && n ≤ 0xDFFF)

/-- How many bytes follow a leading byte, and the bits it gives. -/
def utf8Lead (b : Nat) : Option (Nat × Nat) :=
  if b < 0x80 then some (0, b)
  else if 0xC0 ≤ b ∧ b < 0xE0 then some (1, b - 0xC0)
  else if 0xE0 ≤ b ∧ b < 0xF0 then some (2, b - 0xE0)
  else if 0xF0 ≤ b ∧ b < 0xF8 then some (3, b - 0xF0)
  else none

/-- The least code point of an encoding with so many bytes after the first. -/
def utf8Minimum : Nat → Nat
  | 0 => 0
  | 1 => 0x80
  | 2 => 0x800
  | _ => 0x10000

/-- The code point of a leading byte's bits and the bytes after it. -/
def utf8CodePoint (bits : Nat) (following : List Nat) : Option Nat :=
  let cp := following.foldl (fun acc b => acc * 64 + (b - 0x80)) bits
  if following.all (fun b => 0x80 ≤ b && b < 0xC0) ∧ utf8Minimum following.length ≤ cp ∧
      isScalarValue cp then some cp
  else none

/-- The code points of a byte sequence that is UTF-8. -/
def utf8CodePoints : List Nat → Option (List Nat)
  | [] => some []
  | b :: rest =>
      match utf8Lead b with
      | none => none
      | some (count, bits) =>
          if rest.length < count then none
          else do
            let cp ← utf8CodePoint bits (rest.take count)
            let more ← utf8CodePoints (rest.drop count)
            return cp :: more
termination_by bytes => bytes.length
decreasing_by simp only [List.length_drop, List.length_cons]; omega

/-- `new TextDecoder("utf-8", { fatal: true }).decode(bytes)`, as its code points. -/
def textDecode (bytes : List Nat) : Option (List Nat) :=
  (utf8CodePoints bytes).map fun cps => if cps.head? = some 0xFEFF then cps.tail else cps

/-! ### Percent encoding -/

/-- One `%XX`. -/
def percentOctet : Text → Option (Nat × Text)
  | percent :: high :: low :: rest =>
      if percent = unit '%' then do
        let h ← digitValue high
        let l ← digitValue low
        return (h * 16 + l, rest)
      else none
  | _ => none

def percentOctets : Nat → Text → Option (List Nat × Text)
  | 0, s => some ([], s)
  | count + 1, s => do
      let (octet, rest) ← percentOctet s
      let (octets, rest) ← percentOctets count rest
      return (octet :: octets, rest)

/-- The character of a percent-encoded sequence. -/
def percentCharacter (s : Text) : Option (Nat × Text) := do
  let (octet, rest) ← percentOctet s
  let (count, bits) ← utf8Lead octet
  let (following, rest) ← percentOctets count rest
  let cp ← utf8CodePoint bits following
  return (cp, rest)

theorem length_of_percentOctet {s rest : Text} {octet : Nat}
    (h : percentOctet s = some (octet, rest)) : rest.length < s.length := by
  match s, h with
  | percent :: high :: low :: tail, h =>
      rw [percentOctet] at h
      split at h
      · obtain ⟨high', -, h⟩ := Option.bind_eq_some_iff.mp h
        obtain ⟨low', -, h⟩ := Option.bind_eq_some_iff.mp h
        cases h
        simp only [List.length_cons]
        omega
      · cases h

theorem length_of_percentOctets {count : Nat} {s rest : Text} {octets : List Nat}
    (h : percentOctets count s = some (octets, rest)) : rest.length ≤ s.length := by
  induction count generalizing s octets with
  | zero =>
      cases h
      exact Nat.le_refl _
  | succ count ih =>
      obtain ⟨⟨octet, tail⟩, hoctet, h⟩ := Option.bind_eq_some_iff.mp h
      obtain ⟨⟨more, tail'⟩, hmore, h⟩ := Option.bind_eq_some_iff.mp h
      cases h
      have hfirst := length_of_percentOctet hoctet
      have hrest := ih hmore
      omega

theorem length_of_percentCharacter {s rest : Text} {cp : Nat}
    (h : percentCharacter s = some (cp, rest)) : rest.length < s.length := by
  obtain ⟨⟨octet, tail⟩, hoctet, h⟩ := Option.bind_eq_some_iff.mp h
  obtain ⟨⟨count, bits⟩, -, h⟩ := Option.bind_eq_some_iff.mp h
  obtain ⟨⟨following, tail'⟩, hoctets, h⟩ := Option.bind_eq_some_iff.mp h
  obtain ⟨cp', -, h⟩ := Option.bind_eq_some_iff.mp h
  cases h
  have hfirst := length_of_percentOctet hoctet
  have hrest := length_of_percentOctets hoctets
  omega

def decodeURIComponent : Text → Option Text
  | [] => some []
  | u :: rest =>
      if u = unit '%' then
        match _h : percentCharacter (u :: rest) with
        | none => none
        | some (cp, rest) => (decodeURIComponent rest).map (encodeCodePoint cp ++ ·)
      else (decodeURIComponent rest).map (u :: ·)
termination_by s => s.length
decreasing_by
  · exact length_of_percentCharacter _h
  · exact Nat.lt_succ_self _

example : decodeURIComponent (text "a%2F%E2%82%AC") = some (text "a/€") := by decide +kernel

/-! ### base64url -/

def BASE64URL_ALPHABET : Text :=
  text "ABCDEFGHIJKLMNOPQRSTUVWXYZabcdefghijklmnopqrstuvwxyz0123456789-_"

def sextetBytes : List Nat → List Nat
  | a :: b :: c :: d :: rest =>
      (a * 4 + b / 16) :: (b % 16 * 16 + c / 4) :: (c % 4 * 64 + d) :: sextetBytes rest
  | [a, b, c] => [a * 4 + b / 16, b % 16 * 16 + c / 4]
  | [a, b] => [a * 4 + b / 16]
  | _ => []

def byteSextets : List Nat → List Nat
  | x :: y :: z :: rest =>
      (x / 4) :: (x % 4 * 16 + y / 16) :: (y % 16 * 4 + z / 64) :: (z % 64) :: byteSextets rest
  | [x, y] => [x / 4, x % 4 * 16 + y / 16, y % 16 * 4]
  | [x] => [x / 4, x % 4 * 16]
  | [] => []

/-- `Buffer.from(encoded, "base64url")` of a text over the alphabet. -/
def base64UrlBytes (encoded : Text) : List Nat := sextetBytes (encoded.map BASE64URL_ALPHABET.idxOf)

/-- `bytes.toString("base64url")` -/
def base64UrlText (bytes : List Nat) : Text :=
  (byteSextets bytes).map fun sextet => BASE64URL_ALPHABET.getD sextet 0

end Linklint
