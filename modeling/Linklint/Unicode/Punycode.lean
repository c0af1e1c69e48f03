import Linklint.Platform

/-!
# Punycode labels

The checked decoder and the encoder of RFC 3492 behind the punycode detector.
The encoder's arithmetic is unchecked in the source; a delta beyond 32 bits is
outside the model.
-/

namespace Linklint

inductive PunycodeSubCode where
  | emptyAcePayload
  | invalidPunycodeDigit
  | truncatedPunycodeInput
  | punycodeOverflow
  | decodedCodePointOutOfRange
  | nonCanonicalEncoding
  | invalidIdnaLabel
deriving DecidableEq

namespace Punycode

def BASE : Nat := 36
def TMIN : Nat := 1
def TMAX : Nat := 26
def SKEW : Nat := 38
def DAMP : Nat := 700
def INITIAL_BIAS : Nat := 72
def INITIAL_N : Nat := 128
def MAXINT : Nat := 0x7fffffff

def decodeDigit (c : CodeUnit) : Option Nat :=
  if 0x30 ≤ c.toNat ∧ c.toNat ≤ 0x39 then some (c.toNat - 0x30 + 26)
  else if 0x61 ≤ c.toNat ∧ c.toNat ≤ 0x7a then some (c.toNat - 0x61)
  else if 0x41 ≤ c.toNat ∧ c.toNat ≤ 0x5a then some (c.toNat - 0x41)
  else none

def encodeDigit (d : Nat) : CodeUnit := UInt16.ofNat (if d < 26 then d + 0x61 else d - 26 + 0x30)

def threshold (k bias : Nat) : Nat :=
  if k ≤ bias then TMIN else if bias + TMAX ≤ k then TMAX else k - bias

theorem threshold_pos (k bias : Nat) : 1 ≤ threshold k bias := by
  grind [threshold, TMIN, TMAX]

theorem threshold_le (k bias : Nat) : threshold k bias ≤ 26 := by
  grind [threshold, TMIN, TMAX]

/-- Thresholds never fall from one digit to the next. -/
theorem threshold_mono (k bias : Nat) : threshold k bias ≤ threshold (k + BASE) bias := by
  grind [threshold, TMIN, TMAX, BASE]

/-- The halving loop of `adapt`. -/
def adaptLoop (delta k : Nat) : Nat × Nat :=
  if (BASE - TMIN) * TMAX / 2 < delta then adaptLoop (delta / (BASE - TMIN)) (k + BASE)
  else (delta, k)
termination_by delta
decreasing_by exact Nat.div_lt_self (by omega) (by decide)

/-- The bias after a delta; `delta >> 1` is exact up to `MAXINT`. -/
def adapt (delta numpoints : Nat) (first : Bool) : Nat :=
  let delta := if first then delta / DAMP else delta / 2
  let (delta, k) := adaptLoop (delta + delta / numpoints) 0
  k + (BASE - TMIN + 1) * delta / (delta + SKEW)

def isUnicodeScalar (n : Nat) : Bool := n ≤ 0x10ffff && !(0xd800 ≤ n && n ≤ 0xdfff)

/-! ### Decoding -/

/-- Read one generalized integer into `i`, from the digit `k` with the weight `w`. -/
def readDelta (bias : Nat) : Nat → Nat → Nat → Text → Except PunycodeSubCode (Nat × Text)
  | _, _, _, [] => .error .truncatedPunycodeInput
  | k, w, i, c :: rest =>
      match decodeDigit c with
      | none => .error .invalidPunycodeDigit
      | some digit =>
          if (MAXINT - i) / w < digit then .error .punycodeOverflow
          else
            let i := i + digit * w
            let t := threshold k bias
            if digit < t then .ok (i, rest)
            else if MAXINT / (BASE - t) < w then .error .punycodeOverflow
            else readDelta bias (k + BASE) (w * (BASE - t)) i rest

theorem length_of_readDelta {bias k w i i' : Nat} {payload rest : Text}
    (h : readDelta bias k w i payload = .ok (i', rest)) : rest.length < payload.length := by
  induction payload generalizing k w i with
  | nil => cases h
  | cons c tail ih =>
      rw [readDelta] at h
      cases hdigit : decodeDigit c with
      | none =>
          rw [hdigit] at h
          cases h
      | some digit =>
          simp only [hdigit] at h
          split at h
          · cases h
          · split at h
            · cases h
              exact Nat.lt_succ_self _
            · split at h
              · cases h
              · exact Nat.lt_succ_of_lt (ih h)

structure DecodeState where
  n : Nat
  i : Nat
  bias : Nat
  output : List Nat

/-- Insert the code point that `i` has reached since `oldi`. -/
def insertCodePoint (s : DecodeState) (i : Nat) : Except PunycodeSubCode DecodeState :=
  let outLen := s.output.length + 1
  let increment := i / outLen
  if MAXINT - s.n < increment then .error .punycodeOverflow
  else if isUnicodeScalar (s.n + increment) = false then .error .decodedCodePointOutOfRange
  else
    .ok
      { n := s.n + increment
        i := i % outLen + 1
        bias := adapt (i - s.i) outLen (s.i == 0)
        output := s.output.insertIdx (i % outLen) (s.n + increment) }

/-- The digits after the delimiter. -/
def decodeLoop (s : DecodeState) (payload : Text) : Except PunycodeSubCode (List Nat) :=
  if payload = [] then .ok s.output
  else
    match _h : readDelta s.bias BASE 1 s.i payload with
    | .error subCode => .error subCode
    | .ok (i, rest) =>
        match insertCodePoint s i with
        | .error subCode => .error subCode
        | .ok s => decodeLoop s rest
termination_by payload.length
decreasing_by exact length_of_readDelta _h

def initialDecode (output : List Nat) : DecodeState :=
  { n := INITIAL_N, i := 0, bias := INITIAL_BIAS, output }

/-- Decode a lowercased `xn--` label to its code points. -/
def decodeAceLabel (label : Text) : Except PunycodeSubCode (List Nat) :=
  if label.length = 4 then .error .emptyAcePayload
  else
    let (basic, payload) := Text.cutLast (unit '-') (label.drop 4)
    decodeLoop (initialDecode ((basic.getD []).map (·.toNat))) payload

/-! ### Encoding -/

/-- The digits of one delta. -/
def encodeDelta (bias k q : Nat) : Text :=
  let t := threshold k bias
  if q < t then [encodeDigit q]
  else encodeDigit (t + (q - t) % (BASE - t)) :: encodeDelta bias (k + BASE) ((q - t) / (BASE - t))
termination_by q
decreasing_by
  have hpos := threshold_pos k bias
  have hle := Nat.div_le_self (q - threshold k bias) (BASE - threshold k bias)
  omega

structure EncodeState where
  out : Text
  delta : Nat
  bias : Nat
  handled : Nat

/-- One code point of a pass for the code point `n`. -/
def encodeStep (n basic : Nat) (s : EncodeState) (cp : Nat) : Option EncodeState :=
  let s := if cp < n then { s with delta := s.delta + 1 } else s
  if cp = n then
    if MAXINT < s.delta then none
    else
      some
        { out := s.out ++ encodeDelta s.bias BASE s.delta
          delta := 0
          bias := adapt s.delta (s.handled + 1) (s.handled == basic)
          handled := s.handled + 1 }
  else some s

/-- The least code point that is not below `n`. -/
def nextCodePoint (codepoints : List Nat) (n : Nat) : Nat :=
  codepoints.foldl (fun m cp => if n ≤ cp ∧ cp < m then cp else m) MAXINT

/-- The passes, with the number of them allowed. -/
def encodeLoop (codepoints : List Nat) (basic : Nat) : Nat → Nat → EncodeState → Option Text
  | fuel, n, s =>
      if codepoints.length ≤ s.handled then some s.out
      else
        match fuel with
        | 0 => none
        | fuel + 1 => do
            let m := nextCodePoint codepoints n
            let s ← codepoints.foldlM (encodeStep m basic)
              { s with delta := s.delta + (m - n) * (s.handled + 1) }
            encodeLoop codepoints basic fuel (m + 1) { s with delta := s.delta + 1 }

def ACE_PREFIX : Text := text "xn--"

/-- The basic code points of a label and their delimiter. -/
def basicText (codepoints : List Nat) : Text :=
  let basic := codepoints.filter (· < 0x80)
  basic.map UInt16.ofNat ++ if 0 < basic.length then [unit '-'] else []

/-- Encode code points to a label; the inner `none` is the `null` of all-ASCII input. -/
def encodeAceLabel (codepoints : List Nat) : Option (Option Text) :=
  if codepoints.any (0x80 ≤ ·) then
    let basic := (codepoints.filter (· < 0x80)).length
    (encodeLoop codepoints basic codepoints.length INITIAL_N
      { out := ACE_PREFIX ++ basicText codepoints, delta := 0, bias := INITIAL_BIAS
        handled := basic }).map some
  else some none

/-! ### Classification -/

/-- The failure of one label, `none` when it decodes and encodes back. -/
def classifyAceLabel (P : Platform) (label : Text) : Option (Option PunycodeSubCode) :=
  let lower := P.toLowerCase label
  match decodeAceLabel lower with
  | .error subCode => some (some subCode)
  | .ok codepoints =>
      (encodeAceLabel codepoints).map fun encoded =>
        if encoded = some lower then none else some .nonCanonicalEncoding

example : classifyAceLabel Platform.ascii (text "XN--bcher-kva") = some none := by decide +kernel

end Punycode

end Linklint
