import Linklint.Js.Codecs

/-!
# The encoders beside the decoders

UTF-8, percent encoding and base64url as they are written, and what the decoders
make of it. UTF-8 and base64url are read back exactly, and only their own output
is accepted.
-/

namespace Linklint

/-! ### UTF-8 -/

def utf8Bytes (cp : Nat) : List Nat :=
  if cp < 0x80 then [cp]
  else if cp < 0x800 then [0xC0 + cp / 64, 0x80 + cp % 64]
  else if cp < 0x10000 then [0xE0 + cp / 4096, 0x80 + cp / 64 % 64, 0x80 + cp % 64]
  else [0xF0 + cp / 262144, 0x80 + cp / 4096 % 64, 0x80 + cp / 64 % 64, 0x80 + cp % 64]

theorem isScalarValue_iff {cp : Nat} :
    isScalarValue cp = true ↔ cp ≤ 0x10FFFF ∧ ¬(0xD800 ≤ cp ∧ cp ≤ 0xDFFF) := by
  simp only [isScalarValue, Bool.and_eq_true, Bool.not_eq_true', Bool.and_eq_false_iff,
    decide_eq_true_eq, decide_eq_false_iff_not]
  omega

theorem utf8Lead_eq_some {b count bits : Nat} (h : utf8Lead b = some (count, bits)) :
    (count = 0 ∧ b < 0x80 ∧ bits = b) ∨ (count = 1 ∧ bits < 0x20 ∧ b = 0xC0 + bits)
      ∨ (count = 2 ∧ bits < 0x10 ∧ b = 0xE0 + bits) ∨ (count = 3 ∧ bits < 8 ∧ b = 0xF0 + bits) := by
  rw [utf8Lead] at h
  split at h
  · cases h
    omega
  · split at h
    · cases h
      omega
    · split at h
      · cases h
        omega
      · split at h
        · cases h
          omega
        · cases h

/-- An encoding is its leading byte and the bytes that byte announces. -/
theorem utf8Bytes_split {cp : Nat} (h : isScalarValue cp = true) :
    ∃ lead bits following, utf8Bytes cp = lead :: following ∧
      utf8Lead lead = some (following.length, bits) ∧ utf8CodePoint bits following = some cp := by
  obtain ⟨hle, -⟩ := isScalarValue_iff.mp h
  rw [utf8Bytes]
  split
  · rename_i hone
    refine ⟨cp, cp, [], rfl, ?_, ?_⟩
    · rw [utf8Lead, if_pos hone]
      rfl
    · simp [utf8CodePoint, utf8Minimum, h]
  · split
    · rename_i hone htwo
      refine ⟨_, cp / 64, [_], rfl, ?_, ?_⟩
      · rw [utf8Lead, if_neg (by omega), if_pos (by omega)]
        simp
      · have hcp : cp / 64 * 64 + cp % 64 = cp := by omega
        have hlow : 0x80 ≤ cp := by omega
        have hbyte : 0x80 + cp % 64 < 0xC0 := by omega
        simp [utf8CodePoint, utf8Minimum, hcp, h, hlow, hbyte]
    · split
      · rename_i hone htwo hthree
        refine ⟨_, cp / 4096, [_, _], rfl, ?_, ?_⟩
        · rw [utf8Lead, if_neg (by omega), if_neg (by omega), if_pos (by omega)]
          simp
        · have hcp : (cp / 4096 * 64 + cp / 64 % 64) * 64 + cp % 64 = cp := by omega
          have hlow : 0x800 ≤ cp := by omega
          have hbyte : 0x80 + cp / 64 % 64 < 0xC0 := by omega
          have hbyte' : 0x80 + cp % 64 < 0xC0 := by omega
          simp [utf8CodePoint, utf8Minimum, hcp, h, hlow, hbyte, hbyte']
      · rename_i hone htwo hthree
        refine ⟨_, cp / 262144, [_, _, _], rfl, ?_, ?_⟩
        · rw [utf8Lead, if_neg (by omega), if_neg (by omega), if_neg (by omega), if_pos (by omega)]
          simp
        · have hcp : ((cp / 262144 * 64 + cp / 4096 % 64) * 64 + cp / 64 % 64) * 64 + cp % 64 = cp := by
            omega
          have hlow : 0x10000 ≤ cp := by omega
          have hbyte : 0x80 + cp / 4096 % 64 < 0xC0 := by omega
          have hbyte' : 0x80 + cp / 64 % 64 < 0xC0 := by omega
          have hbyte'' : 0x80 + cp % 64 < 0xC0 := by omega
          simp [utf8CodePoint, utf8Minimum, hcp, h, hlow, hbyte, hbyte', hbyte'']

/-- The decoder takes no other bytes for a code point. -/
theorem utf8Bytes_of_codePoint {lead bits cp : Nat} {following : List Nat}
    (hlead : utf8Lead lead = some (following.length, bits))
    (h : utf8CodePoint bits following = some cp) :
    lead :: following = utf8Bytes cp ∧ isScalarValue cp = true := by
  rw [utf8CodePoint] at h
  simp only [Option.ite_none_right_eq_some, List.all_eq_true, Bool.and_eq_true, decide_eq_true_eq]
    at h
  obtain ⟨⟨hbytes, hmin, hscalar⟩, hcp⟩ := h
  cases hcp
  refine ⟨?_, hscalar⟩
  clear hscalar
  rcases utf8Lead_eq_some hlead with ⟨hcount, hbits⟩ | ⟨hcount, hbits⟩ | ⟨hcount, hbits⟩
    | ⟨hcount, hbits⟩
  · obtain rfl := List.length_eq_zero_iff.mp hcount
    obtain ⟨hone, rfl⟩ := hbits
    rw [List.foldl_nil, utf8Bytes, if_pos hone]
  · obtain ⟨b, rfl⟩ := List.length_eq_one_iff.mp hcount
    have hb := hbytes b (by simp)
    simp only [List.length_cons, List.length_nil, utf8Minimum, List.foldl_cons, List.foldl_nil]
      at hmin ⊢
    rw [utf8Bytes, if_neg (by omega), if_pos (by omega)]
    simp only [List.cons.injEq, and_true]
    omega
  · obtain ⟨b, c, rfl⟩ := List.length_eq_two.mp hcount
    have hb := hbytes b (by simp)
    have hc := hbytes c (by simp)
    simp only [List.length_cons, List.length_nil, utf8Minimum, List.foldl_cons, List.foldl_nil]
      at hmin ⊢
    rw [utf8Bytes, if_neg (by omega), if_neg (by omega), if_pos (by omega)]
    simp only [List.cons.injEq, and_true]
    omega
  · obtain ⟨b, c, d, rfl⟩ := List.length_eq_three.mp hcount
    have hb := hbytes b (by simp)
    have hc := hbytes c (by simp)
    have hd := hbytes d (by simp)
    simp only [List.length_cons, List.length_nil, utf8Minimum, List.foldl_cons, List.foldl_nil]
      at hmin ⊢
    rw [utf8Bytes, if_neg (by omega), if_neg (by omega), if_neg (by omega)]
    simp only [List.cons.injEq, and_true]
    omega

theorem utf8CodePoints_append {cp : Nat} (h : isScalarValue cp = true) (rest : List Nat) :
    utf8CodePoints (utf8Bytes cp ++ rest) = (utf8CodePoints rest).map (cp :: ·) := by
  obtain ⟨lead, bits, following, hbytes, hlead, hcp⟩ := utf8Bytes_split h
  rw [hbytes, List.cons_append, utf8CodePoints, hlead]
  simp only [List.length_append]
  rw [if_neg (by omega), List.take_left, List.drop_left, hcp]
  cases utf8CodePoints rest <;> rfl

theorem utf8CodePoints_eq_some_iff {bytes cps : List Nat} :
    utf8CodePoints bytes = some cps ↔
      bytes = cps.flatMap utf8Bytes ∧ ∀ cp ∈ cps, isScalarValue cp = true := by
  constructor
  · intro h
    induction bytes using utf8CodePoints.induct generalizing cps with
    | case1 =>
        rw [utf8CodePoints] at h
        cases h
        exact ⟨rfl, nofun⟩
    | case2 b rest hnone =>
        rw [utf8CodePoints, hnone] at h
        cases h
    | case3 b rest count bits hlead hshort =>
        rw [utf8CodePoints, hlead] at h
        simp only [if_pos hshort] at h
        cases h
    | case4 b rest count bits hlead hlong ih =>
        rw [utf8CodePoints, hlead] at h
        simp only [if_neg hlong] at h
        obtain ⟨cp, hcp, h⟩ := Option.bind_eq_some_iff.mp h
        obtain ⟨more, hmore, h⟩ := Option.bind_eq_some_iff.mp h
        cases h
        obtain ⟨hrest, hscalars⟩ := ih hmore
        have hlength : (rest.take count).length = count := by
          rw [List.length_take]
          omega
        obtain ⟨hbytes, hscalar⟩ := utf8Bytes_of_codePoint (by rw [hlength]; exact hlead) hcp
        constructor
        · rw [List.flatMap_cons, ← hbytes, ← hrest, List.cons_append, List.take_append_drop]
        · exact List.forall_mem_cons.mpr ⟨hscalar, hscalars⟩
  · rintro ⟨rfl, h⟩
    induction cps with
    | nil => rw [List.flatMap_nil, utf8CodePoints]
    | cons cp rest ih =>
        rw [List.flatMap_cons, utf8CodePoints_append (h cp (List.mem_cons_self ..)),
          ih fun other hother => h other (List.mem_cons_of_mem _ hother)]
        rfl

/-! ### Percent encoding -/

/-- A digit as `encodeURIComponent` writes it. -/
def upperHexUnit (d : Nat) : CodeUnit := UInt16.ofNat (if d < 10 then 48 + d else 55 + d)

def percentByte (b : Nat) : Text := [unit '%', upperHexUnit (b / 16), upperHexUnit (b % 16)]

/-- `encodeURIComponent` of a character it does not leave as it is. -/
def percentEscape (cp : Nat) : Text := (utf8Bytes cp).flatMap percentByte

theorem digitValue_upperHexUnit {d : Nat} (hd : d < 16) :
    digitValue (upperHexUnit d) = some d := by
  have small : ∀ e < 16, digitValue (upperHexUnit e) = some e := by decide
  exact small d hd

theorem percentOctet_percentByte {b : Nat} (hb : b < 256) (rest : Text) :
    percentOctet (percentByte b ++ rest) = some (b, rest) := by
  have hsum : b / 16 * 16 + b % 16 = b := by omega
  simp only [percentByte, List.cons_append, List.nil_append, percentOctet, if_true,
    digitValue_upperHexUnit (show b / 16 < 16 by omega),
    digitValue_upperHexUnit (show b % 16 < 16 by omega)]
  exact congrArg (fun n => some (n, rest)) hsum

theorem percentOctets_flatMap {bytes : List Nat} (h : ∀ b ∈ bytes, b < 256) (rest : Text) :
    percentOctets bytes.length (bytes.flatMap percentByte ++ rest) = some (bytes, rest) := by
  induction bytes with
  | nil => rfl
  | cons b bytes ih =>
      rw [List.flatMap_cons, List.append_assoc, List.length_cons, percentOctets,
        percentOctet_percentByte (h b (List.mem_cons_self ..))]
      have hrest := ih fun other hother => h other (List.mem_cons_of_mem _ hother)
      simp [hrest]

theorem utf8Bytes_lt {cp : Nat} (h : isScalarValue cp = true) : ∀ b ∈ utf8Bytes cp, b < 256 := by
  obtain ⟨hle, -⟩ := isScalarValue_iff.mp h
  intro b hb
  rw [utf8Bytes] at hb
  split at hb
  · simp only [List.mem_cons, List.not_mem_nil, or_false] at hb
    omega
  · split at hb
    · simp only [List.mem_cons, List.not_mem_nil, or_false] at hb
      omega
    · split at hb
      · simp only [List.mem_cons, List.not_mem_nil, or_false] at hb
        omega
      · simp only [List.mem_cons, List.not_mem_nil, or_false] at hb
        omega

theorem percentCharacter_percentEscape {cp : Nat} (h : isScalarValue cp = true) (rest : Text) :
    percentCharacter (percentEscape cp ++ rest) = some (cp, rest) := by
  have hbytes := utf8Bytes_lt h
  obtain ⟨lead, bits, following, hsplit, hlead, hcp⟩ := utf8Bytes_split h
  rw [hsplit, List.forall_mem_cons] at hbytes
  rw [percentEscape, hsplit, List.flatMap_cons, List.append_assoc, percentCharacter,
    percentOctet_percentByte hbytes.1]
  simp [hlead, percentOctets_flatMap hbytes.2, hcp]

theorem decodeURIComponent_cons {u : CodeUnit} (h : u ≠ unit '%') (rest : Text) :
    decodeURIComponent (u :: rest) = (decodeURIComponent rest).map (u :: ·) := by
  rw [decodeURIComponent, if_neg h]

theorem decodeURIComponent_escape {cp : Nat} (h : isScalarValue cp = true) (rest : Text) :
    decodeURIComponent (percentEscape cp ++ rest)
      = (decodeURIComponent rest).map (encodeCodePoint cp ++ ·) := by
  have hcharacter := percentCharacter_percentEscape h rest
  obtain ⟨lead, bits, following, hsplit, -, -⟩ := utf8Bytes_split h
  obtain ⟨more, hmore⟩ : ∃ more, percentEscape cp ++ rest = unit '%' :: more := by
    rw [percentEscape, hsplit, List.flatMap_cons, percentByte, List.cons_append, List.cons_append]
    exact ⟨_, rfl⟩
  rw [hmore] at hcharacter ⊢
  rw [decodeURIComponent, if_pos rfl]
  split
  · rename_i hnone
    rw [hcharacter] at hnone
    cases hnone
  · rename_i cp' rest' hsome
    rw [hcharacter] at hsome
    cases hsome
    rfl

/-! ### base64url -/

theorem sextetBytes_byteSextets {bytes : List Nat} (h : ∀ b ∈ bytes, b < 256) :
    sextetBytes (byteSextets bytes) = bytes := by
  induction bytes using byteSextets.induct with
  | case1 x y z rest ih =>
      have hx := h x (by simp)
      have hy := h y (by simp)
      have hz := h z (by simp)
      rw [byteSextets, sextetBytes, ih fun b hb => h b (by simp [hb])]
      congr 1
      · omega
      · congr 1
        · omega
        · congr 1
          omega
  | case2 x y =>
      have hx := h x (by simp)
      have hy := h y (by simp)
      simp only [byteSextets, sextetBytes, List.cons.injEq, and_true]
      omega
  | case3 x =>
      have hx := h x (by simp)
      simp only [byteSextets, sextetBytes, List.cons.injEq, and_true]
      omega
  | case4 => rfl

theorem byteSextets_lt {bytes : List Nat} (h : ∀ b ∈ bytes, b < 256) :
    ∀ sextet ∈ byteSextets bytes, sextet < 64 := by
  induction bytes using byteSextets.induct with
  | case1 x y z rest ih =>
      have hx := h x (by simp)
      have hy := h y (by simp)
      have hz := h z (by simp)
      have hrest := ih fun b hb => h b (by simp [hb])
      simp only [byteSextets, List.forall_mem_cons]
      exact ⟨by omega, by omega, by omega, by omega, hrest⟩
  | case2 x y =>
      have hx := h x (by simp)
      have hy := h y (by simp)
      simp only [byteSextets, List.forall_mem_cons]
      exact ⟨by omega, by omega, by omega, nofun⟩
  | case3 x =>
      have hx := h x (by simp)
      simp only [byteSextets, List.forall_mem_cons]
      exact ⟨by omega, by omega, nofun⟩
  | case4 => nofun

/-- No encoding leaves a single digit over. -/
theorem byteSextets_length (bytes : List Nat) : (byteSextets bytes).length % 4 ≠ 1 := by
  induction bytes using byteSextets.induct with
  | case1 x y z rest ih =>
      simp only [byteSextets, List.length_cons]
      omega
  | case2 x y => simp [byteSextets]
  | case3 x => simp [byteSextets]
  | case4 => simp [byteSextets]

theorem alphabet_digit {sextet : Nat} (h : sextet < 64) :
    BASE64URL_ALPHABET.idxOf (BASE64URL_ALPHABET.getD sextet 0) = sextet
      ∧ BASE64URL_ALPHABET.getD sextet 0 ∈ BASE64URL_ALPHABET := by
  have all : ∀ n < 64, BASE64URL_ALPHABET.idxOf (BASE64URL_ALPHABET.getD n 0) = n
      ∧ BASE64URL_ALPHABET.getD n 0 ∈ BASE64URL_ALPHABET := by decide +kernel
  exact all sextet h

theorem base64UrlBytes_text {bytes : List Nat} (h : ∀ b ∈ bytes, b < 256) :
    base64UrlBytes (base64UrlText bytes) = bytes := by
  rw [base64UrlBytes, base64UrlText, List.map_map]
  have hdigits : (byteSextets bytes).map (BASE64URL_ALPHABET.idxOf ∘
      fun sextet => BASE64URL_ALPHABET.getD sextet 0) = byteSextets bytes := by
    refine (List.map_congr_left fun sextet hsextet => ?_).trans (List.map_id _)
    exact (alphabet_digit (byteSextets_lt h sextet hsextet)).1
  rw [hdigits, sextetBytes_byteSextets h]

theorem mem_base64UrlText {bytes : List Nat} (h : ∀ b ∈ bytes, b < 256) :
    ∀ u ∈ base64UrlText bytes, u ∈ BASE64URL_ALPHABET := by
  intro u hu
  obtain ⟨sextet, hsextet, rfl⟩ := List.mem_map.mp hu
  exact (alphabet_digit (byteSextets_lt h sextet hsextet)).2

theorem base64UrlText_length (bytes : List Nat) : (base64UrlText bytes).length % 4 ≠ 1 := by
  rw [base64UrlText, List.length_map]
  exact byteSextets_length bytes

end Linklint
