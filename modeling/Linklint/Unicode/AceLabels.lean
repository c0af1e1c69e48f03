import Linklint.Unicode.PunycodeRoundTrip

/-!
# Canonical ACE labels

What the encoder writes is ASCII and as long as its input; what the decoder
reads is made of scalar values. With the round trip, a label passes the
classification exactly when it is the encoding of some list of code points.
-/

namespace Linklint

namespace Punycode

/-! ### What the encoder writes -/

/-- The text so far is ASCII and has a code unit for every handled code point. -/
structure Written (e : EncodeState) : Prop where
  ascii : ∀ u ∈ e.out, u.toNat < 128
  length : 4 + e.handled ≤ e.out.length

theorem Written.step {n basic cp : Nat} {e e' : EncodeState} (h : Written e)
    (hstep : encodeStep n basic e cp = some e') : Written e' := by
  obtain ⟨hascii, hlength⟩ := h
  rw [encodeStep] at hstep
  by_cases hcp : cp = n
  · have hlt : ¬ cp < n := by omega
    simp only [hcp, if_true, Nat.lt_irrefl, if_false] at hstep
    split at hstep
    · cases hstep
    · cases hstep
      refine ⟨fun u hu => ?_, ?_⟩
      · rcases List.mem_append.mp hu with hold | hnew
        · exact hascii u hold
        · obtain ⟨digit, hdigit, rfl⟩ := mem_encodeDelta hnew
          exact encodeDigit_ascii hdigit
      · have hpos := List.length_pos_iff.mpr (encodeDelta_ne_nil e.bias BASE e.delta)
        change 4 + (e.handled + 1) ≤ (e.out ++ encodeDelta e.bias BASE e.delta).length
        rw [List.length_append]
        omega
  · simp only [hcp, if_false] at hstep
    cases hstep
    split <;> exact ⟨hascii, hlength⟩

theorem Written.pass {n basic : Nat} {codepoints : List Nat} {e e' : EncodeState} (h : Written e)
    (hpass : codepoints.foldlM (encodeStep n basic) e = some e') : Written e' := by
  induction codepoints generalizing e with
  | nil =>
      cases hpass
      exact h
  | cons cp codepoints ih =>
      obtain ⟨e₁, hstep, hrest⟩ := Option.bind_eq_some_iff.mp hpass
      exact ih (h.step hstep) hrest

theorem Written.loop {codepoints : List Nat} {basic fuel n : Nat} {e : EncodeState} {out : Text}
    (h : Written e) (hloop : encodeLoop codepoints basic fuel n e = some out) :
    (∀ u ∈ out, u.toNat < 128) ∧ 4 + codepoints.length ≤ out.length := by
  induction fuel generalizing n e with
  | zero =>
      rw [encodeLoop] at hloop
      split at hloop
      · cases hloop
        exact ⟨h.ascii, by have := h.length; omega⟩
      · cases hloop
  | succ fuel ih =>
      rw [encodeLoop] at hloop
      split at hloop
      · cases hloop
        exact ⟨h.ascii, by have := h.length; omega⟩
      · obtain ⟨e₁, hpass, hrest⟩ := Option.bind_eq_some_iff.mp hloop
        have hbefore : Written
            { e with delta := e.delta + (nextCodePoint codepoints n - n) * (e.handled + 1) } :=
          ⟨h.ascii, h.length⟩
        have hafter := hbefore.pass hpass
        have hnext : Written { e₁ with delta := e₁.delta + 1 } := ⟨hafter.ascii, hafter.length⟩
        exact ih hnext hrest

theorem basicText_ascii (codepoints : List Nat) : ∀ u ∈ basicText codepoints, u.toNat < 128 := by
  intro u hu
  rcases List.mem_append.mp hu with hbasic | hdelimiter
  · obtain ⟨cp, hcp, rfl⟩ := List.mem_map.mp hbasic
    have hlt := of_decide_eq_true (List.mem_filter.mp hcp).2
    exact (Nat.mod_le cp _).trans_lt hlt
  · split at hdelimiter
    · obtain rfl := List.mem_singleton.mp hdelimiter
      decide
    · cases hdelimiter

/-- An encoded label is ASCII and longer than its code points by the prefix at least. -/
theorem of_encodeAceLabel {codepoints : List Nat} {label : Text}
    (h : encodeAceLabel codepoints = some (some label)) :
    (∃ cp ∈ codepoints, 0x80 ≤ cp) ∧ (∀ u ∈ label, u.toNat < 128) ∧
      4 + codepoints.length ≤ label.length := by
  rw [encodeAceLabel] at h
  split at h
  · rename_i hany
    obtain ⟨cp, hmem, hcp⟩ := List.any_eq_true.mp hany
    obtain ⟨out, hloop, hout⟩ := Option.map_eq_some_iff.mp h
    obtain rfl : out = label := Option.some.inj hout
    refine ⟨⟨cp, hmem, of_decide_eq_true hcp⟩, Written.loop ⟨fun u hu => ?_, ?_⟩ hloop⟩
    · rcases List.mem_append.mp hu with hprefix | hbasic
      · have hascii : ACE_PREFIX.all (·.toNat < 128) = true := by decide
        exact of_decide_eq_true (List.all_eq_true.mp hascii u hprefix)
      · exact basicText_ascii codepoints u hbasic
    · have hprefix : ACE_PREFIX.length = 4 := by decide
      simp only [List.length_append, hprefix, basicText, List.length_map]
      omega
  · cases h

/-! ### The encoder returns -/

/-- The longest input whose deltas are sure to stay within `MAXINT`. -/
def CODE_POINT_LIMIT : Nat := 1900

/-- The delta never exceeds what the current code point and position account for. -/
structure Bounded (m : Nat) (before after : List Nat) (e : EncodeState) : Prop where
  handled : e.handled = (handledSoFar m before after).length
  delta : e.delta ≤ m * (e.handled + 1) + (before.filter (· ≤ m)).length

section
variable {m cp : Nat} {before after codepoints : List Nat} {e : EncodeState}

theorem Bounded.delta_le (h : Bounded m before (m :: after) e) (hm : m < 0x110000)
    (hlength : (before ++ m :: after).length ≤ CODE_POINT_LIMIT) : e.delta ≤ MAXINT := by
  have hhandled := h.handled
  have hbefore := List.length_filter_le (· ≤ m) before
  have hafter := List.length_filter_le (· < m) after
  have hskip : (m :: after).filter (· < m) = after.filter (· < m) := by simp
  rw [handledSoFar, hskip, List.length_append] at hhandled
  rw [List.length_append, List.length_cons] at hlength
  simp only [CODE_POINT_LIMIT] at hlength
  have hproduct := Nat.mul_le_mul (show m ≤ 0x10ffff by omega) (show e.handled + 1 ≤ 1900 by omega)
  have hdelta := h.delta
  simp only [MAXINT]
  omega

theorem Bounded.step (basic : Nat) (h : Bounded m before (cp :: after) e) (hcp : cp < 0x110000)
    (hlength : (before ++ cp :: after).length ≤ CODE_POINT_LIMIT) :
    ∃ e', encodeStep m basic e cp = some e' ∧ Bounded m (before ++ [cp]) after e' := by
  obtain ⟨hhandled, hdelta⟩ := id h
  rcases Nat.lt_trichotomy cp m with hlt | heq | hgt
  · have hne : cp ≠ m := by omega
    refine ⟨{ e with delta := e.delta + 1 }, by simp [encodeStep, hlt, hne], ?_, ?_⟩
    · simpa [handledSoFar, hlt, hlt.le] using hhandled
    · simp only [List.filter_append, List.length_append, List.filter_cons, hlt.le, decide_true,
        if_true, List.filter_nil, List.length_singleton]
      omega
  · obtain rfl : m = cp := heq.symm
    have hmax := h.delta_le hcp hlength
    refine ⟨{ out := e.out ++ encodeDelta e.bias BASE e.delta, delta := 0
              bias := adapt e.delta (e.handled + 1) (e.handled == basic)
              handled := e.handled + 1 }, ?_, ?_, Nat.zero_le _⟩
    · simp only [encodeStep, Nat.lt_irrefl, if_false, if_true, Nat.not_lt.mpr hmax]
    · simp only [handledSoFar, List.length_append, List.filter_append, List.filter_cons,
        Nat.lt_irrefl, le_refl, decide_true, decide_false, if_true, List.filter_nil,
        List.length_singleton, Bool.false_eq_true, if_false] at hhandled ⊢
      omega
  · have hne : cp ≠ m := by omega
    have hlt : ¬ cp < m := by omega
    have hle : ¬ cp ≤ m := by omega
    refine ⟨e, by simp [encodeStep, hlt, hne], ?_, ?_⟩
    · simpa [handledSoFar, hlt, hle] using hhandled
    · simpa [hle] using hdelta

theorem Bounded.pass (basic : Nat) (h : Bounded m before after e) (hbound : ∀ cp ∈ after, cp < 0x110000)
    (hlength : (before ++ after).length ≤ CODE_POINT_LIMIT) :
    ∃ e', after.foldlM (encodeStep m basic) e = some e' ∧ Bounded m (before ++ after) [] e' := by
  induction after generalizing before e with
  | nil => exact ⟨e, rfl, by rwa [List.append_nil]⟩
  | cons cp after ih =>
      obtain ⟨e₁, hstep, hbounded⟩ := h.step basic (hbound cp (List.mem_cons_self ..)) hlength
      have happend : before ++ [cp] ++ after = before ++ cp :: after := by simp
      obtain ⟨e', hrest, hbounded'⟩ := ih hbounded
        (fun cp' hmem => hbound cp' (List.mem_cons_of_mem _ hmem)) (by rwa [happend])
      exact ⟨e', Option.bind_eq_some_iff.mpr ⟨e₁, hstep, hrest⟩, happend ▸ hbounded'⟩

theorem Bounded.skip {n : Nat} (h : Bounded n [] codepoints e) (hle : n ≤ m)
    (hnone : ∀ cp ∈ codepoints, n ≤ cp → m ≤ cp) :
    Bounded m [] codepoints { e with delta := e.delta + (m - n) * (e.handled + 1) } := by
  have hsame : codepoints.filter (· < n) = codepoints.filter (· < m) := by
    refine List.filter_congr fun cp hcp => ?_
    have := hnone cp hcp
    simp only [decide_eq_decide]
    omega
  have hproduct : n * (e.handled + 1) + (m - n) * (e.handled + 1) = m * (e.handled + 1) := by
    rw [← Nat.add_mul, Nat.add_sub_cancel' hle]
  refine ⟨h.handled.trans (congrArg List.length hsame), ?_⟩
  have hdelta := h.delta
  simp only [List.filter_nil, List.length_nil] at hdelta ⊢
  omega

theorem Bounded.turn (h : Bounded m codepoints [] e) :
    Bounded (m + 1) [] codepoints { e with delta := e.delta + 1 } := by
  have hhandled : e.handled = (codepoints.filter (· ≤ m)).length := by
    simpa [handledSoFar] using h.handled
  refine ⟨?_, ?_⟩
  · simpa [handledSoFar, Nat.lt_succ_iff] using hhandled
  · have hdelta := h.delta
    rw [← hhandled] at hdelta
    simp only [List.filter_nil, List.length_nil, Nat.succ_mul]
    omega

theorem length_filter_lt_le (hmem : m ∈ codepoints) :
    (codepoints.filter (· < m)).length < (codepoints.filter (· ≤ m)).length := by
  have hfilter : codepoints.filter (· < m) = (codepoints.filter (· ≤ m)).filter (· < m) := by
    rw [List.filter_filter]
    refine List.filter_congr fun cp _ => ?_
    rw [← Bool.decide_and, decide_eq_decide]
    omega
  rw [hfilter, List.length_filter_lt_length_iff_exists]
  exact ⟨m, List.mem_filter.mpr ⟨hmem, decide_eq_true le_rfl⟩, by simp⟩

/-- With a pass for every code point the encoder returns. -/
theorem Bounded.loop {fuel n : Nat} (basic : Nat) (h : Bounded n [] codepoints e)
    (hbound : ∀ cp ∈ codepoints, cp < 0x110000) (hlength : codepoints.length ≤ CODE_POINT_LIMIT)
    (hfuel : codepoints.length ≤ e.handled + fuel) :
    ∃ out, encodeLoop codepoints basic fuel n e = some out := by
  induction fuel generalizing n e with
  | zero =>
      rw [encodeLoop]
      exact ⟨e.out, if_pos (show codepoints.length ≤ e.handled from hfuel)⟩
  | succ fuel ih =>
      rw [encodeLoop]
      by_cases hdone : codepoints.length ≤ e.handled
      · exact ⟨e.out, if_pos hdone⟩
      · have hhandled : e.handled = (codepoints.filter (· < n)).length := h.handled
        obtain ⟨hmem, hle, hmin⟩ := nextCodePoint_least
          (fun cp hcp => lt_trans (hbound cp hcp) (by decide))
          (exists_left (show (codepoints.filter (· < n)).length < codepoints.length by omega))
        have hskipped := h.skip hle hmin
        obtain ⟨e₁, hpass, hafter⟩ := hskipped.pass basic hbound hlength
        have hmore : e.handled < e₁.handled :=
          calc e.handled = (codepoints.filter (· < nextCodePoint codepoints n)).length :=
                hskipped.handled
            _ < (codepoints.filter (· ≤ nextCodePoint codepoints n)).length :=
                length_filter_lt_le hmem
            _ = e₁.handled := by simpa [handledSoFar] using hafter.handled.symm
        obtain ⟨out, hout⟩ := ih hafter.turn
          (show codepoints.length ≤ e₁.handled + fuel by omega)
        exact ⟨out, by rw [if_neg hdone]; exact Option.bind_eq_some_iff.mpr ⟨e₁, hpass, hout⟩⟩

end

/-- The encoder returns on every list of code points that is not too long. -/
theorem encodeAceLabel_returns {codepoints : List Nat} (hbound : ∀ cp ∈ codepoints, cp < 0x110000)
    (hlength : codepoints.length ≤ CODE_POINT_LIMIT) :
    ∃ encoded, encodeAceLabel codepoints = some encoded := by
  rw [encodeAceLabel]
  by_cases hany : codepoints.any (0x80 ≤ ·) = true
  · have hinitial : Bounded INITIAL_N [] codepoints
        { out := ACE_PREFIX ++ basicText codepoints, delta := 0, bias := INITIAL_BIAS
          handled := (codepoints.filter (· < 0x80)).length } := ⟨rfl, Nat.zero_le _⟩
    obtain ⟨out, hout⟩ :=
      hinitial.loop (codepoints.filter (· < 0x80)).length hbound hlength (Nat.le_add_left ..)
    exact ⟨some out, by simp only [hany, if_true, hout, Option.map_some]⟩
  · exact ⟨none, if_neg hany⟩

/-! ### What the decoder reads -/

theorem of_insertCodePoint {s s' : DecodeState} {i : Nat} (h : insertCodePoint s i = .ok s') :
    isUnicodeScalar s'.n = true ∧ ∃ position ≤ s.output.length,
      s'.output = s.output.insertIdx position s'.n := by
  simp only [insertCodePoint] at h
  split at h
  · cases h
  · split at h
    · cases h
    · rename_i hscalar
      cases h
      refine ⟨by simpa using hscalar, i % (s.output.length + 1), ?_, rfl⟩
      exact Nat.lt_succ_iff.mp (Nat.mod_lt i (Nat.succ_pos _))

/-- The decoder adds scalar values only, and at most one for each code unit. -/
theorem of_decodeLoop {s : DecodeState} {payload : Text} {codepoints : List Nat}
    (h : decodeLoop s payload = .ok codepoints) :
    codepoints.length ≤ s.output.length + payload.length ∧
      ∀ cp ∈ codepoints, cp ∈ s.output ∨ isUnicodeScalar cp = true := by
  fun_induction decodeLoop s payload with
  | case1 s =>
      cases h
      exact ⟨Nat.le_refl _, fun cp hcp => Or.inl hcp⟩
  | case2 s payload _ subCode _ => cases h
  | case3 s payload _ i rest _ subCode _ => cases h
  | case4 s payload _ i rest hread s' hinsert ih =>
      obtain ⟨hlength, hmem⟩ := ih h
      obtain ⟨hscalar, position, hposition, houtput⟩ := of_insertCodePoint hinsert
      have hrest := length_of_readDelta hread
      rw [houtput] at hlength hmem
      rw [List.length_insertIdx_of_le_length hposition] at hlength
      refine ⟨by omega, fun cp hcp => ?_⟩
      rcases hmem cp hcp with hold | hnew
      · rcases (List.mem_insertIdx hposition).mp hold with rfl | hold
        · exact Or.inr hscalar
        · exact Or.inl hold
      · exact Or.inr hnew

/-- A decoded label has no more code points than code units, each a unit or a scalar value. -/
theorem of_decodeAceLabel {label : Text} {codepoints : List Nat}
    (h : decodeAceLabel label = .ok codepoints) :
    codepoints.length ≤ label.length ∧
      ∀ cp ∈ codepoints, (∃ u ∈ label, cp = u.toNat) ∨ isUnicodeScalar cp = true := by
  rw [decodeAceLabel] at h
  split at h
  · cases h
  · have hdrop : (label.drop 4).length ≤ label.length := by simp
    cases hcut : Text.cutLast (unit '-') (label.drop 4) with
    | mk basic payload =>
        simp only [hcut] at h
        obtain ⟨hlength, hmem⟩ := of_decodeLoop h
        simp only [initialDecode, List.length_map] at hlength
        have hbasic : (basic.getD []).length + payload.length ≤ (label.drop 4).length ∧
            ∀ u ∈ basic.getD [], u ∈ label.drop 4 := by
          cases basic with
          | none => simp [eq_of_cutLast_none hcut]
          | some basic =>
              rw [eq_of_cutLast hcut]
              simp only [Option.getD_some, List.length_append, List.length_cons]
              exact ⟨by omega, fun u hu => List.mem_append_left _ hu⟩
        refine ⟨by omega, fun cp hcp => (hmem cp hcp).imp_left fun hunit => ?_⟩
        obtain ⟨u, hu, rfl⟩ := List.mem_map.mp hunit
        exact ⟨u, List.mem_of_mem_drop (hbasic.2 u hu), rfl⟩

/-! ### The codec -/

/-- What the case mapping of a platform does to the length of a text. -/
structure LowerCaseLength (P : Platform) : Prop where
  bounded : ∀ s, (P.toLowerCase s).length ≤ 3 * s.length
  ascii : ∀ s, (∀ u ∈ P.toLowerCase s, u.toNat < 128) → (P.toLowerCase s).length = s.length

theorem lowerCaseLength_ascii : LowerCaseLength Platform.ascii where
  bounded s := by
    rw [show Platform.ascii.toLowerCase s = s.map asciiLower from rfl, List.length_map]
    omega
  ascii s _ := List.length_map ..

/-- Scalar values that need an ACE label of at most 63 characters. -/
structure EncodedAs (codepoints : List Nat) (label : Text) : Prop where
  scalar : ∀ cp ∈ codepoints, isUnicodeScalar cp = true
  nonAscii : ∃ cp ∈ codepoints, 0x80 ≤ cp
  encoded : encodeAceLabel codepoints = some (some label)
  short : label.length ≤ 63

/-- What the codec promises about labels. -/
structure Codec (P : Platform) : Prop where
  /-- the encoder returns -/
  returns : ∀ codepoints, (∀ cp ∈ codepoints, isUnicodeScalar cp = true) →
    codepoints.length ≤ CODE_POINT_LIMIT → ∃ encoded, encodeAceLabel codepoints = some encoded
  decodes : ∀ codepoints label, EncodedAs codepoints label → decodeAceLabel label = .ok codepoints
  /-- a classification is a value, and `none` is the canonical encoding of some list -/
  classifies : ∀ label : Text, label.length ≤ 63 →
    ∃ answer, classifyAceLabel P label = some answer ∧
      (answer = none ↔ ∃ codepoints, EncodedAs codepoints (P.toLowerCase label))

theorem EncodedAs.decode {codepoints : List Nat} {label : Text} (h : EncodedAs codepoints label) :
    decodeAceLabel label = .ok codepoints := by
  have hlength := (of_encodeAceLabel h.encoded).2.2
  have hshort := h.short
  exact decode_encode h.scalar (by omega) h.encoded

/-- Code points that encode back to their label are an encoding. -/
theorem encodedAs_of_decode {label : Text} {codepoints : List Nat}
    (hdecode : decodeAceLabel label = .ok codepoints)
    (hencode : encodeAceLabel codepoints = some (some label)) (hshort : label.length ≤ 63) :
    EncodedAs codepoints label := by
  obtain ⟨hnonAscii, hascii, -⟩ := of_encodeAceLabel hencode
  refine ⟨fun cp hcp => ?_, hnonAscii, hencode, hshort⟩
  rcases (of_decodeAceLabel hdecode).2 cp hcp with ⟨u, hu, rfl⟩ | hscalar
  · have hlt := hascii u hu
    simp only [isUnicodeScalar, Bool.and_eq_true, decide_eq_true_eq, Bool.not_eq_true',
      Bool.and_eq_false_iff, decide_eq_false_iff_not]
    omega
  · exact hscalar

theorem punycode_codec {P : Platform} (hlower : LowerCaseLength P) : Codec P where
  returns codepoints hscalar hlength :=
    encodeAceLabel_returns (fun cp hcp => scalar_lt (hscalar cp hcp)) hlength
  decodes codepoints label h := h.decode
  classifies label hshort := by
    have hbounded := hlower.bounded label
    generalize hname : P.toLowerCase label = lower at *
    cases hdecode : decodeAceLabel lower with
    | error subCode =>
        refine ⟨some subCode, by simp only [classifyAceLabel, hname, hdecode], ?_⟩
        constructor
        · intro hnone
          cases hnone
        · rintro ⟨codepoints, h⟩
          rw [h.decode] at hdecode
          cases hdecode
    | ok codepoints =>
        obtain ⟨hlength, hunits⟩ := of_decodeAceLabel hdecode
        have hbound : ∀ cp ∈ codepoints, cp < 0x110000 := by
          intro cp hcp
          rcases hunits cp hcp with ⟨u, -, rfl⟩ | hscalar
          · exact lt_trans u.toNat_lt (by decide)
          · exact scalar_lt hscalar
        obtain ⟨encoded, hencoded⟩ := encodeAceLabel_returns hbound
          (show codepoints.length ≤ 1900 by omega)
        refine ⟨if encoded = some lower then none else some .nonCanonicalEncoding,
          by simp only [classifyAceLabel, hname, hdecode, hencoded, Option.map_some], ?_⟩
        constructor
        · intro hnone
          have hcanonical : encoded = some lower := by
            by_contra hne
            rw [if_neg hne] at hnone
            cases hnone
          rw [hcanonical] at hencoded
          have hascii := (of_encodeAceLabel hencoded).2.1
          have hsame := hlower.ascii label (hname ▸ hascii)
          rw [hname] at hsame
          exact ⟨codepoints, encodedAs_of_decode hdecode hencoded (by omega)⟩
        · rintro ⟨codepoints', h⟩
          have hsame : codepoints' = codepoints := Except.ok.inj (h.decode.symm.trans hdecode)
          rw [hsame.symm] at hencoded
          rw [if_pos (Option.some.inj (hencoded.symm.trans h.encoded))]

theorem punycode_codec_ascii : Codec Platform.ascii := punycode_codec lowerCaseLength_ascii

end Punycode

end Linklint
