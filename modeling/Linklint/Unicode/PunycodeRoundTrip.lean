import Linklint.Unicode.Punycode

/-!
# The Punycode round trip

Encoder and decoder in lock step. What the encoder has written for the code
points below `m`, and for those equal to `m` up to a position, takes the decoder
to exactly these code points, in their order.
-/

namespace Linklint

namespace Punycode

/-! ### Digits -/

theorem decodeDigit_encodeDigit {d : Nat} (h : d < 36) : decodeDigit (encodeDigit d) = some d := by
  have small : ∀ e < 36, decodeDigit (encodeDigit e) = some e := by decide
  exact small d h

theorem encodeDigit_ne_delimiter {d : Nat} (h : d < 36) : encodeDigit d ≠ unit '-' := by
  have small : ∀ e < 36, encodeDigit e ≠ unit '-' := by decide
  exact small d h

theorem encodeDigit_ascii {d : Nat} (h : d < 36) : (encodeDigit d).toNat < 128 := by
  have small : ∀ e < 36, (encodeDigit e).toNat < 128 := by decide
  exact small d h

/-- The digit written at a threshold stays below the base. -/
theorem digit_lt {t : Nat} (ht : t ≤ 26) (q : Nat) : t + (q - t) % (BASE - t) < 36 := by
  have hmod := Nat.mod_lt (q - t) (show 0 < BASE - t by simp only [BASE]; omega)
  simp only [BASE] at *
  omega

theorem mem_encodeDelta {bias k q : Nat} {u : CodeUnit} (h : u ∈ encodeDelta bias k q) :
    ∃ d < 36, u = encodeDigit d := by
  have hle := threshold_le k bias
  rw [encodeDelta] at h
  split at h
  · obtain rfl := List.mem_singleton.mp h
    exact ⟨q, by omega, rfl⟩
  · rcases List.mem_cons.mp h with rfl | hrest
    · exact ⟨_, digit_lt hle q, rfl⟩
    · exact mem_encodeDelta hrest
termination_by q
decreasing_by
  have hpos := threshold_pos k bias
  have hdiv := Nat.div_le_self (q - threshold k bias) (BASE - threshold k bias)
  omega

theorem encodeDelta_ne_nil (bias k q : Nat) : encodeDelta bias k q ≠ [] := by
  rw [encodeDelta]
  split <;> simp

/-! ### Generalized integers -/

/-- The largest value every weight of which stays within `MAXINT`. -/
def DELTA_LIMIT : Nat := MAXINT / 17

/-- While the threshold is one the weight is a power of 35. -/
def PlainWeight (bias k w : Nat) : Prop := threshold k bias = 1 → ∃ a, w = 35 ^ a

theorem plainWeight_one (bias k : Nat) : PlainWeight bias k 1 := fun _ => ⟨0, rfl⟩

theorem plainWeight_next {bias k w : Nat} (h : PlainWeight bias k w) :
    PlainWeight bias (k + BASE) (w * (BASE - threshold k bias)) := by
  intro hnext
  have hmono := threshold_mono k bias
  have hone : threshold k bias = 1 := by
    have hpos := threshold_pos k bias
    omega
  obtain ⟨a, rfl⟩ := h hone
  exact ⟨a + 1, by rw [hone, pow_succ]; rfl⟩

/-- The weight that follows a digit of a limited value does not overflow. -/
theorem weight_le {bias k w : Nat} (hplain : PlainWeight bias k w)
    (hlimit : threshold k bias * w ≤ DELTA_LIMIT) : w * (BASE - threshold k bias) ≤ MAXINT := by
  have hle := threshold_le k bias
  have hpos := threshold_pos k bias
  simp only [DELTA_LIMIT, MAXINT, BASE] at *
  by_cases hone : threshold k bias = 1
  · obtain ⟨a, rfl⟩ := hplain hone
    rw [hone] at hlimit ⊢
    have ha : a < 6 := by
      by_contra hge
      have hpow : 35 ^ 6 ≤ 35 ^ a := Nat.pow_le_pow_right (by omega) (by omega)
      omega
    have hpow : 35 ^ a ≤ 35 ^ 5 := Nat.pow_le_pow_right (by omega) (by omega)
    omega
  · have htwo : 2 * w ≤ threshold k bias * w := Nat.mul_le_mul_right w (by omega)
    have hfactor : w * (36 - threshold k bias) ≤ w * 34 := Nat.mul_le_mul_left w (by omega)
    omega

/-- A limited value is read back from its digits, whatever follows them. -/
theorem readDelta_encodeDelta (bias : Nat) (q k w i : Nat) (rest : Text) (hw : 0 < w)
    (hplain : PlainWeight bias k w) (hlimit : i + q * w ≤ DELTA_LIMIT) :
    readDelta bias k w i (encodeDelta bias k q ++ rest) = .ok (i + q * w, rest) := by
  induction q using Nat.strong_induction_on generalizing k w i with
  | _ q ih =>
      have hle := threshold_le k bias
      have hpos := threshold_pos k bias
      -- a digit of the value never trips the first guard
      have hfits : ∀ digit ≤ q, ¬ (MAXINT - i) / w < digit := by
        intro digit hdigit
        have hmul : digit * w ≤ q * w := Nat.mul_le_mul_right w hdigit
        have hmax : digit * w ≤ MAXINT - i := by
          simp only [DELTA_LIMIT, MAXINT] at *
          omega
        exact Nat.not_lt.mpr ((Nat.le_div_iff_mul_le hw).mpr hmax)
      rw [encodeDelta]
      by_cases hlast : q < threshold k bias
      · simp only [hlast, if_true, List.cons_append, List.nil_append, readDelta,
          decodeDigit_encodeDigit (show q < 36 by omega), hfits q le_rfl, if_false]
      · have hdigit := digit_lt hle q
        have hsplit := Nat.mod_add_div' (q - threshold k bias) (BASE - threshold k bias)
        have hsmall := Nat.div_le_self (q - threshold k bias) (BASE - threshold k bias)
        simp only [hlast, if_false, List.cons_append, readDelta, decodeDigit_encodeDigit hdigit]
        generalize hd : threshold k bias + (q - threshold k bias) % (BASE - threshold k bias) =
          digit at *
        generalize hq : (q - threshold k bias) / (BASE - threshold k bias) = q' at *
        have hvalue : digit + q' * (BASE - threshold k bias) = q := by omega
        have hdigitq : digit ≤ q := by omega
        have hsum : i + digit * w + q' * (w * (BASE - threshold k bias)) = i + q * w := by
          rw [← hvalue]
          ring
        have hweight : w * (BASE - threshold k bias) ≤ MAXINT := by
          refine weight_le hplain ?_
          have hmul : threshold k bias * w ≤ q * w := Nat.mul_le_mul_right w (by omega)
          omega
        have hbase : 0 < BASE - threshold k bias := by
          simp only [BASE]
          omega
        have hguard : ¬ MAXINT / (BASE - threshold k bias) < w :=
          Nat.not_lt.mpr ((Nat.le_div_iff_mul_le hbase).mpr hweight)
        simp only [hfits digit hdigitq, show ¬ digit < threshold k bias by omega, hguard, if_false]
        rw [ih q' (by omega) _ _ _ (Nat.mul_pos hw hbase) (plainWeight_next hplain) (by omega),
          hsum]

/-! ### One insertion -/

theorem insertCodePoint_reached {s : DecodeState} {i m position : Nat}
    (hi : i = (m - s.n) * (s.output.length + 1) + position)
    (hposition : position ≤ s.output.length)
    (hn : s.n ≤ m) (hm : isUnicodeScalar m = true) :
    insertCodePoint s i = .ok
      { n := m, i := position + 1, bias := adapt (i - s.i) (s.output.length + 1) (s.i == 0)
        output := s.output.insertIdx position m } := by
  have hdiv : i / (s.output.length + 1) = m - s.n := by
    rw [hi, Nat.mul_comm, Nat.mul_add_div (by omega), Nat.div_eq_of_lt (by omega), Nat.add_zero]
  have hmod : i % (s.output.length + 1) = position := by
    rw [hi, Nat.mul_comm, Nat.mul_add_mod, Nat.mod_eq_of_lt (by omega)]
  have hmax : ¬ MAXINT - s.n < m - s.n := by
    simp only [isUnicodeScalar, Bool.and_eq_true, decide_eq_true_eq] at hm
    simp only [MAXINT]
    omega
  have hsum : s.n + (m - s.n) = m := by omega
  simp only [insertCodePoint, hdiv, hmod, hmax, hsum, hm, if_false, Bool.true_eq_false]

/-- The digits of the delta to a code point and a position insert it there. -/
theorem decodeLoop_encodeDelta {s : DecodeState} {delta m position : Nat} (tail : Text)
    (hreach : s.i + delta = (m - s.n) * (s.output.length + 1) + position)
    (hposition : position ≤ s.output.length) (hn : s.n ≤ m) (hm : isUnicodeScalar m = true)
    (hlimit : s.i + delta ≤ DELTA_LIMIT) :
    decodeLoop s (encodeDelta s.bias BASE delta ++ tail) = decodeLoop
      { n := m, i := position + 1, bias := adapt delta (s.output.length + 1) (s.i == 0)
        output := s.output.insertIdx position m } tail := by
  have hne : encodeDelta s.bias BASE delta ++ tail ≠ [] := by simp [encodeDelta_ne_nil]
  have hread : readDelta s.bias BASE 1 s.i (encodeDelta s.bias BASE delta ++ tail) =
      .ok (s.i + delta, tail) := by
    have h := readDelta_encodeDelta s.bias delta BASE 1 s.i tail Nat.one_pos
      (plainWeight_one _ _) (by omega)
    rwa [Nat.mul_one] at h
  have hinsert := insertCodePoint_reached hreach hposition hn hm
  rw [Nat.add_sub_cancel_left] at hinsert
  rw [decodeLoop, if_neg hne]
  split
  · rename_i herror
    rw [hread] at herror
    cases herror
  · rename_i i rest hok
    rw [hread] at hok
    cases hok
    simp only [hinsert]

/-! ### Lock step -/

/-- What the encoder has written takes the decoder from `d` to `d'`. -/
def Emits (out out' : Text) (d d' : DecodeState) : Prop :=
  ∃ emitted, out' = out ++ emitted ∧ (∀ u ∈ emitted, ∃ digit < 36, u = encodeDigit digit) ∧
    ∀ tail, decodeLoop d (emitted ++ tail) = decodeLoop d' tail

theorem Emits.refl (out : Text) (d : DecodeState) : Emits out out d d :=
  ⟨[], (List.append_nil out).symm, by simp, fun _ => rfl⟩

theorem Emits.trans {out₁ out₂ out₃ : Text} {d₁ d₂ d₃ : DecodeState} (h : Emits out₁ out₂ d₁ d₂)
    (h' : Emits out₂ out₃ d₂ d₃) : Emits out₁ out₃ d₁ d₃ := by
  obtain ⟨first, rfl, hdigits, hfirst⟩ := h
  obtain ⟨second, rfl, hdigits', hsecond⟩ := h'
  refine ⟨first ++ second, List.append_assoc .., fun u hu => ?_, fun tail => ?_⟩
  · exact (List.mem_append.mp hu).elim (hdigits u) (hdigits' u)
  · rw [List.append_assoc, hfirst, hsecond]

/-- The code points below `m`, and those equal to `m` before a position. -/
def handledSoFar (m : Nat) (before after : List Nat) : List Nat :=
  before.filter (· ≤ m) ++ after.filter (· < m)

/-- The encoder at a position of the pass for `m`, and the decoder after what it has written. -/
structure LockStep (basic m : Nat) (before after : List Nat) (e : EncodeState) (d : DecodeState) :
    Prop where
  output : d.output = handledSoFar m before after
  handled : e.handled = d.output.length
  bias : e.bias = d.bias
  low : d.n ≤ m
  reach : d.i + e.delta = (m - d.n) * (d.output.length + 1) + (before.filter (· ≤ m)).length
  first : (e.handled == basic) = (d.i == 0)
  basic_le : basic ≤ e.handled

section
variable {basic m cp : Nat} {before after : List Nat} {e e' : EncodeState} {d : DecodeState}

theorem LockStep.position_le (h : LockStep basic m before after e d) :
    (before.filter (· ≤ m)).length ≤ d.output.length := by
  rw [h.output, handledSoFar, List.length_append]
  omega

/-- Short inputs keep every delta limited. -/
theorem LockStep.limited (h : LockStep basic m before (m :: after) e d)
    (hm : isUnicodeScalar m = true) (hlength : (before ++ m :: after).length ≤ 59) :
    d.i + e.delta ≤ DELTA_LIMIT := by
  have hposition := h.position_le
  have houtput : d.output.length + 1 ≤ 59 := by
    have hbefore := List.length_filter_le (· ≤ m) before
    have hafter := List.length_filter_le (· < m) after
    have hskip : (m :: after).filter (· < m) = after.filter (· < m) := by simp
    rw [h.output, handledSoFar, hskip, List.length_append]
    rw [List.length_append, List.length_cons] at hlength
    omega
  have hscalar : m - d.n ≤ 0x10ffff := by
    simp only [isUnicodeScalar, Bool.and_eq_true, decide_eq_true_eq] at hm
    omega
  have hproduct := Nat.mul_le_mul hscalar houtput
  rw [h.reach]
  simp only [DELTA_LIMIT, MAXINT]
  omega

theorem insertIdx_length {α : Type} (xs ys : List α) (y : α) :
    (xs ++ ys).insertIdx xs.length y = xs ++ y :: ys := by
  induction xs with
  | nil => rfl
  | cons x xs ih => simp [ih]

/-- One code point of a pass. -/
theorem LockStep.step (h : LockStep basic m before (cp :: after) e d)
    (hscalar : isUnicodeScalar cp = true) (hlength : (before ++ cp :: after).length ≤ 59)
    (hstep : encodeStep m basic e cp = some e') :
    ∃ d', Emits e.out e'.out d d' ∧ LockStep basic m (before ++ [cp]) after e' d' := by
  rcases Nat.lt_trichotomy cp m with hlt | heq | hgt
  · have hne : cp ≠ m := by omega
    simp only [encodeStep, hlt, hne, if_true, if_false] at hstep
    cases hstep
    refine ⟨d, .refl .., ?_, h.handled, h.bias, h.low, ?_, h.first, h.basic_le⟩
    · rw [h.output]
      simp [handledSoFar, hlt, hlt.le]
    · have hreach := h.reach
      simp only [List.filter_append, List.length_append, List.filter_cons, hlt.le, decide_true,
        if_true, List.filter_nil, List.length_singleton]
      omega
  · -- the delta written here is the decoder's way to `m` and to this position
    obtain rfl : m = cp := heq.symm
    simp only [encodeStep, Nat.lt_irrefl, if_true, if_false] at hstep
    split at hstep
    · cases hstep
    · cases hstep
      have hinserted : d.output.insertIdx (before.filter (· ≤ m)).length m =
          handledSoFar m (before ++ [m]) after := by
        rw [h.output, handledSoFar, insertIdx_length]
        simp [handledSoFar]
      have hlength' : (d.output.insertIdx (before.filter (· ≤ m)).length m).length =
          d.output.length + 1 := List.length_insertIdx_of_le_length h.position_le ..
      refine ⟨{ n := m, i := (before.filter (· ≤ m)).length + 1
                bias := adapt e.delta (d.output.length + 1) (d.i == 0)
                output := d.output.insertIdx (before.filter (· ≤ m)).length m },
        ⟨encodeDelta e.bias BASE e.delta, rfl, fun u hu => mem_encodeDelta hu, fun tail => ?_⟩, ?_⟩
      · rw [h.bias]
        exact decodeLoop_encodeDelta tail h.reach h.position_le h.low hscalar
          (h.limited hscalar hlength)
      · have hbasic := h.basic_le
        refine ⟨hinserted, ?_, ?_, le_rfl, ?_, ?_, ?_⟩
        · rw [hlength', ← h.handled]
        · rw [h.handled, ← h.first, h.handled]
        · simp
        · simp only [beq_eq_false_iff_ne.mpr (show e.handled + 1 ≠ basic by omega)]
          rfl
        · exact Nat.le_succ_of_le hbasic
  · have hne : cp ≠ m := by omega
    have hle : ¬ cp ≤ m := by omega
    have hlt : ¬ cp < m := by omega
    simp only [encodeStep, hlt, hne, if_false] at hstep
    cases hstep
    refine ⟨d, .refl .., ?_, h.handled, h.bias, h.low, ?_, h.first, h.basic_le⟩
    · rw [h.output]
      simp [handledSoFar, hle, hlt]
    · rw [h.reach]
      simp [hle]

/-- A whole pass. -/
theorem LockStep.pass (h : LockStep basic m before after e d)
    (hscalar : ∀ cp ∈ after, isUnicodeScalar cp = true) (hlength : (before ++ after).length ≤ 59)
    (hpass : after.foldlM (encodeStep m basic) e = some e') :
    ∃ d', Emits e.out e'.out d d' ∧ LockStep basic m (before ++ after) [] e' d' := by
  induction after generalizing before e d with
  | nil =>
      cases hpass
      exact ⟨d, .refl .., by rwa [List.append_nil]⟩
  | cons cp after ih =>
      obtain ⟨e₁, hstep, hrest⟩ := Option.bind_eq_some_iff.mp hpass
      obtain ⟨d₁, hemits, hlock⟩ := h.step (hscalar cp (List.mem_cons_self ..)) hlength hstep
      have happend : before ++ [cp] ++ after = before ++ cp :: after := by simp
      obtain ⟨d', hemits', hlock'⟩ := ih hlock
        (fun cp' hmem => hscalar cp' (List.mem_cons_of_mem _ hmem)) (by rwa [happend]) hrest
      exact ⟨d', hemits.trans hemits', happend ▸ hlock'⟩

/-- No code point lies between two passes. -/
theorem LockStep.skip {n : Nat} {codepoints : List Nat} (h : LockStep basic n [] codepoints e d)
    (hle : n ≤ m) (hnone : ∀ cp ∈ codepoints, n ≤ cp → m ≤ cp) :
    LockStep basic m [] codepoints { e with delta := e.delta + (m - n) * (e.handled + 1) } d := by
  refine ⟨?_, h.handled, h.bias, h.low.trans hle, ?_, h.first, h.basic_le⟩
  · rw [h.output]
    refine congrArg _ (List.filter_congr fun cp hcp => ?_)
    have := hnone cp hcp
    simp only [decide_eq_decide]
    omega
  · have hreach := h.reach
    have hlow := h.low
    simp only [List.filter_nil, List.length_nil, Nat.add_zero] at hreach ⊢
    rw [← Nat.add_assoc, hreach, h.handled, ← Nat.add_mul]
    congr 1
    omega

/-- The end of one pass is the start of the next. -/
theorem LockStep.turn {codepoints : List Nat} (h : LockStep basic m codepoints [] e d) :
    LockStep basic (m + 1) [] codepoints { e with delta := e.delta + 1 } d := by
  have houtput : d.output = codepoints.filter (· ≤ m) := by
    rw [h.output, handledSoFar, List.filter_nil, List.append_nil]
  have hlow := h.low
  refine ⟨?_, h.handled, h.bias, Nat.le_succ_of_le hlow, ?_, h.first, h.basic_le⟩
  · rw [houtput]
    exact List.filter_congr fun cp _ => by simp only [Nat.lt_succ_iff]
  · have hreach := h.reach
    rw [← houtput] at hreach
    have hsucc : m + 1 - d.n = m - d.n + 1 := by omega
    rw [hsucc, Nat.succ_mul]
    simp only [List.filter_nil, List.length_nil]
    omega

end

/-! ### Whole labels -/

theorem nextCodePoint_fold (codepoints : List Nat) (n acc : Nat) :
    let next := codepoints.foldl (fun m cp => if n ≤ cp ∧ cp < m then cp else m) acc
    (next = acc ∨ next ∈ codepoints ∧ n ≤ next) ∧ next ≤ acc ∧
      ∀ cp ∈ codepoints, n ≤ cp → next ≤ cp := by
  induction codepoints generalizing acc with
  | nil => simp
  | cons cp codepoints ih =>
      simp only [List.foldl_cons, List.mem_cons]
      by_cases htaken : n ≤ cp ∧ cp < acc
      · rw [if_pos htaken]
        obtain ⟨horigin, hle, hmin⟩ := ih cp
        refine ⟨Or.inr ?_, hle.trans htaken.2.le, ?_⟩
        · rcases horigin with hcp | ⟨hmem, hn⟩
          · rw [hcp]
            exact ⟨Or.inl rfl, htaken.1⟩
          · exact ⟨Or.inr hmem, hn⟩
        · rintro other (rfl | hmem) hn
          · exact hle
          · exact hmin other hmem hn
      · rw [if_neg htaken]
        obtain ⟨horigin, hle, hmin⟩ := ih acc
        refine ⟨horigin.imp_right fun h => ⟨Or.inr h.1, h.2⟩, hle, ?_⟩
        rintro other (rfl | hmem) hn
        · exact hle.trans (Nat.not_lt.mp fun hlt => htaken ⟨hn, hlt⟩)
        · exact hmin other hmem hn

/-- While code points are left the next pass is for the least of them. -/
theorem nextCodePoint_least {codepoints : List Nat} {n : Nat}
    (hbound : ∀ cp ∈ codepoints, cp < MAXINT) (hleft : ∃ cp ∈ codepoints, n ≤ cp) :
    nextCodePoint codepoints n ∈ codepoints ∧ n ≤ nextCodePoint codepoints n ∧
      ∀ cp ∈ codepoints, n ≤ cp → nextCodePoint codepoints n ≤ cp := by
  obtain ⟨horigin, -, hmin⟩ := nextCodePoint_fold codepoints n MAXINT
  obtain ⟨cp, hmem, hn⟩ := hleft
  rcases horigin with hmax | ⟨hnext, hle⟩
  · have hcp := hmin cp hmem hn
    have hlt := hbound cp hmem
    omega
  · exact ⟨hnext, hle, hmin⟩

theorem filter_lt_of_length {codepoints : List Nat} {n : Nat}
    (h : codepoints.length ≤ (codepoints.filter (· < n)).length) :
    codepoints.filter (· < n) = codepoints := by
  have hle := List.length_filter_le (· < n) codepoints
  exact (List.filter_sublist ..).eq_of_length (by omega)

/-- Code points are left while not all are handled. -/
theorem exists_left {codepoints : List Nat} {n : Nat}
    (h : (codepoints.filter (· < n)).length < codepoints.length) :
    ∃ cp ∈ codepoints, n ≤ cp := by
  by_contra hnone
  have hall : codepoints.filter (· < n) = codepoints := by
    refine List.filter_eq_self.mpr fun cp hcp => decide_eq_true ?_
    exact Nat.lt_of_not_le fun hle => hnone ⟨cp, hcp, hle⟩
  rw [hall] at h
  exact Nat.lt_irrefl _ h

theorem scalar_lt {cp : Nat} (h : isUnicodeScalar cp = true) : cp < 0x110000 := by
  simp only [isUnicodeScalar, Bool.and_eq_true, decide_eq_true_eq] at h
  omega

section
variable {basic n : Nat} {codepoints : List Nat} {e : EncodeState} {d : DecodeState}

theorem LockStep.start (h : LockStep basic n [] codepoints e d) :
    d.output = codepoints.filter (· < n) := h.output

theorem LockStep.done (h : LockStep basic n [] codepoints e d)
    (hdone : codepoints.length ≤ e.handled) : d.output = codepoints := by
  rw [h.handled, h.start] at hdone
  exact h.start.trans (filter_lt_of_length hdone)

/-- The passes take the decoder to the whole input. -/
theorem LockStep.loop {fuel : Nat} {out : Text} (h : LockStep basic n [] codepoints e d)
    (hscalar : ∀ cp ∈ codepoints, isUnicodeScalar cp = true) (hlength : codepoints.length ≤ 59)
    (hloop : encodeLoop codepoints basic fuel n e = some out) :
    ∃ d', Emits e.out out d d' ∧ d'.output = codepoints := by
  induction fuel generalizing n e d with
  | zero =>
      rw [encodeLoop] at hloop
      split at hloop
      · rename_i hdone
        cases hloop
        exact ⟨d, .refl .., h.done hdone⟩
      · cases hloop
  | succ fuel ih =>
      rw [encodeLoop] at hloop
      split at hloop
      · rename_i hdone
        cases hloop
        exact ⟨d, .refl .., h.done hdone⟩
      · rename_i hmore
        rw [h.handled, h.start] at hmore
        obtain ⟨-, hle, hmin⟩ := nextCodePoint_least
          (fun cp hcp => lt_trans (scalar_lt (hscalar cp hcp)) (by decide))
          (exists_left (Nat.lt_of_not_le hmore))
        obtain ⟨e₁, hpass, hrest⟩ := Option.bind_eq_some_iff.mp hloop
        obtain ⟨d₁, hemits, hlock⟩ := (h.skip hle hmin).pass hscalar hlength hpass
        obtain ⟨d', hemits', houtput⟩ := ih hlock.turn hrest
        exact ⟨d', hemits.trans hemits', houtput⟩

end

theorem basicText_units {codepoints : List Nat} :
    ((codepoints.filter (· < 0x80)).map UInt16.ofNat).map (·.toNat) =
      codepoints.filter (· < 0x80) := by
  rw [List.map_map]
  refine (List.map_congr_left fun cp hcp => ?_).trans (List.map_id _)
  have hlt := of_decide_eq_true (List.mem_filter.mp hcp).2
  exact Nat.mod_eq_of_lt (by omega)

/-- The last hyphen is the delimiter. -/
theorem cutLast_basicText (codepoints : List Nat) {emitted : Text} (hnone : unit '-' ∉ emitted) :
    (((Text.cutLast (unit '-') (basicText codepoints ++ emitted)).1.getD []).map (·.toNat) =
      codepoints.filter (· < 0x80)) ∧
    (Text.cutLast (unit '-') (basicText codepoints ++ emitted)).2 = emitted := by
  by_cases hbasic : codepoints.filter (· < 0x80) = []
  · have htext : basicText codepoints = [] := by simp [basicText, hbasic]
    rw [htext, List.nil_append, cutLast_of_not_mem hnone, hbasic]
    exact ⟨rfl, rfl⟩
  · have htext : basicText codepoints ++ emitted =
        (codepoints.filter (· < 0x80)).map UInt16.ofNat ++ unit '-' :: emitted := by
      simp [basicText, List.length_pos_iff.mpr hbasic]
    rw [htext, cutLast_append hnone]
    exact ⟨basicText_units, rfl⟩

/-- A short encoded label decodes to what was encoded. -/
theorem decode_encode {codepoints : List Nat} {label : Text}
    (hscalar : ∀ cp ∈ codepoints, isUnicodeScalar cp = true) (hlength : codepoints.length ≤ 59)
    (hencode : encodeAceLabel codepoints = some (some label)) :
    decodeAceLabel label = .ok codepoints := by
  rw [encodeAceLabel] at hencode
  split at hencode
  · rename_i hany
    obtain ⟨out, hloop, hout⟩ := Option.map_eq_some_iff.mp hencode
    obtain rfl : out = label := Option.some.inj hout
    have hinitial : LockStep (codepoints.filter (· < 0x80)).length INITIAL_N [] codepoints
        { out := ACE_PREFIX ++ basicText codepoints, delta := 0, bias := INITIAL_BIAS
          handled := (codepoints.filter (· < 0x80)).length }
        (initialDecode (codepoints.filter (· < 0x80))) :=
      { output := rfl, handled := rfl, bias := rfl, low := le_rfl, reach := by simp [initialDecode]
        first := by simp [initialDecode], basic_le := le_rfl }
    obtain ⟨d', ⟨emitted, rfl, hdigits, hdecode⟩, houtput⟩ := hinitial.loop hscalar hlength hloop
    have hdelimiter : unit '-' ∉ emitted := by
      intro hmem
      obtain ⟨digit, hlt, heq⟩ := hdigits _ hmem
      exact encodeDigit_ne_delimiter hlt heq.symm
    have hloop := hdecode []
    rw [List.append_nil, decodeLoop.eq_1 d' [], if_pos rfl, houtput] at hloop
    have hpayload : emitted ≠ [] := by
      rintro rfl
      rw [decodeLoop, if_pos rfl] at hloop
      obtain ⟨cp, hmem, hcp⟩ := List.any_eq_true.mp hany
      have hkept : cp ∈ codepoints.filter (· < 0x80) := by
        rw [show codepoints.filter (· < 0x80) = codepoints from Except.ok.inj hloop]
        exact hmem
      have hlt := of_decide_eq_true (List.mem_filter.mp hkept).2
      have hge := of_decide_eq_true hcp
      omega
    have hprefix : ACE_PREFIX.length = 4 := by decide
    have hnotempty : ¬ (ACE_PREFIX ++ basicText codepoints ++ emitted).length = 4 := by
      have hpos := List.length_pos_iff.mpr hpayload
      rw [List.length_append, List.length_append]
      omega
    obtain ⟨hbasic, hrest⟩ := cutLast_basicText codepoints hdelimiter
    rw [decodeAceLabel, if_neg hnotempty, List.append_assoc, ← hprefix, List.drop_left]
    simp only [hbasic, hrest, hloop]
  · cases hencode

end Punycode

end Linklint
