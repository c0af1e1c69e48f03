import Linklint.Js.Text
import Mathlib.Data.List.Chain

/-!
# Strings as code points

`for (const ch of s)` reads a list of code points in which no high surrogate stands
before a low one. On such lists reading undoes writing, so a string built code
point by code point is read back as it was built.
-/

namespace Linklint

def IsSurrogate (cp : Nat) : Prop := 0xD800 ≤ cp ∧ cp ≤ 0xDFFF

/-- A scalar value: a code point that a character can have. -/
def IsScalar (cp : Nat) : Prop := cp < 0x110000 ∧ ¬ IsSurrogate cp

instance : DecidablePred IsSurrogate := fun cp => by
  unfold IsSurrogate
  infer_instance

instance : DecidablePred IsScalar := fun cp => by
  unfold IsScalar
  infer_instance

/-- The two are not the halves of a surrogate pair. -/
def Apart (cp next : Nat) : Prop :=
  ¬ (0xD800 ≤ cp ∧ cp ≤ 0xDBFF ∧ 0xDC00 ≤ next ∧ next ≤ 0xDFFF)

/-- A list of code points that a string can be read as. -/
structure Scanned (cps : List Nat) : Prop where
  bounded : ∀ cp ∈ cps, cp < 0x110000
  apart : cps.IsChain Apart

theorem apart_of_scalar_left {cp next : Nat} (h : ¬ IsSurrogate cp) : Apart cp next := by
  intro hpair
  unfold IsSurrogate at h
  omega

theorem apart_of_scalar_right {cp next : Nat} (h : ¬ IsSurrogate next) : Apart cp next := by
  intro hpair
  unfold IsSurrogate at h
  omega

theorem scanned_nil : Scanned [] := ⟨fun _ h => absurd h List.not_mem_nil, .nil⟩

theorem Scanned.tail {cp : Nat} {cps : List Nat} (h : Scanned (cp :: cps)) : Scanned cps :=
  ⟨fun d hd => h.bounded d (List.mem_cons_of_mem cp hd), h.apart.of_cons⟩

theorem scanned_of_scalars {cps : List Nat} (h : ∀ cp ∈ cps, IsScalar cp) : Scanned cps := by
  induction cps with
  | nil => exact scanned_nil
  | cons cp cps ih =>
      obtain ⟨hcp, hcps⟩ := List.forall_mem_cons.mp h
      have hrest := ih hcps
      refine ⟨fun d hd => (h d hd).1, ?_⟩
      cases cps with
      | nil => exact List.isChain_singleton cp
      | cons next cps =>
          exact List.isChain_cons_cons.mpr ⟨apart_of_scalar_left hcp.2, hrest.apart⟩

/-! ### Reading -/

theorem isHighSurrogate_iff (u : CodeUnit) :
    isHighSurrogate u = true ↔ 0xD800 ≤ u.toNat ∧ u.toNat ≤ 0xDBFF := by
  simp [isHighSurrogate]

theorem isLowSurrogate_iff (u : CodeUnit) :
    isLowSurrogate u = true ↔ 0xDC00 ≤ u.toNat ∧ u.toNat ≤ 0xDFFF := by
  simp [isLowSurrogate]

/-- The code point of a surrogate pair. -/
def joined (u v : CodeUnit) : Nat := 0x10000 + (u.toNat - 0xD800) * 0x400 + (v.toNat - 0xDC00)

theorem joined_bounds {u v : CodeUnit} (hu : isHighSurrogate u = true)
    (hv : isLowSurrogate v = true) : 0x10000 ≤ joined u v ∧ joined u v < 0x110000 := by
  rw [isHighSurrogate_iff] at hu
  rw [isLowSurrogate_iff] at hv
  unfold joined
  omega

theorem codePoints_joined {u v : CodeUnit} (h : (isHighSurrogate u && isLowSurrogate v) = true)
    (rest : Text) : codePoints (u :: v :: rest) = joined u v :: codePoints rest := by
  unfold joined
  rw [codePoints, if_pos h]

/-- What is read first is the first code unit, or the pair it starts. -/
theorem head_codePoints {u : CodeUnit} {s : Text} :
    ∃ cp, (codePoints (u :: s)).head? = some cp ∧ (cp = u.toNat ∨ 0x10000 ≤ cp) := by
  cases s with
  | nil => exact ⟨u.toNat, rfl, Or.inl rfl⟩
  | cons v rest =>
      by_cases hpair : (isHighSurrogate u && isLowSurrogate v) = true
      · refine ⟨joined u v, ?_, Or.inr ?_⟩
        · rw [codePoints_joined hpair, List.head?_cons]
        · rw [Bool.and_eq_true] at hpair
          exact (joined_bounds hpair.1 hpair.2).1
      · refine ⟨u.toNat, ?_, Or.inl rfl⟩
        rw [codePoints, if_neg hpair, List.head?_cons]

theorem isChain_cons_of_head {α : Type*} {r : α → α → Prop} {a : α} {l : List α}
    (hhead : ∀ b, l.head? = some b → r a b) (hl : l.IsChain r) : (a :: l).IsChain r := by
  cases l with
  | nil => exact List.isChain_singleton a
  | cons b l => exact List.isChain_cons_cons.mpr ⟨hhead b rfl, hl⟩

theorem scanned_codePoints (s : Text) : Scanned (codePoints s) := by
  induction s using codePoints.induct with
  | case1 => exact scanned_nil
  | case2 u =>
      refine ⟨fun cp hcp => ?_, List.isChain_singleton _⟩
      have hu := u.toNat_lt
      rw [codePoints, List.mem_singleton] at hcp
      omega
  | case3 u v rest hpair ih =>
      rw [codePoints_joined hpair]
      rw [Bool.and_eq_true] at hpair
      have hjoined := joined_bounds hpair.1 hpair.2
      refine ⟨List.forall_mem_cons.mpr ⟨hjoined.2, ih.bounded⟩, ?_⟩
      apply isChain_cons_of_head _ ih.apart
      intro next _
      apply apart_of_scalar_left
      intro hsurrogate
      have hlow : 0x10000 ≤ 0xDFFF := Nat.le_trans hjoined.1 hsurrogate.2
      omega
  | case4 u v rest hpair ih =>
      rw [codePoints, if_neg hpair]
      have hu := u.toNat_lt
      refine ⟨List.forall_mem_cons.mpr ⟨by omega, ih.bounded⟩, ?_⟩
      apply isChain_cons_of_head _ ih.apart
      intro next hnext
      obtain ⟨cp, hcp, hkind⟩ := @head_codePoints v rest
      rw [hcp, Option.some.injEq] at hnext
      rw [Bool.and_eq_true, isHighSurrogate_iff, isLowSurrogate_iff] at hpair
      rw [← hnext]
      intro hapart
      omega

/-! ### Writing -/

/-- The first code unit of a code point is a low surrogate only when it is one itself. -/
theorem head_encodeCodePoint {cp : Nat} (hcp : cp < 0x110000) :
    ∃ u rest, encodeCodePoint cp = u :: rest ∧
      (isLowSurrogate u = true → 0xDC00 ≤ cp ∧ cp ≤ 0xDFFF) := by
  unfold encodeCodePoint
  split
  · refine ⟨_, _, rfl, fun hlow => ?_⟩
    rw [isLowSurrogate_iff, UInt16.toNat_ofNat'] at hlow
    omega
  · refine ⟨_, _, rfl, fun hlow => ?_⟩
    rw [isLowSurrogate_iff, UInt16.toNat_ofNat'] at hlow
    omega

theorem codePoints_single {u : CodeUnit} {s : Text}
    (h : ∀ v, s.head? = some v → isHighSurrogate u = true → isLowSurrogate v = false) :
    codePoints (u :: s) = u.toNat :: codePoints s := by
  cases s with
  | nil => rfl
  | cons v rest =>
      have hpair : ¬ (isHighSurrogate u && isLowSurrogate v) = true := by
        intro hpair
        rw [Bool.and_eq_true] at hpair
        rw [h v rfl hpair.1] at hpair
        exact Bool.false_ne_true hpair.2
      rw [codePoints, if_neg hpair]

theorem codePoints_pair {cp : Nat} (hlow : 0x10000 ≤ cp) (hcp : cp < 0x110000) (s : Text) :
    codePoints (encodeCodePoint cp ++ s) = cp :: codePoints s := by
  have hpair : (isHighSurrogate (UInt16.ofNat (0xD800 + (cp - 0x10000) / 0x400))
      && isLowSurrogate (UInt16.ofNat (0xDC00 + (cp - 0x10000) % 0x400))) = true := by
    rw [Bool.and_eq_true, isHighSurrogate_iff, isLowSurrogate_iff, UInt16.toNat_ofNat',
      UInt16.toNat_ofNat']
    omega
  have hastral : ¬ cp < 0x10000 := by omega
  have hjoined : joined (UInt16.ofNat (0xD800 + (cp - 0x10000) / 0x400))
      (UInt16.ofNat (0xDC00 + (cp - 0x10000) % 0x400)) = cp := by
    unfold joined
    rw [UInt16.toNat_ofNat', UInt16.toNat_ofNat']
    omega
  rw [encodeCodePoint, if_neg hastral, List.cons_append, List.singleton_append,
    codePoints_joined hpair, hjoined]

/-- What is written code point by code point is read as it was written. -/
theorem codePoints_encode {cps : List Nat} (h : Scanned cps) :
    codePoints (cps.flatMap encodeCodePoint) = cps := by
  induction cps with
  | nil => rfl
  | cons cp cps ih =>
      have hcp := h.bounded cp List.mem_cons_self
      rw [List.flatMap_cons]
      by_cases hbasic : cp < 0x10000
      · rw [encodeCodePoint, if_pos hbasic, List.singleton_append, codePoints_single,
          ih h.tail, UInt16.toNat_ofNat']
        · congr 1
          omega
        · intro v hv hhigh
          rw [isHighSurrogate_iff, UInt16.toNat_ofNat'] at hhigh
          cases cps with
          | nil => cases hv
          | cons next cps =>
              obtain ⟨u, rest, hu, hlow⟩ :=
                head_encodeCodePoint (h.tail.bounded next List.mem_cons_self)
              rw [List.flatMap_cons, hu, List.cons_append, List.head?_cons, Option.some.injEq] at hv
              rw [← hv]
              refine Bool.eq_false_iff.mpr fun hv' => ?_
              have hapart := (List.isChain_cons_cons.mp h.apart).1
              apply hapart
              have := hlow hv'
              omega
      · rw [codePoints_pair (by omega) hcp, ih h.tail]

/-- Every string is the text of the code points it is read as. -/
theorem encode_codePoints (s : Text) : (codePoints s).flatMap encodeCodePoint = s := by
  induction s using codePoints.induct with
  | case1 => rfl
  | case2 u =>
      have hu := u.toNat_lt
      simp [codePoints, encodeCodePoint, hu]
  | case3 u v rest hpair ih =>
      rw [codePoints_joined hpair, List.flatMap_cons, ih]
      rw [Bool.and_eq_true, isHighSurrogate_iff, isLowSurrogate_iff] at hpair
      have hastral : ¬ joined u v < 0x10000 := by
        unfold joined
        omega
      have hhigh : 0xD800 + (joined u v - 0x10000) / 0x400 = u.toNat := by
        unfold joined
        omega
      have hlow : 0xDC00 + (joined u v - 0x10000) % 0x400 = v.toNat := by
        unfold joined
        omega
      rw [encodeCodePoint, if_neg hastral, hhigh, hlow, UInt16.ofNat_toNat, UInt16.ofNat_toNat]
      rfl
  | case4 u v rest hpair ih =>
      have hu := u.toNat_lt
      rw [codePoints, if_neg hpair, List.flatMap_cons, ih, encodeCodePoint, if_pos hu,
        UInt16.ofNat_toNat, List.singleton_append]

/-! ### Rewriting code point by code point -/

/-- A code point stays, or becomes some scalar values. -/
def Rewrites (f : Nat → List Nat) : Prop :=
  ∀ cp, f cp = [cp] ∨ (f cp ≠ [] ∧ ∀ d ∈ f cp, IsScalar d)

theorem Rewrites.head_apart {f : Nat → List Nat} (hf : Rewrites f) {cp : Nat} {cps : List Nat}
    (h : (cp :: cps).IsChain Apart) : ∀ d, (cps.flatMap f).head? = some d → Apart cp d := by
  intro d hd
  cases cps with
  | nil => cases hd
  | cons next cps =>
      rw [List.flatMap_cons] at hd
      rcases hf next with hkept | ⟨hne, hscalar⟩
      · rw [hkept, List.singleton_append, List.head?_cons, Option.some.injEq] at hd
        rw [← hd]
        exact (List.isChain_cons_cons.mp h).1
      · rw [List.head?_append_of_ne_nil _ hne] at hd
        exact apart_of_scalar_right (hscalar d (List.mem_of_mem_head? hd)).2

theorem Scanned.flatMap {f : Nat → List Nat} (hf : Rewrites f) {cps : List Nat}
    (h : Scanned cps) : Scanned (cps.flatMap f) := by
  induction cps with
  | nil => exact scanned_nil
  | cons cp cps ih =>
      have hrest := ih h.tail
      rw [List.flatMap_cons]
      rcases hf cp with hkept | ⟨-, hscalar⟩
      · rw [hkept, List.singleton_append]
        refine ⟨List.forall_mem_cons.mpr ⟨h.bounded cp List.mem_cons_self, hrest.bounded⟩, ?_⟩
        exact isChain_cons_of_head (hf.head_apart h.apart) hrest.apart
      · have hword := scanned_of_scalars hscalar
        refine ⟨fun d hd => ?_, List.isChain_append.mpr ⟨hword.apart, hrest.apart, ?_⟩⟩
        · exact (List.mem_append.mp hd).elim (hword.bounded d) (hrest.bounded d)
        · intro last hlast _ _
          exact apart_of_scalar_left (hscalar last (List.mem_of_getLast? hlast)).2

end Linklint
