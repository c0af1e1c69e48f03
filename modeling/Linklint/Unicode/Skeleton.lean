import Linklint.Data.Confusables
import Linklint.Unicode.Normalize

/-!
# The confusable skeleton

Decompose, replace every confusable by what it reads as until nothing changes, and
decompose again. Two strings are confusable when their skeletons are equal.
-/

namespace Linklint

open UnicodeData

/-- Bound on the fixpoint loop. -/
def MAX_PASSES : Nat := 8

/-- Map each code point of `s` through the confusables table. -/
def mapPass (s : Text) : Text :=
  (codePoints s).flatMap fun cp => (confusableTarget cp).getD (encodeCodePoint cp)

section
variable (U : UnicodeData)

def skeletonLoop (s : Text) : BoundedFixpoint.Outcome Text :=
  BoundedFixpoint.run mapPass MAX_PASSES (U.nfd s)

def skeleton (s : Text) : Text := U.nfd (skeletonLoop U s).value

/-- `s` and `t` are visually confusable. -/
def LooksLike (s t : Text) : Prop := skeleton U s = skeleton U t

/-- A code point that reads as ASCII. -/
def ReadsAscii (cp : Nat) : Prop := cp < 128 ∨ ∃ row ∈ CONFUSABLES_RAW, row.1 = cp

end

/-! ### One pass -/

/-- What a code point is replaced by. -/
def substitute (cp : Nat) : List Nat :=
  match confusableTarget cp with
  | some target => target.map UInt16.toNat
  | none => [cp]

theorem substitute_none {cp : Nat} (h : confusableTarget cp = none) : substitute cp = [cp] := by
  rw [substitute, h]

theorem substitute_some {cp : Nat} {target : Text} (h : confusableTarget cp = some target) :
    substitute cp = target.map UInt16.toNat := by
  rw [substitute, h]

theorem encode_ascii {s : Text} (h : ∀ u ∈ s, u.toNat < 128) :
    (s.map UInt16.toNat).flatMap encodeCodePoint = s := by
  induction s with
  | nil => rfl
  | cons u s ih =>
      obtain ⟨hu, hs⟩ := List.forall_mem_cons.mp h
      have hbasic : u.toNat < 0x10000 := Nat.lt_trans hu (by decide)
      rw [List.map_cons, List.flatMap_cons, ih hs, encodeCodePoint, if_pos hbasic,
        UInt16.ofNat_toNat, List.singleton_append]

theorem encode_substitute (cp : Nat) :
    (substitute cp).flatMap encodeCodePoint = (confusableTarget cp).getD (encodeCodePoint cp) := by
  cases h : confusableTarget cp with
  | none =>
      rw [substitute_none h, List.flatMap_singleton]
      rfl
  | some target =>
      rw [substitute_some h, encode_ascii (ascii_of_confusableTarget h)]
      rfl

theorem mem_substitute_ascii {cp d : Nat} {target : Text} (h : confusableTarget cp = some target)
    (hd : d ∈ substitute cp) : d < 128 := by
  rw [substitute_some h] at hd
  obtain ⟨u, hu, rfl⟩ := List.mem_map.mp hd
  exact ascii_of_confusableTarget h u hu

theorem substitute_ascii {cp : Nat} (h : cp < 128) : substitute cp = [cp] :=
  substitute_none (confusableTarget_ascii h)

/-- The targets are ASCII, so a replaced code point is never replaced again. -/
theorem substitute_closed : Substitution.Closed substitute := by
  intro cp d hd
  cases h : confusableTarget cp with
  | none =>
      rw [substitute_none h, List.mem_singleton] at hd
      rw [hd]
      exact substitute_none h
  | some target => exact substitute_ascii (mem_substitute_ascii h hd)

theorem isScalar_ascii {cp : Nat} (h : cp < 128) : IsScalar cp := by
  unfold IsScalar IsSurrogate
  omega

theorem substitute_rewrites : Rewrites substitute := by
  intro cp
  cases h : confusableTarget cp with
  | none => exact Or.inl (substitute_none h)
  | some target =>
      refine Or.inr ⟨?_, fun d hd => isScalar_ascii (mem_substitute_ascii h hd)⟩
      rw [substitute_some h]
      exact fun hempty => (curated_of_confusableTarget h).2.2.1 (List.map_eq_nil_iff.mp hempty)

theorem mapPass_eq (s : Text) :
    mapPass s = ((codePoints s).flatMap substitute).flatMap encodeCodePoint := by
  rw [mapPass, List.flatMap_assoc]
  simp only [encode_substitute]

theorem codePoints_mapPass (s : Text) :
    codePoints (mapPass s) = (codePoints s).flatMap substitute := by
  rw [mapPass_eq, codePoints_encode ((scanned_codePoints s).flatMap substitute_rewrites)]

theorem mapPass_idempotent (s : Text) : mapPass (mapPass s) = mapPass s := by
  rw [mapPass_eq, codePoints_mapPass, substitute_closed.idempotent, ← mapPass_eq]

/-! ### The skeleton, code point by code point -/

variable {U : UnicodeData}

/-- The loop ends after its first pass at the latest. -/
theorem skeletonLoop_spec (s : Text) :
    (skeletonLoop U s).value = mapPass (U.nfd s) ∧ (skeletonLoop U s).passes ≤ 1 ∧
      (skeletonLoop U s).truncated = false :=
  BoundedFixpoint.run_of_idempotent (mapPass_idempotent (U.nfd s)) 7

def skeletonPoints (U : UnicodeData) (cps : List Nat) : List Nat :=
  U.decomposed ((U.decomposed cps).flatMap substitute)

theorem codePoints_skeleton (s : Text) :
    codePoints (skeleton U s) = skeletonPoints U (codePoints s) := by
  rw [skeleton, (skeletonLoop_spec s).1, codePoints_nfd, codePoints_mapPass, codePoints_nfd]
  rfl

theorem skeleton_eq (s : Text) :
    skeleton U s = (skeletonPoints U (codePoints s)).flatMap encodeCodePoint := by
  rw [← codePoints_skeleton, encode_codePoints]

/-- After the pass nothing is left to decompose: a code point was replaced by ASCII, or it
is one of a decomposition. -/
theorem decomposition_of_substituted {cps : List Nat} {cp : Nat}
    (h : cp ∈ (U.decomposed cps).flatMap substitute) : U.decomposition cp = [cp] := by
  apply Substitution.fixed_of_words _ (fun d hd => decomposition_of_mem_decomposed hd) h
  intro d
  cases htarget : confusableTarget d with
  | none => exact Or.inl (substitute_none htarget)
  | some target =>
      exact Or.inr fun e he => U.decomposition_ascii e (mem_substitute_ascii htarget he)

theorem skeletonPoints_eq (cps : List Nat) :
    skeletonPoints U cps = U.canonicalOrder ((U.decomposed cps).flatMap substitute) :=
  decomposed_fixed fun _ h => decomposition_of_substituted h

theorem mem_skeletonPoints {cps : List Nat} {cp : Nat} :
    cp ∈ skeletonPoints U cps ↔ cp ∈ (U.decomposed cps).flatMap substitute := by
  rw [skeletonPoints_eq]
  exact (canonicalOrder_perm _).mem_iff

/-- A skeleton holds nothing that the table or a decomposition would replace. -/
theorem skeletonPoints_normal {cps : List Nat} {cp : Nat} (h : cp ∈ skeletonPoints U cps) :
    U.decomposition cp = [cp] ∧ substitute cp = [cp] := by
  have hmem := mem_skeletonPoints.mp h
  exact ⟨decomposition_of_substituted hmem, substitute_closed.fixed hmem⟩

theorem skeletonPoints_perm (cps : List Nat) :
    (skeletonPoints U cps).Perm ((cps.flatMap U.decomposition).flatMap substitute) := by
  rw [skeletonPoints_eq]
  exact (canonicalOrder_perm _).trans ((decomposed_perm cps).flatMap_right substitute)

/-- A list in canonical order that holds nothing to replace is its own skeleton. -/
theorem skeletonPoints_fixed {cps : List Nat} (horder : U.canonicalOrder cps = cps)
    (h : ∀ cp ∈ cps, U.decomposition cp = [cp] ∧ substitute cp = [cp]) :
    skeletonPoints U cps = cps := by
  have hdecomposed : U.decomposed cps = cps := by
    rw [decomposed_fixed fun cp hcp => (h cp hcp).1]
    exact horder
  rw [skeletonPoints, hdecomposed, Substitution.flatMap_fixed fun cp hcp => (h cp hcp).2]
  exact hdecomposed

theorem skeletonPoints_idempotent (cps : List Nat) :
    skeletonPoints U (skeletonPoints U cps) = skeletonPoints U cps := by
  refine skeletonPoints_fixed ?_ fun cp hcp => skeletonPoints_normal hcp
  rw [skeletonPoints_eq]
  exact canonicalOrder_idempotent _

theorem skeletonPoints_ascii {cps : List Nat} (h : ∀ cp ∈ cps, cp < 128) :
    skeletonPoints U cps = cps := by
  refine skeletonPoints_fixed ?_ fun cp hcp => ?_
  · exact canonicalOrder_starters fun cp hcp => U.ascii_starter cp (h cp hcp)
  · exact ⟨U.decomposition_ascii cp (h cp hcp), substitute_ascii (h cp hcp)⟩

/-! ### Skeletons that are ASCII -/

theorem readsAscii_iff {cp : Nat} : ReadsAscii cp ↔ ∀ d ∈ substitute cp, d < 128 := by
  constructor
  · rintro (hascii | ⟨row, hrow, rfl⟩) d hd
    · rw [substitute_ascii hascii, List.mem_singleton] at hd
      omega
    · exact mem_substitute_ascii (confusableTarget_of_mem hrow) hd
  · intro h
    cases htarget : confusableTarget cp with
    | none =>
        rw [substitute_none htarget] at h
        exact Or.inl (h cp (List.mem_singleton_self cp))
    | some target =>
        obtain ⟨row, hrow, -⟩ := Option.map_eq_some_iff.mp htarget
        have hcp : row.1 = cp := by simpa using List.find?_some hrow
        exact Or.inr ⟨row, List.mem_of_find?_eq_some hrow, hcp⟩

theorem skeletonPoints_ascii_iff (cps : List Nat) :
    (∀ cp ∈ skeletonPoints U cps, cp < 128) ↔ ∀ cp ∈ cps.flatMap U.decomposition, ReadsAscii cp := by
  constructor
  · intro h cp hcp
    rw [readsAscii_iff]
    intro d hd
    apply h
    rw [mem_skeletonPoints, List.mem_flatMap]
    exact ⟨cp, mem_decomposed.mpr hcp, hd⟩
  · intro h d hd
    rw [mem_skeletonPoints, List.mem_flatMap] at hd
    obtain ⟨cp, hcp, hd⟩ := hd
    exact readsAscii_iff.mp (h cp (mem_decomposed.mp hcp)) d hd

/-- A string is ASCII when the code points it is read as are. -/
theorem ascii_codePoints_iff (s : Text) :
    (∀ cp ∈ codePoints s, cp < 128) ↔ ∀ u ∈ s, u.toNat < 128 := by
  constructor
  · intro h u hu
    rw [← encode_codePoints s, List.mem_flatMap] at hu
    obtain ⟨cp, hcp, hu⟩ := hu
    have hascii := h cp hcp
    have hbasic : cp < 0x10000 := Nat.lt_trans hascii (by decide)
    rw [encodeCodePoint, if_pos hbasic, List.mem_singleton] at hu
    rw [hu, UInt16.toNat_ofNat']
    omega
  · intro h cp hcp
    have hunits : ∀ d ∈ s.map UInt16.toNat, d < 128 := by
      intro d hd
      obtain ⟨u, hu, rfl⟩ := List.mem_map.mp hd
      exact h u hu
    rw [← encode_ascii h,
      codePoints_encode (scanned_of_scalars fun d hd => isScalar_ascii (hunits d hd))] at hcp
    exact hunits cp hcp

theorem skeleton_ascii {s : Text} (h : ∀ u ∈ s, u.toNat < 128) : skeleton U s = s := by
  rw [skeleton_eq, skeletonPoints_ascii ((ascii_codePoints_iff s).mpr h), encode_codePoints]

theorem skeleton_ascii_iff (s : Text) :
    (∀ u ∈ skeleton U s, u.toNat < 128) ↔
      ∀ cp ∈ (codePoints s).flatMap U.decomposition, ReadsAscii cp := by
  rw [← ascii_codePoints_iff, codePoints_skeleton, skeletonPoints_ascii_iff]

/-! ### The skeleton of a string -/

theorem skeleton_idempotent (s : Text) : skeleton U (skeleton U s) = skeleton U s := by
  rw [skeleton_eq (skeleton U s), codePoints_skeleton, skeletonPoints_idempotent, ← skeleton_eq]

theorem skeleton_nfd (s : Text) : skeleton U (U.nfd s) = skeleton U s := by
  rw [skeleton_eq, skeleton_eq, codePoints_nfd, skeletonPoints, decomposed_idempotent]
  rfl

end Linklint
