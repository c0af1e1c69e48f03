import Linklint.Parse.InetAton

/-!
# The standard's reading of a numeric host

A host that ends in a number is parsed as an IPv4 address, and refused when that
fails. The reader of one part is a parameter: the standard's own refuses a part
with a leading zero and a digit above seven, `inet_aton` reads it as a decimal.
-/

namespace Linklint

namespace NumericHost

/-- `none` for a character that is no digit of the base. -/
def radixNumber (base : Nat) (s : Text) : Option Nat :=
  if s.all fun u => (digitValue u).any (· < base) then some (numeralValue base s) else none

/-- The standard's number parser; nothing behind `0x` is zero. -/
def ipv4Number : Text → Option Nat
  | [] => none
  | [u] => radixNumber 10 [u]
  | z :: x :: rest =>
      if z = unit '0' then
        if x = unit 'x' ∨ x = unit 'X' then radixNumber 16 rest else radixNumber 8 (x :: rest)
      else radixNumber 10 (z :: x :: rest)

/-- The same parser, but a run of digits that it refuses is read as a decimal. -/
def decimalFallback (s : Text) : Option Nat :=
  (ipv4Number s).or (if s ≠ [] ∧ s.all isDigit then some (numeralValue 10 s) else none)

/-- The parts of a host, without the empty one behind a root dot. -/
def ipv4Parts (host : Text) : List Text :=
  let parts := host.split (unit '.')
  if parts.getLast? = some [] ∧ 1 < parts.length then parts.dropLast else parts

def endsInNumber (host : Text) : Bool :=
  let parts := host.split (unit '.')
  match (if parts.getLast? = some [] then parts.dropLast else parts).getLast? with
  | none => false
  | some last => (last ≠ [] ∧ last.all isDigit) || (ipv4Number last).isSome

/-- The standard's IPv4 parser over a reader of one part. -/
def ipv4Parser (number : Text → Option Nat) (host : Text) : Option Nat :=
  let parts := ipv4Parts host
  if 4 < parts.length then none
  else do
    let numbers ← parts.mapM number
    let last ← numbers.getLast?
    if numbers.dropLast.any (255 < ·) then none
    else if 256 ^ (5 - numbers.length) ≤ last then none
    else some (last + (numbers.dropLast.zipIdx.map fun (n, counter) => n * 256 ^ (3 - counter)).sum)

/-- `0x` or `0X` with nothing behind it. -/
def IsBareHexMark (part : Text) : Prop := part = text "0x" ∨ part = text "0X"

/-- A leading zero in front of digits that are not all octal. -/
def IsOctalLookalike (part : Text) : Prop :=
  ∃ ds, part = unit '0' :: ds ∧ (∀ u ∈ ds, isDigit u = true) ∧ ∃ u ∈ ds, isOctalDigit u = false

instance (part : Text) : Decidable (IsBareHexMark part) := by
  unfold IsBareHexMark
  infer_instance

/-! ## One part -/

/-- A digit of value below ten is a decimal one. -/
theorem digitValue_cases (u : CodeUnit) :
    (∃ d, digitValue u = some d ∧ u.toNat = 48 + d ∧ d < 10)
      ∨ (∃ d, digitValue u = some d ∧ 10 ≤ d ∧ d < 16 ∧ ¬ (48 ≤ u.toNat ∧ u.toNat ≤ 57))
      ∨ (digitValue u = none ∧ ¬ (48 ≤ u.toNat ∧ u.toNat ≤ 57)) := by
  have hdigit := isDigit_iff u
  unfold digitValue
  split
  · rename_i h
    have hrange := hdigit.mp h
    exact Or.inl ⟨_, rfl, by omega, by omega⟩
  rename_i h
  rw [hdigit] at h
  split
  · rename_i hlower
    simp only [Bool.and_eq_true, decide_eq_true_eq] at hlower
    exact Or.inr (Or.inl ⟨_, rfl, by omega, by omega, h⟩)
  split
  · rename_i hupper
    simp only [Bool.and_eq_true, decide_eq_true_eq] at hupper
    exact Or.inr (Or.inl ⟨_, rfl, by omega, by omega, h⟩)
  · exact Or.inr (Or.inr ⟨rfl, h⟩)

theorem digit_ten (u : CodeUnit) : (digitValue u).any (· < 10) = isDigit u := by
  rw [Bool.eq_iff_iff, isDigit_iff]
  rcases digitValue_cases u with ⟨d, hd, hu, hlt⟩ | ⟨d, hd, hge, hlt, hno⟩ | ⟨hd, hno⟩
  · rw [hd, Option.any_some, decide_eq_true_eq]
    omega
  · rw [hd, Option.any_some, decide_eq_true_eq]
    omega
  · rw [hd, Option.any_none]
    exact iff_of_false Bool.false_ne_true (by omega)

theorem digit_eight (u : CodeUnit) : (digitValue u).any (· < 8) = isOctalDigit u := by
  rw [Bool.eq_iff_iff, isOctalDigit, Bool.and_eq_true, decide_eq_true_eq, decide_eq_true_eq]
  rcases digitValue_cases u with ⟨d, hd, hu, hlt⟩ | ⟨d, hd, hge, hlt, hno⟩ | ⟨hd, hno⟩
  · rw [hd, Option.any_some, decide_eq_true_eq]
    omega
  · rw [hd, Option.any_some, decide_eq_true_eq]
    omega
  · rw [hd, Option.any_none]
    exact iff_of_false Bool.false_ne_true (by omega)

theorem digit_sixteen (u : CodeUnit) : (digitValue u).any (· < 16) = isHexDigit u := by
  rcases digitValue_cases u with ⟨d, hd, hu, hlt⟩ | ⟨d, hd, hge, hlt, hno⟩ | ⟨hd, hno⟩
  all_goals
    rw [isHexDigit, hd]
    simp
  all_goals omega
theorem radixNumber_ten (s : Text) :
    radixNumber 10 s = if s.all isDigit then some (numeralValue 10 s) else none := by
  simp only [radixNumber, digit_ten]

theorem radixNumber_eight (s : Text) :
    radixNumber 8 s = if s.all isOctalDigit then some (numeralValue 8 s) else none := by
  simp only [radixNumber, digit_eight]

theorem radixNumber_sixteen (s : Text) :
    radixNumber 16 s = if s.all isHexDigit then some (numeralValue 16 s) else none := by
  simp only [radixNumber, digit_sixteen]

/-- No digit is the mark of a hexadecimal part. -/
theorem ne_mark_of_isDigit {u : CodeUnit} (h : isDigit u = true) :
    ¬ (u = unit 'x' ∨ u = unit 'X') := by
  rintro (rfl | rfl)
  · exact absurd h (by decide)
  · exact absurd h (by decide)

/-- A run of digits is read by the standard, unless it begins with a zero and holds an
eight or a nine. -/
theorem ipv4Number_digits {s : Text} (hne : s ≠ []) (hdigits : ∀ u ∈ s, isDigit u = true) :
    (ipv4Number s = none ∧ IsOctalLookalike s) ∨
      ∃ v, ipv4Number s = some v ∧ PartNumeral s v ∧ ¬ IsOctalLookalike s := by
  have hall : s.all isDigit = true := List.all_eq_true.mpr hdigits
  match s, hne with
  | [u], _ =>
      have hread : ipv4Number [u] = some (numeralValue 10 [u]) := by
        rw [ipv4Number, radixNumber_ten, if_pos hall]
      refine Or.inr ⟨_, hread, .decimal (by simp) hdigits ?_, ?_⟩
      · rintro os hos hnil
        cases hos
        exact absurd rfl hnil
      · rintro ⟨ds, hds, -, v, hv, -⟩
        cases hds
        cases hv
  | z :: x :: rest, _ =>
      by_cases hz : z = unit '0'
      · subst hz
        have hmark : ¬ (x = unit 'x' ∨ x = unit 'X') := ne_mark_of_isDigit (hdigits x (by simp))
        rw [ipv4Number, if_pos rfl, if_neg hmark, radixNumber_eight]
        have htail : ∀ u ∈ x :: rest, isDigit u = true :=
          fun u hu => hdigits u (List.mem_cons_of_mem _ hu)
        by_cases hoctal : (x :: rest).all isOctalDigit = true
        · rw [if_pos hoctal]
          have hdigit := List.all_eq_true.mp hoctal
          refine Or.inr ⟨_, rfl, .octal (by simp) hdigit, ?_⟩
          rintro ⟨ds, hds, -, u, hu, hnot⟩
          cases hds
          rw [hdigit u hu] at hnot
          cases hnot
        · rw [if_neg hoctal]
          obtain ⟨u, hu, hnot⟩ := List.all_eq_false.mp (Bool.eq_false_iff.mpr hoctal)
          exact Or.inl ⟨rfl, x :: rest, rfl, htail, u, hu, by simpa using hnot⟩
      · have hread : ipv4Number (z :: x :: rest) = some (numeralValue 10 (z :: x :: rest)) := by
          rw [ipv4Number, if_neg hz, radixNumber_ten, if_pos hall]
        refine Or.inr ⟨_, hread, .decimal (by simp) hdigits ?_, ?_⟩
        · rintro os hos
          cases hos
          exact absurd rfl hz
        · rintro ⟨ds, hds, -⟩
          cases hds
          exact hz rfl

/-- What is no run of digits is read as a hexadecimal part or not at all. -/
theorem ipv4Number_other {s : Text} (hbare : ¬ IsBareHexMark s) (hno : ¬ ∀ u ∈ s, isDigit u = true)
    {v : Nat} : ipv4Number s = some v ↔ PartNumeral s v := by
  constructor
  · intro h
    have hten : ∀ t : Text, radixNumber 10 t = some v → ∀ u ∈ t, isDigit u = true := by
      intro t ht
      rw [radixNumber_ten, Option.ite_none_right_eq_some] at ht
      exact List.all_eq_true.mp ht.1
    match s with
    | [] => cases h
    | [u] => exact absurd (hten [u] h) hno
    | z :: x :: rest =>
        rw [ipv4Number] at h
        split at h
        · rename_i hz
          subst hz
          split at h
          · rename_i hmark
            rw [radixNumber_sixteen, Option.ite_none_right_eq_some, Option.some.injEq] at h
            obtain ⟨hall, rfl⟩ := h
            refine .hex hmark ?_ (List.all_eq_true.mp hall)
            rintro rfl
            exact hbare (hmark.imp (fun hx => by rw [hx]; rfl) (fun hx => by rw [hx]; rfl))
          · rw [radixNumber_eight, Option.ite_none_right_eq_some] at h
            have hoctal := List.all_eq_true.mp h.1
            refine absurd (fun u hu => ?_) hno
            rcases List.mem_cons.mp hu with rfl | hu
            · decide
            · exact isDigit_of_isOctalDigit (hoctal u hu)
        · exact absurd (hten _ h) hno
  · intro h
    cases h with
    | hex mark _ digits =>
        rw [ipv4Number, if_pos rfl, if_pos mark, radixNumber_sixteen,
          if_pos (List.all_eq_true.mpr digits)]
    | octal _ digits =>
        refine absurd (fun u hu => ?_) hno
        rcases List.mem_cons.mp hu with rfl | hu
        · decide
        · exact isDigit_of_isOctalDigit (digits u hu)
    | decimal _ digits _ => exact absurd digits hno

/-- On every part but a bare `0x`, the parser with the fallback reads the numerals of
`inet_aton` and nothing else. -/
theorem decimalFallback_iff {s : Text} (hbare : ¬ IsBareHexMark s) {v : Nat} :
    decimalFallback s = some v ↔ PartNumeral s v := by
  by_cases hdigits : ∀ u ∈ s, isDigit u = true
  · by_cases hne : s = []
    · subst hne
      exact iff_of_false (by simp [decimalFallback, ipv4Number]) fun h => h.ne_nil rfl
    have hall : s ≠ [] ∧ s.all isDigit = true := ⟨hne, List.all_eq_true.mpr hdigits⟩
    rw [decimalFallback, if_pos hall]
    rcases ipv4Number_digits hne hdigits with ⟨hnone, ds, rfl, _, u, hu, hnot⟩ | ⟨w, hread, hw, _⟩
    · have hdecimal : PartNumeral (unit '0' :: ds) (numeralValue 10 (unit '0' :: ds)) := by
        refine .decimal hne hdigits ?_
        rintro os hos -
        cases hos
        exact ⟨u, hu, hnot⟩
      rw [hnone, Option.none_or, Option.some.injEq]
      exact ⟨fun h => h ▸ hdecimal, hdecimal.unique⟩
    · rw [hread, Option.some_or, Option.some.injEq]
      exact ⟨fun h => h ▸ hw, hw.unique⟩
  · have hnone : ¬ (s ≠ [] ∧ s.all isDigit = true) := fun h => hdigits (List.all_eq_true.mp h.2)
    rw [decimalFallback, if_neg hnone, Option.or_none]
    exact ipv4Number_other hbare hdigits

/-- The fallback is used for a leading zero in front of an eight or a nine only. -/
theorem decimalFallback_eq {s : Text} (h : ¬ IsOctalLookalike s) :
    decimalFallback s = ipv4Number s := by
  rw [decimalFallback]
  split
  · rename_i hall
    rcases ipv4Number_digits hall.1 (List.all_eq_true.mp hall.2) with ⟨_, hlook⟩ | ⟨v, hread, _, _⟩
    · exact absurd hlook h
    · rw [hread, Option.some_or]
  · rw [Option.or_none]

/-! ## The parts of a host -/

/-- A text that ends in a separator has an empty last part, and a text that does not
has none, except when it is empty. -/
theorem split_root_dot (s : Text) :
    (s ++ [unit '.']).split (unit '.') = s.split (unit '.') ++ [[]] := by
  have happend := List.splitOn_append_cons_self s ([] : Text) (a := unit '.')
  rwa [List.splitOn_nil] at happend

theorem last_part_ne_nil {s : Text} (hne : s ≠ []) (hdot : s.getLast? ≠ some (unit '.')) :
    (s.split (unit '.')).getLast? ≠ some [] := by
  by_cases hmem : unit '.' ∈ s
  · obtain ⟨head, rest, rfl, hrest⟩ := exists_last_split hmem
    have hsplit : (head ++ unit '.' :: rest).split (unit '.') = head.split (unit '.') ++ [rest] := by
      rw [Text.split, List.splitOn_append_cons_self, List.splitOn_eq_singleton hrest]
      rfl
    rw [hsplit, List.getLast?_append, List.getLast?_singleton, Option.some_or, Ne,
      Option.some.injEq]
    rintro rfl
    simp at hdot
  · rw [Text.split, List.splitOn_eq_singleton hmem, List.getLast?_singleton, Ne, Option.some.injEq]
    exact hne

theorem ipv4Parts_eq (host : Text) : ipv4Parts host = host.dropTrailingDot.split (unit '.') := by
  rcases List.eq_nil_or_concat' host with rfl | ⟨init, last, rfl⟩
  · decide
  by_cases hlast : last = unit '.'
  · subst hlast
    have hlong : 1 < (Text.split (unit '.') init ++ [([] : Text)]).length := by
      have := List.length_pos_iff.mpr (List.splitOn_ne_nil (unit '.') init)
      change 0 < (Text.split (unit '.') init).length at this
      simp only [List.length_append, List.length_singleton]
      omega
    rw [ipv4Parts, split_root_dot, if_pos ⟨by simp, hlong⟩, List.dropLast_concat,
      dropTrailingDot_concat]
  · have hdot : (init ++ [last]).getLast? ≠ some (unit '.') := by simpa using hlast
    rw [ipv4Parts, if_neg fun h => last_part_ne_nil (by simp) hdot h.1,
      dropTrailingDot_of_last hdot]

theorem endsInNumber_iff {host : Text} (hne : host ≠ []) :
    endsInNumber host = true ↔ ∃ last, (ipv4Parts host).getLast? = some last ∧
      ((last ≠ [] ∧ last.all isDigit = true) ∨ (ipv4Number last).isSome = true) := by
  have hparts : (if (host.split (unit '.')).getLast? = some [] then
      (host.split (unit '.')).dropLast else host.split (unit '.')) = ipv4Parts host := by
    rw [ipv4Parts]
    by_cases hlast : (host.split (unit '.')).getLast? = some []
    · have hlong : 1 < (host.split (unit '.')).length := by
        by_contra hshort
        obtain ⟨init, last, hsplit⟩ :=
          (List.eq_nil_or_concat' (host.split (unit '.'))).resolve_left (List.splitOn_ne_nil _ _)
        have hinit : init = [] := by
          rw [hsplit] at hshort
          simpa using hshort
        rw [hsplit, hinit] at hlast
        have hjoin := join_split (unit '.') host
        rw [hsplit, hinit] at hjoin
        simp only [List.nil_append, List.getLast?_singleton, Option.some.injEq] at hlast
        rw [hlast] at hjoin
        exact hne (by simpa [Text.join] using hjoin.symm)
      rw [if_pos hlast, if_pos ⟨hlast, hlong⟩]
    · rw [if_neg hlast, if_neg fun h => hlast h.1]
  rw [endsInNumber, hparts]
  cases (ipv4Parts host).getLast? with
  | none => simp
  | some last => simp

/-! ## The whole parser -/

theorem mapM_numerals {number : Text → Option Nat} {parts : List Text} {numbers : List Nat}
    (hnumber : ∀ p ∈ parts, ∀ v, number p = some v ↔ PartNumeral p v) :
    parts.mapM number = some numbers ↔ List.Forall₂ PartNumeral parts numbers := by
  rw [mapM_eq_some_iff]
  induction parts generalizing numbers with
  | nil => simp
  | cons p parts ih =>
      cases numbers with
      | nil => simp
      | cons n numbers =>
          rw [List.forall₂_cons, List.forall₂_cons, hnumber p List.mem_cons_self]
          exact and_congr_right fun _ => ih fun q hq => hnumber q (List.mem_cons_of_mem _ hq)

/-- With a reader of `inet_aton` numerals the parser accepts the `inet_aton` texts. -/
theorem ipv4Parser_isSome {number : Text → Option Nat} {host : Text}
    (hnumber : ∀ p ∈ ipv4Parts host, ∀ v, number p = some v ↔ PartNumeral p v) :
    (ipv4Parser number host).isSome = true ↔ ∃ n, InetAton host.dropTrailingDot n := by
  have hsplit := (ipv4Parts_eq host).symm
  constructor
  · intro h
    obtain ⟨full, hfull⟩ := Option.isSome_iff_exists.mp h
    unfold ipv4Parser at hfull
    dsimp only at hfull
    rw [Option.ite_none_left_eq_some] at hfull
    obtain ⟨hfew, hfull⟩ := hfull
    simp only [Option.bind_eq_bind, Option.bind_eq_some_iff, mapM_numerals hnumber,
      Option.ite_none_left_eq_some] at hfull
    obtain ⟨numbers, hnumbers, last, hlast, hsingle, hroom, -⟩ := hfull
    obtain ⟨bytes, rfl⟩ := List.getLast?_eq_some_iff.mp hlast
    obtain ⟨parts, part, hparts, hflipped, hfinal⟩ := forall₂_concat_left hnumbers.flip
    have hleading : List.Forall₂ PartNumeral parts bytes := hflipped.flip
    have hlen := hleading.length_eq
    rw [hparts, List.length_append, List.length_singleton] at hfew
    refine ⟨_, .pack (hsplit.trans hparts) (by omega) hleading hfinal ?_ ?_⟩
    · intro b hb
      rw [List.dropLast_concat, Bool.not_eq_true, List.any_eq_false] at hsingle
      have := hsingle b hb
      simpa using this
    · have hpow : 5 - (bytes ++ [last]).length = 4 - parts.length := by
        rw [List.length_append, List.length_singleton]
        omega
      rw [hpow] at hroom
      exact not_le.mp hroom
  · rintro ⟨n, hn⟩
    cases hn with
    | @pack parts part bytes last split few leading final single room =>
        rw [hsplit] at split
        have hlen := leading.length_eq
        have hread : (ipv4Parts host).mapM number = some (bytes ++ [last]) := by
          rw [mapM_numerals hnumber, split]
          exact List.rel_append leading (.cons final .nil)
        have hfew : ¬ 4 < (ipv4Parts host).length := by
          rw [split, List.length_append, List.length_singleton]
          omega
        have hsingle : ¬ bytes.any (255 < ·) = true := by
          rw [Bool.not_eq_true, List.any_eq_false]
          intro b hb
          simpa using single b hb
        have hroom : ¬ 256 ^ (5 - (bytes ++ [last]).length) ≤ last := by
          rw [List.length_append, List.length_singleton, ← hlen, not_le]
          have hpow : 5 - (parts.length + 1) = 4 - parts.length := by omega
          rwa [hpow]
        simp only [ipv4Parser, if_neg hfew, hread, Option.bind_eq_bind, Option.bind_some,
          List.getLast?_concat, List.dropLast_concat, if_neg hsingle, if_neg hroom,
          Option.isSome_some]

end NumericHost

end Linklint
