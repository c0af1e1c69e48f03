import Linklint.Js.Text

/-!
# JSON string literals

`JSON.stringify` of a string and of an array of strings: control characters and
lone surrogates are escaped.
-/

namespace Linklint

def doubleQuote : CodeUnit := 34
def backslash : CodeUnit := 92

/-- `\uXXXX` -/
def unicodeEscape (u : CodeUnit) : Text :=
  let hex := numeralText 16 u.toNat
  [backslash, unit 'u'] ++ List.replicate (4 - hex.length) (unit '0') ++ hex

/-- The escape of a code unit that is no half of a surrogate pair. -/
def jsonUnit (u : CodeUnit) : Text :=
  if u = doubleQuote ∨ u = backslash then [backslash, u]
  else if u = 8 then [backslash, unit 'b']
  else if u = 9 then [backslash, unit 't']
  else if u = 10 then [backslash, unit 'n']
  else if u = 12 then [backslash, unit 'f']
  else if u = 13 then [backslash, unit 'r']
  else if u < 32 ∨ isHighSurrogate u ∨ isLowSurrogate u then unicodeEscape u
  else [u]

def jsonUnits : Text → Text
  | [] => []
  | [u] => jsonUnit u
  | u :: v :: rest =>
      if isHighSurrogate u && isLowSurrogate v then u :: v :: jsonUnits rest
      else jsonUnit u ++ jsonUnits (v :: rest)

/-- `JSON.stringify(s)` -/
def jsonString (s : Text) : Text := doubleQuote :: jsonUnits s ++ [doubleQuote]

/-- `JSON.stringify` of an array of strings. -/
def jsonStrings (items : List Text) : Text :=
  unit '[' :: Text.join [unit ','] (items.map jsonString) ++ [unit ']']

/-! ### Reading a literal back -/

/-- The code unit an escape letter stands for. -/
def unescape (u : CodeUnit) : CodeUnit :=
  if u = unit 'b' then 8
  else if u = unit 't' then 9
  else if u = unit 'n' then 10
  else if u = unit 'f' then 12
  else if u = unit 'r' then 13
  else u

/-- The first code unit of a literal, and what is left of it. -/
def readUnit : Text → Option (CodeUnit × Text)
  | [] => none
  | u :: rest =>
      if u = backslash then
        match rest with
        | [] => none
        | escape :: rest =>
            if escape = unit 'u' then
              some (UInt16.ofNat (numeralValue 16 (rest.take 4)), rest.drop 4)
            else some (unescape escape, rest)
      else some (u, rest)

/-- The four digits of a Unicode escape. -/
def hexQuad (n : Nat) : Text :=
  List.replicate (4 - (numeralText 16 n).length) (unit '0') ++ numeralText 16 n

theorem hexQuad_length (u : CodeUnit) : (hexQuad u.toNat).length = 4 := by
  have hlength : (numeralText 16 u.toNat).length ≤ 4 := by
    rw [numeralText, List.length_map]
    exact Numeral.digits_length_le (by decide) (by decide) u.toNat_lt
  rw [hexQuad, List.length_append, List.length_replicate]
  omega

theorem numeralValue_hexQuad (n : Nat) : numeralValue 16 (hexQuad n) = n := by
  have hzeros : ∀ k, Numeral.value 16 (List.replicate k 0) = 0 := by
    intro k
    induction k with
    | zero => rfl
    | succ k ih => rw [List.replicate_succ, Numeral.value_cons, ih, Nat.zero_mul]
  have hzero : (digitValue (unit '0')).getD 0 = 0 := by decide
  have hvalue := @numeralValue_numeralText 16 (by decide) (by decide) n
  rw [numeralValue] at hvalue ⊢
  rw [hexQuad, List.map_append, List.map_replicate, hzero, Numeral.value_append, hzeros, hvalue,
    Nat.zero_mul, Nat.zero_add]

theorem readUnit_jsonUnit (u : CodeUnit) (rest : Text) :
    readUnit (jsonUnit u ++ rest) = some (u, rest) := by
  rw [jsonUnit]
  split
  · rename_i h
    rcases h with rfl | rfl <;> rfl
  · rename_i hplain
    split
    · subst u; rfl
    · split
      · subst u; rfl
      · split
        · subst u; rfl
        · split
          · subst u; rfl
          · split
            · subst u; rfl
            · split
              · have hquad : unicodeEscape u ++ rest
                    = backslash :: unit 'u' :: (hexQuad u.toNat ++ rest) := by
                  simp [unicodeEscape, hexQuad]
                have htake : (hexQuad u.toNat ++ rest).take 4 = hexQuad u.toNat :=
                  List.take_left' (hexQuad_length u)
                have hdrop : (hexQuad u.toNat ++ rest).drop 4 = rest :=
                  List.drop_left' (hexQuad_length u)
                rw [hquad, readUnit, if_pos rfl]
                simp only [if_true, htake, hdrop, numeralValue_hexQuad]
                simp
              · rw [List.cons_append, List.nil_append, readUnit.eq_def]
                exact if_neg fun h => hplain (Or.inr h)

theorem jsonUnit_cancel {u v : CodeUnit} {a b : Text} (h : jsonUnit u ++ a = jsonUnit v ++ b) :
    u = v ∧ a = b := by
  have hread : some (u, a) = some (v, b) := by
    rw [← readUnit_jsonUnit, h, readUnit_jsonUnit]
  simpa using hread

/-- An escaped code unit never starts with a quote or with half of a surrogate pair. -/
theorem jsonUnit_head (u : CodeUnit) : ∃ v rest, jsonUnit u = v :: rest ∧ v ≠ doubleQuote ∧
    isHighSurrogate v = false := by
  rw [jsonUnit]
  have hescape : backslash ≠ doubleQuote ∧ isHighSurrogate backslash = false := by decide
  split
  · exact ⟨_, _, rfl, hescape⟩
  · rename_i hplain
    split
    · exact ⟨_, _, rfl, hescape⟩
    · split
      · exact ⟨_, _, rfl, hescape⟩
      · split
        · exact ⟨_, _, rfl, hescape⟩
        · split
          · exact ⟨_, _, rfl, hescape⟩
          · split
            · exact ⟨_, _, rfl, hescape⟩
            · split
              · exact ⟨_, _, rfl, hescape⟩
              · rename_i hraw
                simp only [not_or, Bool.not_eq_true] at hraw
                exact ⟨u, [], rfl, fun h => hplain (Or.inl h), hraw.2.1⟩

/-- How a literal starts: at its closing quote, at a surrogate pair or at an escaped unit. -/
inductive LiteralStart : Text → Text → Prop
  | closing : LiteralStart [] []
  | pair {u v : CodeUnit} {rest : Text} (hu : isHighSurrogate u = true) :
      LiteralStart (u :: v :: rest) (u :: v :: jsonUnits rest)
  | escaped {u : CodeUnit} {rest : Text} :
      LiteralStart (u :: rest) (jsonUnit u ++ jsonUnits rest)

theorem literalStart (s : Text) : LiteralStart s (jsonUnits s) := by
  match s with
  | [] => exact .closing
  | [u] =>
      have hnil : jsonUnits [u] = jsonUnit u ++ jsonUnits [] := by simp [jsonUnits]
      rw [hnil]
      exact .escaped
  | u :: v :: rest =>
      rw [jsonUnits]
      split
      · rename_i h
        exact .pair (Bool.and_eq_true _ _ ▸ h).1
      · exact .escaped

/-- A literal determines its string and what follows the closing quote. -/
theorem jsonUnits_cancel {s t a b : Text}
    (h : jsonUnits s ++ doubleQuote :: a = jsonUnits t ++ doubleQuote :: b) : s = t ∧ a = b := by
  induction hn : s.length using Nat.strong_induction_on generalizing s t with
  | h n ih =>
      have hquote : isHighSurrogate doubleQuote = false := by decide
      have hs := literalStart s
      have ht := literalStart t
      generalize jsonUnits s = js at h hs
      generalize jsonUnits t = jt at h ht
      cases hs with
      | closing =>
          cases ht with
          | closing => exact ⟨rfl, (List.cons.inj h).2⟩
          | pair hv =>
              rw [← (List.cons.inj h).1, hquote] at hv
              cases hv
          | @escaped v rest =>
              obtain ⟨w, tail, hw, hne, _⟩ := jsonUnit_head v
              rw [hw] at h
              exact absurd (List.cons.inj h).1.symm hne
      | @pair u u' rest hu =>
          cases ht with
          | closing =>
              rw [(List.cons.inj h).1, hquote] at hu
              cases hu
          | @pair v v' rest' hv =>
              simp only [List.cons_append, List.cons.injEq] at h
              obtain ⟨rfl, rfl, h⟩ := h
              obtain ⟨rfl, hab⟩ := ih rest.length (by simp at hn; omega) h rfl
              exact ⟨rfl, hab⟩
          | @escaped v rest' =>
              obtain ⟨w, tail, hw, _, hraw⟩ := jsonUnit_head v
              rw [hw] at h
              rw [(List.cons.inj h).1, hraw] at hu
              cases hu
      | @escaped u rest =>
          cases ht with
          | closing =>
              obtain ⟨w, tail, hw, hne, _⟩ := jsonUnit_head u
              rw [hw] at h
              exact absurd (List.cons.inj h).1 hne
          | @pair v v' rest' hv =>
              obtain ⟨w, tail, hw, _, hraw⟩ := jsonUnit_head u
              rw [hw] at h
              rw [← (List.cons.inj h).1, hraw] at hv
              cases hv
          | @escaped v rest' =>
              rw [List.append_assoc, List.append_assoc] at h
              obtain ⟨rfl, htail⟩ := jsonUnit_cancel h
              obtain ⟨rfl, hab⟩ := ih rest.length (by simp at hn; omega) htail rfl
              exact ⟨rfl, hab⟩

theorem jsonString_cancel {s t a b : Text} (h : jsonString s ++ a = jsonString t ++ b) :
    s = t ∧ a = b := by
  simp only [jsonString, List.cons_append, List.append_assoc, List.nil_append, List.cons.injEq,
    true_and] at h
  exact jsonUnits_cancel h

/-- The elements of an array literal up to its closing bracket. -/
theorem jsonItems_cons (s : Text) (items : List Text) :
    Text.join [unit ','] ((s :: items).map jsonString) ++ [unit ']'] = jsonString s ++
      match items with
      | [] => [unit ']']
      | _ :: _ => unit ',' :: (Text.join [unit ','] (items.map jsonString) ++ [unit ']']) := by
  cases items <;> simp [Text.join, List.intercalate]

/-- Arrays of strings are told apart by their literals. -/
theorem jsonStrings_injective : Function.Injective jsonStrings := by
  intro xs ys h
  simp only [jsonStrings, List.cons_append, List.cons.injEq, true_and] at h
  have hbracket : unit ']' ≠ doubleQuote ∧ unit ']' ≠ unit ',' := by decide
  have hempty : ∀ s items, Text.join [unit ','] (([] : List Text).map jsonString) ++ [unit ']']
      ≠ Text.join [unit ','] ((s :: items).map jsonString) ++ [unit ']'] := by
    intro s items h
    rw [jsonItems_cons] at h
    exact hbracket.1 (List.cons.inj h).1
  induction xs generalizing ys with
  | nil =>
      cases ys with
      | nil => rfl
      | cons y ys => exact absurd h (hempty y ys)
  | cons x xs ih =>
      cases ys with
      | nil => exact absurd h.symm (hempty x xs)
      | cons y ys =>
          rw [jsonItems_cons, jsonItems_cons] at h
          obtain ⟨rfl, htail⟩ := jsonString_cancel h
          cases xs with
          | nil =>
              cases ys with
              | nil => rfl
              | cons y ys => exact absurd (List.cons.inj htail).1 hbracket.2
          | cons x' xs =>
              cases ys with
              | nil => exact absurd (List.cons.inj htail).1.symm hbracket.2
              | cons y ys =>
                  rw [ih (List.cons.inj htail).2]

end Linklint
