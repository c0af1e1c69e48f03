import Mathlib.Data.List.DropRight

/-!
# Names under suffix rules

A rule is a row of labels, some of them wildcards, and covers the names that end in
it. The longest rule that covers a name says how long its suffix is; where none does,
the suffix is the last label. A registrable name is a suffix and one label more.
-/

namespace SuffixRules

variable {Label : Type*} [DecidableEq Label]

/-- The labels a name must end in; `none` is the wildcard. -/
abbrev Rule (Label : Type*) := List (Option Label)

def meets (wanted : Option Label) (label : Label) : Bool := wanted.elim true fun l => l == label

def covers (rule : Rule Label) (name : List Label) : Bool :=
  decide (rule.length ≤ name.length) &&
    (rule.zip (name.rtake rule.length)).all fun pair => meets pair.1 pair.2

/-- The length of the longest rule that covers the name, and at least that of one label. -/
def suffixLength : List (Rule Label) → List Label → Nat
  | [], _ => 1
  | rule :: rules, name =>
      if covers rule name then max rule.length (suffixLength rules name) else suffixLength rules name

/-- The registrable part of a name; a suffix has none. -/
def registrable (rules : List (Rule Label)) (name : List Label) : Option (List Label) :=
  if suffixLength rules name < name.length then some (name.rtake (suffixLength rules name + 1))
  else none

variable {rule : Rule Label} {rules more : List (Rule Label)} {name part : List Label}

theorem length_le_of_covers (h : covers rule name = true) : rule.length ≤ name.length := by
  simp only [covers, Bool.and_eq_true, decide_eq_true_eq] at h
  exact h.1

omit [DecidableEq Label] in
theorem rtake_of_suffix {n : Nat} (h : part <:+ name) (hn : n ≤ part.length) :
    name.rtake n = part.rtake n := by
  obtain ⟨front, rfl⟩ := h
  rw [List.rtake, List.rtake, List.length_append, Nat.add_sub_assoc hn, List.drop_length_add_append]

/-- A rule sees the end of a name only. -/
theorem covers_of_suffix (h : part <:+ name) (hrule : rule.length ≤ part.length) :
    covers rule part = covers rule name := by
  have hname := hrule.trans h.length_le
  rw [covers, covers, rtake_of_suffix h hrule, decide_eq_true hrule, decide_eq_true hname]

theorem suffixLength_le_iff {n : Nat} : suffixLength rules name ≤ n ↔
    1 ≤ n ∧ ∀ rule ∈ rules, covers rule name = true → rule.length ≤ n := by
  induction rules with
  | nil => simp [suffixLength]
  | cons rule rules ih =>
      by_cases hcovers : covers rule name = true
      · rw [suffixLength, if_pos hcovers, Nat.max_le, ih, List.forall_mem_cons]
        constructor
        · exact fun ⟨hrule, hone, hrules⟩ => ⟨hone, fun _ => hrule, hrules⟩
        · exact fun ⟨hone, hrule, hrules⟩ => ⟨hrule hcovers, hone, hrules⟩
      · rw [suffixLength, if_neg hcovers, ih, List.forall_mem_cons]
        constructor
        · exact fun ⟨hone, hrules⟩ => ⟨hone, fun h => absurd h hcovers, hrules⟩
        · exact fun ⟨hone, _, hrules⟩ => ⟨hone, hrules⟩

theorem one_le_suffixLength : 1 ≤ suffixLength rules name := (suffixLength_le_iff.mp le_rfl).1

theorem length_le_suffixLength (hmem : rule ∈ rules) (h : covers rule name = true) :
    rule.length ≤ suffixLength rules name := (suffixLength_le_iff.mp le_rfl).2 rule hmem h

/-- More rules make no suffix shorter. -/
theorem suffixLength_mono (hsub : rules ⊆ more) :
    suffixLength rules name ≤ suffixLength more name := by
  apply suffixLength_le_iff.mpr
  exact ⟨one_le_suffixLength, fun rule hmem h => length_le_suffixLength (hsub hmem) h⟩

/-- A part of a name that holds its suffix has the same one. -/
theorem suffixLength_of_suffix (h : part <:+ name) (hpart : suffixLength rules name ≤ part.length) :
    suffixLength rules part = suffixLength rules name := by
  apply le_antisymm
  · apply suffixLength_le_iff.mpr
    refine ⟨one_le_suffixLength, fun rule hmem hcovers => ?_⟩
    rw [covers_of_suffix h (length_le_of_covers hcovers)] at hcovers
    exact length_le_suffixLength hmem hcovers
  · apply suffixLength_le_iff.mpr
    refine ⟨one_le_suffixLength, fun rule hmem hcovers => ?_⟩
    have hrule := (length_le_suffixLength hmem hcovers).trans hpart
    rw [← covers_of_suffix h hrule] at hcovers
    exact length_le_suffixLength hmem hcovers

theorem registrable_eq_some (h : registrable rules name = some part) :
    part <:+ name ∧ part.length = suffixLength rules name + 1 := by
  simp only [registrable, Option.ite_none_right_eq_some, Option.some.injEq] at h
  obtain ⟨hlength, rfl⟩ := h
  refine ⟨List.drop_suffix _ _, ?_⟩
  rw [List.rtake, List.length_drop]
  omega

/-- Under fewer rules a name has the registrable part that its own registrable part has. -/
theorem registrable_nested (hsub : rules ⊆ more) (h : registrable more name = some part) :
    ∃ core, registrable rules name = some core ∧ registrable rules part = some core := by
  obtain ⟨hsuffix, hlength⟩ := registrable_eq_some h
  have hmono : suffixLength rules name ≤ suffixLength more name := suffixLength_mono hsub
  have hsame : suffixLength rules part = suffixLength rules name :=
    suffixLength_of_suffix hsuffix (by omega)
  have hname := hsuffix.length_le
  refine ⟨name.rtake (suffixLength rules name + 1), if_pos (by omega), ?_⟩
  rw [registrable, hsame, if_pos (by omega), rtake_of_suffix hsuffix (by omega)]

/-! ### Rules that end in a label of their own -/

theorem getLast_of_covers {label : Label} (h : covers rule name = true)
    (hlast : rule.getLast? = some (some label)) : name.getLast? = some label := by
  obtain ⟨init, rfl⟩ := List.getLast?_eq_some_iff.mp hlast
  have hlength := length_le_of_covers h
  have hend : (name.rtake (init ++ [some label]).length).length = init.length + 1 := by
    rw [List.rtake, List.length_drop]
    simp at hlength ⊢
    omega
  obtain ⟨front, x, hsplit⟩ := List.eq_nil_or_concat' (name.rtake (init ++ [some label]).length)
    |>.resolve_left (List.ne_nil_of_length_pos (by omega))
  rw [hsplit, List.length_append, List.length_singleton, Nat.add_right_cancel_iff] at hend
  simp only [covers, hsplit, List.zip_append hend.symm, List.all_append, Bool.and_eq_true] at h
  have hmeets : label = x := by simpa [meets] using h.2.2
  have hsuffix : name.rtake (init ++ [some label]).length <:+ name := List.drop_suffix _ _
  obtain ⟨rest, hname⟩ := hsuffix
  rw [← hname, hsplit, List.getLast?_append, List.getLast?_concat, Option.some_or, hmeets]

/-- A name whose last label ends no rule has its last label as its suffix. -/
theorem suffixLength_of_last (hrules : ∀ rule ∈ rules, ∃ label, rule.getLast? = some (some label) ∧
    name.getLast? ≠ some label) : suffixLength rules name = 1 := by
  apply le_antisymm
  · apply suffixLength_le_iff.mpr
    refine ⟨le_rfl, fun rule hmem hcovers => ?_⟩
    obtain ⟨label, hlast, hname⟩ := hrules rule hmem
    exact absurd (getLast_of_covers hcovers hlast) hname
  · exact one_le_suffixLength

end SuffixRules
