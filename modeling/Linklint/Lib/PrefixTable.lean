import Mathlib.Data.Nat.Bitwise
import Mathlib.Data.List.Pairwise

/-!
# Longest-prefix tables

Blocks of fixed-width addresses that share leading bits, and tables of blocks
searched longest prefix first, where a row without a label is an exception to
the rows around it.
-/

namespace PrefixTable

/-- The addresses of `width` bits that begin with the first `length` bits of `base`. -/
structure Block (width : Nat) where
  base : Nat
  length : Nat

variable {width : Nat}

def Block.Covers (block : Block width) (a : Nat) : Prop :=
  a >>> (width - block.length) = block.base >>> (width - block.length)

instance (block : Block width) (a : Nat) : Decidable (block.Covers a) :=
  inferInstanceAs (Decidable (_ = _))

theorem shiftRight_eq_of_le {a b k l : Nat} (h : a >>> k = b >>> k) (hle : k ≤ l) :
    a >>> l = b >>> l := by
  calc a >>> l = a >>> k >>> (l - k) := by rw [← Nat.shiftRight_add, Nat.add_sub_of_le hle]
    _ = b >>> k >>> (l - k) := by rw [h]
    _ = b >>> l := by rw [← Nat.shiftRight_add, Nat.add_sub_of_le hle]

/-- The comparison by exclusive or. -/
theorem Block.covers_iff_xor {block : Block width} {a : Nat} :
    block.Covers a ↔ (a ^^^ block.base) >>> (width - block.length) = 0 := by
  rw [Block.Covers, Nat.shiftRight_xor_distrib, Nat.xor_eq_zero_iff]

/-- A shorter prefix that covers the base of a block covers the whole block. -/
theorem Block.Covers.mono {inner outer : Block width} {a : Nat} (ha : inner.Covers a)
    (hbase : outer.Covers inner.base) (hle : outer.length ≤ inner.length) : outer.Covers a := by
  have hshift : width - inner.length ≤ width - outer.length := by omega
  exact (shiftRight_eq_of_le ha hshift).trans hbase

/-- Two blocks with an address in common are nested. -/
theorem Block.Covers.nested {inner outer : Block width} {a : Nat} (hinner : inner.Covers a)
    (houter : outer.Covers a) (hle : outer.length ≤ inner.length) : outer.Covers inner.base := by
  have hshift : width - inner.length ≤ width - outer.length := by omega
  exact (shiftRight_eq_of_le hinner hshift).symm.trans houter

section Table

variable {Row Label : Type} (block : Row → Block width) (label : Row → Option Label)

/-- The row a longest-first table answers with. -/
def firstMatch (table : List Row) (a : Nat) : Option Row :=
  table.find? fun row => decide ((block row).Covers a)

/-- A search by any test that decides coverage on the rows is the longest-prefix search. -/
theorem find?_eq_firstMatch {table : List Row} {a : Nat} (p : Row → Bool)
    (h : ∀ row ∈ table, p row = true ↔ (block row).Covers a) :
    table.find? p = firstMatch block table a := by
  induction table with
  | nil => rfl
  | cons row rows ih =>
      have hrow := h row (List.mem_cons_self ..)
      have hrows := ih fun r hr => h r (List.mem_cons_of_mem _ hr)
      have hp : p row = decide ((block row).Covers a) := by
        rw [Bool.eq_iff_iff, hrow, decide_eq_true_iff]
      rw [firstMatch] at hrows ⊢
      rw [List.find?_cons, List.find?_cons, hp, hrows]

def LongestFirst (table : List Row) : Prop :=
  table.Pairwise fun row next => (block next).length ≤ (block row).length

instance (table : List Row) : Decidable (LongestFirst block table) :=
  inferInstanceAs (Decidable (List.Pairwise _ _))

/-- A row that covers the address, and no row that does has a longer prefix. -/
structure MostSpecific (table : List Row) (a : Nat) (row : Row) : Prop where
  mem : row ∈ table
  covers : (block row).Covers a
  longest : ∀ other ∈ table, (block other).Covers a → (block other).length ≤ (block row).length

/-- The answer of a table in no particular order: the label of a most specific row, and none where
that row is an exception or no row covers the address. -/
def Answers (table : List Row) (a : Nat) (answer : Option Label) : Prop :=
  (∃ row, MostSpecific block table a row ∧ label row = answer) ∨
    ((∀ row ∈ table, ¬ (block row).Covers a) ∧ answer = none)

/-- Rows of one block have one label. -/
def Consistent (table : List Row) : Prop :=
  ∀ row ∈ table, ∀ other ∈ table, (block row).length = (block other).length →
    (block row).Covers (block other).base → label row = label other

instance [DecidableEq Label] (table : List Row) : Decidable (Consistent block label table) :=
  inferInstanceAs (Decidable (∀ row ∈ table, ∀ other ∈ table, _))

/-- Some labelled row covers the address, whatever exceptions it has. -/
def InLabelledRow (table : List Row) (a : Nat) : Prop :=
  ∃ row ∈ table, (label row).isSome ∧ (block row).Covers a

/-- Every exception inside a labelled row lies in a block of the backstop. -/
def ExceptionsCovered (table : List Row) (backstop : List (Block width)) : Prop :=
  ∀ row ∈ table, label row = none → ∀ outer ∈ table, (label outer).isSome →
    (block outer).length ≤ (block row).length → (block outer).Covers (block row).base →
    ∃ stop ∈ backstop, stop.length ≤ (block row).length ∧ stop.Covers (block row).base

instance (table : List Row) (backstop : List (Block width)) :
    Decidable (ExceptionsCovered block label table backstop) :=
  inferInstanceAs (Decidable (∀ row ∈ table, _))

variable {block label} {table : List Row} {a : Nat}

theorem firstMatch_mem {row : Row} (h : firstMatch block table a = some row) : row ∈ table :=
  List.mem_of_find?_eq_some h

theorem firstMatch_covers {row : Row} (h : firstMatch block table a = some row) :
    (block row).Covers a := by
  simpa using List.find?_some h

/-- No row that covers the address has a longer prefix than the answer. -/
theorem firstMatch_longest (sorted : LongestFirst block table) {row other : Row}
    (h : firstMatch block table a = some row) (hmem : other ∈ table)
    (hcovers : (block other).Covers a) : (block other).length ≤ (block row).length := by
  obtain ⟨_, before, after, rfl, hbefore⟩ := List.find?_eq_some_iff_append.mp h
  rcases List.mem_append.mp hmem with hmem | hmem
  · have hnot := hbefore other hmem
    simp [hcovers] at hnot
  · rcases List.mem_cons.mp hmem with rfl | hmem
    · exact le_refl _
    · exact (List.pairwise_cons.mp (List.pairwise_append.mp sorted).2.1).1 other hmem

theorem firstMatch_mostSpecific (sorted : LongestFirst block table) {row : Row}
    (h : firstMatch block table a = some row) : MostSpecific block table a row :=
  ⟨firstMatch_mem h, firstMatch_covers h, fun _ hmem => firstMatch_longest sorted h hmem⟩

theorem firstMatch_eq_none (h : firstMatch block table a = none) :
    ∀ row ∈ table, ¬ (block row).Covers a := by
  intro row hmem
  simpa using List.find?_eq_none.mp h row hmem

/-- Most specific rows of one address share their block, hence their label. -/
theorem Consistent.label_eq (consistent : Consistent block label table) {row other : Row}
    (hrow : MostSpecific block table a row) (hother : MostSpecific block table a other) :
    label row = label other := by
  have hlength : (block row).length = (block other).length :=
    Nat.le_antisymm (hother.longest row hrow.mem hrow.covers)
      (hrow.longest other hother.mem hother.covers)
  exact consistent row hrow.mem other hother.mem hlength
    (hother.covers.nested hrow.covers (le_of_eq hlength))

/-- A search of the rows in any longest-first order gives the answer of the table. -/
theorem answers_iff (consistent : Consistent block label table) {rows : List Row}
    (perm : rows.Perm table) (sorted : LongestFirst block rows) {answer : Option Label} :
    Answers block label table a answer ↔ (firstMatch block rows a).bind label = answer := by
  have hmem {row : Row} : row ∈ rows ↔ row ∈ table := perm.mem_iff
  cases hmatch : firstMatch block rows a with
  | none =>
      have hnone : ∀ row ∈ table, ¬ (block row).Covers a := fun row hrow =>
        firstMatch_eq_none hmatch row (hmem.mpr hrow)
      constructor
      · rintro (⟨row, hrow, _⟩ | ⟨_, rfl⟩)
        · exact absurd hrow.covers (hnone row hrow.mem)
        · rfl
      · rintro rfl
        exact Or.inr ⟨hnone, rfl⟩
  | some row =>
      obtain ⟨hrow, hcovers, hlongest⟩ := firstMatch_mostSpecific sorted hmatch
      have hspecific : MostSpecific block table a row :=
        ⟨hmem.mp hrow, hcovers, fun other hother => hlongest other (hmem.mpr hother)⟩
      rw [Option.bind_some]
      constructor
      · rintro (⟨other, hother, rfl⟩ | ⟨hnone, _⟩)
        · exact consistent.label_eq hspecific hother
        · exact absurd hcovers (hnone row hspecific.mem)
      · intro hanswer
        exact Or.inl ⟨row, hspecific, hanswer⟩

/-- An address of a labelled row is answered with a label, or an exception hides it and the
backstop has it. -/
theorem labelled_or_backstop {backstop : List (Block width)} (sorted : LongestFirst block table)
    (exceptions : ExceptionsCovered block label table backstop)
    (h : InLabelledRow block label table a) :
    (∃ row, firstMatch block table a = some row ∧ (label row).isSome) ∨
      ∃ stop ∈ backstop, stop.Covers a := by
  obtain ⟨outer, hmem, hlabel, hcovers⟩ := h
  cases hmatch : firstMatch block table a with
  | none =>
      have hnone := List.find?_eq_none.mp hmatch outer hmem
      simp [hcovers] at hnone
  | some row =>
      cases hrow : label row with
      | some l => exact Or.inl ⟨row, rfl, by simp [hrow]⟩
      | none =>
          have hle := firstMatch_longest sorted hmatch hmem hcovers
          have hinner := firstMatch_covers hmatch
          obtain ⟨stop, hstop, hlength, hbase⟩ := exceptions row (firstMatch_mem hmatch) hrow
            outer hmem hlabel hle (hinner.nested hcovers hle)
          exact Or.inr ⟨stop, hstop, hinner.mono hbase hlength⟩

end Table

end PrefixTable
