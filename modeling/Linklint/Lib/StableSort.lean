import Mathlib.Data.List.Chain
import Mathlib.Data.List.Sort

/-!
# Stable insertion sort and filtering

Filtering commutes with a stable sort, so what a filter keeps is ordered as if
the rest had never been there.
-/

namespace StableSort

variable {α : Type*} {r : α → α → Prop} [DecidableRel r]

theorem orderedInsert_of_forall {a : α} {l : List α} (h : ∀ b ∈ l, r a b) :
    l.orderedInsert r a = a :: l := by
  cases l with
  | nil => rfl
  | cons b l => exact List.orderedInsert_cons_of_le r l (h b (List.mem_cons_self ..))

theorem filter_orderedInsert [IsTrans α r] (p : α → Bool) (a : α) {l : List α}
    (hl : l.Pairwise r) :
    (l.orderedInsert r a).filter p
      = if p a then (l.filter p).orderedInsert r a else l.filter p := by
  induction l with
  | nil => cases h : p a <;> simp [h]
  | cons b l ih =>
      obtain ⟨hb, hl'⟩ := List.pairwise_cons.mp hl
      by_cases hab : r a b
      · rw [List.orderedInsert_cons_of_le r l hab]
        have hall : ∀ c ∈ (b :: l).filter p, r a c := by
          intro c hc
          rcases List.mem_cons.mp (List.mem_of_mem_filter hc) with rfl | hc'
          · exact hab
          · exact IsTrans.trans a b c hab (hb c hc')
        rw [orderedInsert_of_forall hall, List.filter_cons (x := a)]
      · rw [List.orderedInsert_cons, if_neg hab, List.filter_cons, ih hl', List.filter_cons]
        cases hpb : p b <;> cases hpa : p a <;> simp [hab]

/-- Filtering after sorting is sorting after filtering. -/
theorem filter_insertionSort [IsTrans α r] [Std.Total r] (p : α → Bool) (l : List α) :
    (l.insertionSort r).filter p = (l.filter p).insertionSort r := by
  induction l with
  | nil => rfl
  | cons a l ih =>
      rw [List.insertionSort_cons, filter_orderedInsert p a (List.pairwise_insertionSort r l), ih,
        List.filter_cons]
      cases p a <;> simp

/-- Sorting keeps a sublist a sublist. -/
theorem sublist_insertionSort_of_sublist [IsTrans α r] [Std.Total r] {l l' : List α}
    (h : l.Sublist l') : (l.insertionSort r).Sublist (l'.insertionSort r) := by
  induction h with
  | slnil => exact List.Sublist.refl _
  | cons a _ ih => exact ih.trans (List.sublist_orderedInsert a _)
  | cons_cons a _ ih => exact ih.orderedInsert_sublist a (List.pairwise_insertionSort r _)

/-! ### Orders that are not transitive

A sorted list is then one where every element may stand before the next. -/

theorem insertionSort_of_isChain {l : List α} (h : l.IsChain r) : l.insertionSort r = l := by
  induction l with
  | nil => rfl
  | cons a l ih =>
      rw [List.insertionSort_cons, ih h.of_cons]
      cases l with
      | nil => rfl
      | cons b l => exact List.orderedInsert_cons_of_le r l (List.isChain_cons_cons.mp h).1

/-- Another relation between neighbours outlasts the sort, when whatever is moved past
something stands in that relation to everything. -/
theorem isChain_cons_orderedInsert {s : α → α → Prop}
    (hfree : ∀ a b, ¬ r a b → ∀ c, s a c ∧ s c b ∧ s b c) {x a : α} {l : List α}
    (hxa : s x a) (h : (a :: l).IsChain s) : (x :: l.orderedInsert r a).IsChain s := by
  induction l generalizing x with
  | nil => exact List.isChain_pair.mpr hxa
  | cons b l ih =>
      rw [List.orderedInsert_cons]
      split
      · exact List.isChain_cons_cons.mpr ⟨hxa, h⟩
      · rename_i hab
        refine List.isChain_cons_cons.mpr ⟨(hfree a b hab x).2.1, ih (hfree a b hab a).2.2 ?_⟩
        have hl := h.of_cons.of_cons
        cases l with
        | nil => exact List.isChain_singleton a
        | cons c l => exact List.isChain_cons_cons.mpr ⟨(hfree a b hab c).1, hl⟩

theorem isChain_orderedInsert_of_free {s : α → α → Prop}
    (hfree : ∀ a b, ¬ r a b → ∀ c, s a c ∧ s c b ∧ s b c) {a : α} {l : List α}
    (h : (a :: l).IsChain s) : (l.orderedInsert r a).IsChain s := by
  cases l with
  | nil => exact h
  | cons b l =>
      rw [List.orderedInsert_cons]
      split
      · exact h
      · rename_i hab
        apply isChain_cons_orderedInsert hfree (hfree a b hab a).2.2
        cases l with
        | nil => exact List.isChain_singleton a
        | cons c l => exact List.isChain_cons_cons.mpr ⟨(hfree a b hab c).1, h.of_cons.of_cons⟩

theorem isChain_cons_insertionSort {s : α → α → Prop}
    (hfree : ∀ a b, ¬ r a b → ∀ c, s a c ∧ s c b ∧ s b c) {x : α} {l : List α}
    (h : (x :: l).IsChain s) : (x :: l.insertionSort r).IsChain s := by
  induction l generalizing x with
  | nil => exact h
  | cons a l ih =>
      obtain ⟨hxa, hl⟩ := List.isChain_cons_cons.mp h
      exact isChain_cons_orderedInsert hfree hxa (ih hl)

theorem isChain_insertionSort_of_free {s : α → α → Prop}
    (hfree : ∀ a b, ¬ r a b → ∀ c, s a c ∧ s c b ∧ s b c) {l : List α} (h : l.IsChain s) :
    (l.insertionSort r).IsChain s := by
  cases l with
  | nil => exact h
  | cons a l => exact isChain_orderedInsert_of_free hfree (isChain_cons_insertionSort hfree h)

theorem isChain_cons_orderedInsert_self [Std.Total r] {x a : α} {l : List α}
    (hxa : r x a) (h : (x :: l).IsChain r) : (x :: l.orderedInsert r a).IsChain r := by
  induction l generalizing x with
  | nil => exact List.isChain_pair.mpr hxa
  | cons b l ih =>
      obtain ⟨hxb, hl⟩ := List.isChain_cons_cons.mp h
      rw [List.orderedInsert_cons]
      split
      · rename_i hab
        exact List.isChain_cons_cons.mpr ⟨hxa, List.isChain_cons_cons.mpr ⟨hab, hl⟩⟩
      · rename_i hab
        have hba : r b a := (Std.Total.total a b).resolve_left hab
        exact List.isChain_cons_cons.mpr ⟨hxb, ih hba hl⟩

theorem isChain_orderedInsert [Std.Total r] (a : α) {l : List α} (h : l.IsChain r) :
    (l.orderedInsert r a).IsChain r := by
  cases l with
  | nil => exact List.isChain_singleton a
  | cons b l =>
      rw [List.orderedInsert_cons]
      split
      · rename_i hab
        exact List.isChain_cons_cons.mpr ⟨hab, h⟩
      · rename_i hab
        have hba : r b a := (Std.Total.total a b).resolve_left hab
        exact isChain_cons_orderedInsert_self hba h

/-- A sort by a total relation sorts, transitive or not. -/
theorem isChain_insertionSort [Std.Total r] (l : List α) : (l.insertionSort r).IsChain r := by
  induction l with
  | nil => exact List.isChain_nil
  | cons a l ih => exact isChain_orderedInsert a ih

theorem insertionSort_idempotent [Std.Total r] (l : List α) :
    (l.insertionSort r).insertionSort r = l.insertionSort r :=
  insertionSort_of_isChain (isChain_insertionSort l)

end StableSort
