import Mathlib.Data.List.Basic

/-!
# An index by a partial key

Records are entered one after the other under their keys. A record without a key
is left out, and so is one whose key is taken, so a lookup finds the first record.
-/

namespace KeyedIndex

variable {Record Key : Type*} [BEq Key] (key : Record → Option Key)

def add (index : List (Key × Record)) (record : Record) : List (Key × Record) :=
  match key record with
  | none => index
  | some k => if (index.lookup k).isSome then index else index ++ [(k, record)]

def build (records : List Record) : List (Key × Record) := records.foldl (add key) []

variable {key} {index : List (Key × Record)} {record : Record} {k : Key}

theorem lookup_append (rest : List (Key × Record)) :
    (index ++ rest).lookup k = (index.lookup k).or (rest.lookup k) := by
  induction index with
  | nil => simp
  | cons entry index ih =>
      obtain ⟨k', record'⟩ := entry
      rw [List.cons_append, List.lookup_cons, List.lookup_cons, ih]
      cases k == k' <;> simp

variable [LawfulBEq Key]

theorem mem_of_lookup (h : index.lookup k = some record) : (k, record) ∈ index := by
  obtain ⟨before, after, heq, -⟩ := List.lookup_eq_some_iff.mp h
  rw [heq]
  exact List.mem_append_right before List.mem_cons_self

/-- A record is found under its key unless another one was. -/
theorem lookup_add : (add key index record).lookup k =
    (index.lookup k).or (if key record == some k then some record else none) := by
  cases hkey : key record with
  | none => simp [add, hkey]
  | some k' =>
      by_cases htaken : (index.lookup k').isSome = true
      · obtain ⟨found, hfound⟩ := Option.isSome_iff_exists.mp htaken
        by_cases hsame : k' = k
        · subst hsame
          simp [add, hkey, hfound]
        · simp [add, hkey, htaken, hsame]
      · have hnew : add key index record = index ++ [(k', record)] := by
          simp [add, hkey, htaken]
        rw [hnew, lookup_append]
        by_cases hsame : k' = k
        · subst hsame
          simp
        · have hother : (k == k') = false := beq_eq_false_iff_ne.mpr (Ne.symm hsame)
          simp [List.lookup_cons, hother, hsame]

theorem lookup_foldl (records : List Record) : (records.foldl (add key) index).lookup k =
    (index.lookup k).or (records.find? fun record => key record == some k) := by
  induction records generalizing index with
  | nil => simp
  | cons record records ih =>
      rw [List.foldl_cons, ih, lookup_add, Option.or_assoc, List.find?_cons]
      cases hkey : key record == some k <;> simp

/-- A lookup finds the first record of the key. -/
theorem lookup_build (records : List Record) :
    (build key records).lookup k = records.find? fun record => key record == some k := by
  rw [build, lookup_foldl]
  rfl

end KeyedIndex
