import Mathlib.Data.List.Forall2
import Mathlib.Data.List.Basic

/-!
# Words written with look-alike letters

Some letters look like another one. A word is disguised when some of its letters
are written as letters that look like them; reading every look-alike as the letter
it resembles undoes any disguise of a word that has no look-alikes of its own.
-/

namespace Disguise

variable {α : Type*} {looks : α → Option α} {raw plain : List α}

/-- A letter read as the one it looks like. -/
def readLetter (looks : α → Option α) (u : α) : α := (looks u).getD u

def fold (looks : α → Option α) (raw : List α) : List α := raw.map (readLetter looks)

/-- `raw` is `plain`, letter by letter, in true letters or look-alikes. -/
def Spells (looks : α → Option α) : List α → List α → Prop :=
  List.Forall₂ fun u v => u = v ∨ looks u = some v

/-- None of its letters is a look-alike. -/
def Honest (looks : α → Option α) (plain : List α) : Prop := ∀ v ∈ plain, looks v = none

/-- At least one letter is written as a look-alike. -/
def Disguises (looks : α → Option α) (raw plain : List α) : Prop :=
  Spells looks raw plain ∧ raw ≠ plain

theorem readLetter_none {u : α} (h : looks u = none) : readLetter looks u = u := by
  rw [readLetter, h]
  rfl

theorem readLetter_some {u v : α} (h : looks u = some v) : readLetter looks u = v := by
  rw [readLetter, h]
  rfl

theorem spells_fold (raw : List α) : Spells looks raw (fold looks raw) := by
  induction raw with
  | nil => exact List.Forall₂.nil
  | cons u raw ih =>
      refine List.Forall₂.cons ?_ ih
      cases h : looks u with
      | none => exact Or.inl (readLetter_none h).symm
      | some v => exact Or.inr (by rw [readLetter_some h])

theorem fold_of_spells (hplain : Honest looks plain) (h : Spells looks raw plain) :
    fold looks raw = plain := by
  induction h with
  | nil => rfl
  | cons hletter _ ih =>
      obtain ⟨hv, hrest⟩ := List.forall_mem_cons.mp hplain
      rw [fold, List.map_cons, ← fold, ih hrest]
      rcases hletter with rfl | hlooks
      · rw [readLetter_none hv]
      · rw [readLetter_some hlooks]

/-- Reading a word gives `plain` exactly when the word spells it. -/
theorem fold_eq_iff (hplain : Honest looks plain) :
    fold looks raw = plain ↔ Spells looks raw plain := by
  constructor
  · rintro rfl
    exact spells_fold raw
  · exact fold_of_spells hplain

theorem disguises_iff (hplain : Honest looks plain) :
    Disguises looks raw plain ↔ fold looks raw = plain ∧ fold looks raw ≠ raw := by
  rw [Disguises, ← fold_eq_iff hplain]
  constructor
  · rintro ⟨hfold, hne⟩
    rw [hfold]
    exact ⟨rfl, hne.symm⟩
  · rintro ⟨rfl, hne⟩
    exact ⟨rfl, hne.symm⟩

theorem spells_refl (plain : List α) : Spells looks plain plain := by
  induction plain with
  | nil => exact List.Forall₂.nil
  | cons v plain ih => exact List.Forall₂.cons (Or.inl rfl) ih

theorem fold_honest (h : Honest looks raw) : fold looks raw = raw :=
  fold_of_spells h (spells_refl raw)

/-- A word without look-alikes disguises nothing. -/
theorem not_disguises_of_honest (hplain : Honest looks plain) (h : Honest looks raw) :
    ¬ Disguises looks raw plain := by
  rw [disguises_iff hplain]
  exact fun hdisguise => hdisguise.2 (fold_honest h)

/-- A word can be disguised exactly when one of its letters has a look-alike. -/
theorem exists_disguise_iff (hplain : Honest looks plain) :
    (∃ raw, Disguises looks raw plain) ↔ ∃ v ∈ plain, ∃ u, looks u = some v := by
  constructor
  · rintro ⟨raw, hspells, hne⟩
    induction hspells with
    | nil => exact absurd rfl hne
    | @cons u v raw plain hletter _ ih =>
        rcases hletter with rfl | hlooks
        · have hrest : raw ≠ plain := fun heq => hne (by rw [heq])
          obtain ⟨w, hw, hlike⟩ := ih (List.forall_mem_cons.mp hplain).2 hrest
          exact ⟨w, List.mem_cons_of_mem u hw, hlike⟩
        · exact ⟨v, List.mem_cons_self, u, hlooks⟩
  · rintro ⟨v, hv, u, hlooks⟩
    obtain ⟨before, after, rfl⟩ := List.append_of_mem hv
    refine ⟨before ++ u :: after, ?_, fun heq => ?_⟩
    · exact List.rel_append (spells_refl before) (List.Forall₂.cons (Or.inr hlooks) (spells_refl after))
    · have huv : u = v := (List.cons.inj (List.append_cancel_left heq)).1
      rw [huv, hplain v hv] at hlooks
      cases hlooks

end Disguise
