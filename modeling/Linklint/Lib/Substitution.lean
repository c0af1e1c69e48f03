import Linklint.Lib.BoundedFixpoint
import Mathlib.Data.List.Flatten

/-!
# Letter by letter substitution

A substitution writes a word for every letter. It is closed when it leaves the
letters it writes alone, and one pass is then all that a repetition can do.
-/

namespace Substitution

variable {α : Type*} {f g : α → List α} {l : List α}

/-- The letters a substitution writes stand for themselves. -/
def Closed (f : α → List α) : Prop := ∀ a, ∀ b ∈ f a, f b = [b]

theorem flatMap_fixed (h : ∀ a ∈ l, f a = [a]) : l.flatMap f = l := by
  induction l with
  | nil => rfl
  | cons a l ih =>
      obtain ⟨ha, hl⟩ := List.forall_mem_cons.mp h
      rw [List.flatMap_cons, ha, ih hl, List.singleton_append]

theorem Closed.fixed (hf : Closed f) {b : α} (hb : b ∈ l.flatMap f) : f b = [b] := by
  obtain ⟨a, -, hab⟩ := List.mem_flatMap.mp hb
  exact hf a b hab

theorem Closed.idempotent (hf : Closed f) (l : List α) :
    (l.flatMap f).flatMap f = l.flatMap f :=
  flatMap_fixed fun _ hb => hf.fixed hb

/-- What a closed substitution wrote, or left alone, is still fixed by another one that
fixes both its words and the letters it started from. -/
theorem fixed_of_words (hwords : ∀ a, f a = [a] ∨ ∀ b ∈ f a, g b = [b])
    (hl : ∀ a ∈ l, g a = [a]) {b : α} (hb : b ∈ l.flatMap f) : g b = [b] := by
  obtain ⟨a, ha, hab⟩ := List.mem_flatMap.mp hb
  rcases hwords a with hkept | hword
  · rw [hkept, List.mem_singleton] at hab
    rw [hab]
    exact hl a ha
  · exact hword b hab

end Substitution
