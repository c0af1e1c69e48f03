import Mathlib.Order.WellFounded
import Mathlib.Data.List.Basic

/-!
# Components that step one at a time

Several components that step one at a time, in any order. Where no component can
go on for ever, neither can they together.
-/

namespace Parallel

variable {α : Type} {r : α → α → Prop}

/-- One component steps, the others stay. -/
inductive Steps (r : α → α → Prop) : List α → List α → Prop
  | one {before after : List α} {x y : α} (step : r x y) :
      Steps r (before ++ x :: after) (before ++ y :: after)

theorem not_steps_nil {l : List α} : ¬ Steps r [] l := by
  intro h
  generalize hnil : ([] : List α) = start at h
  cases h with
  | @one before after x y step => cases before <;> cases hnil

/-- Either the first component steps or one of the rest does. -/
theorem steps_cons {x : α} {rest l : List α} (h : Steps r (x :: rest) l) :
    (∃ y, r x y ∧ l = y :: rest) ∨ ∃ rest', Steps r rest rest' ∧ l = x :: rest' := by
  generalize hcons : x :: rest = start at h
  cases h with
  | @one before after x' y step =>
      cases before with
      | nil =>
          cases hcons
          exact Or.inl ⟨y, step, rfl⟩
      | cons first before =>
          cases hcons
          exact Or.inr ⟨_, .one step, rfl⟩

theorem acc_cons {x : α} {rest : List α} (hx : Acc (fun next current => r current next) x)
    (hrest : Acc (fun next current => Steps r current next) rest) :
    Acc (fun next current => Steps r current next) (x :: rest) := by
  induction hx generalizing rest with
  | intro x _ ihx =>
      induction hrest with
      | intro rest hacc ihrest =>
          refine .intro _ fun next h => ?_
          rcases steps_cons h with ⟨y, hy, rfl⟩ | ⟨rest', hrest', rfl⟩
          · exact ihx y hy (.intro rest hacc)
          · exact ihrest rest' hrest'

/-- Components that all come to an end come to an end together. -/
theorem acc_steps {l : List α} (h : ∀ x ∈ l, Acc (fun next current => r current next) x) :
    Acc (fun next current => Steps r current next) l := by
  induction l with
  | nil => exact .intro _ fun next hnext => absurd hnext not_steps_nil
  | cons x rest ih =>
      obtain ⟨hx, hrest⟩ := List.forall_mem_cons.mp h
      exact acc_cons hx (ih hrest)

end Parallel
