import Mathlib.Algebra.Order.Monoid.Defs
import Mathlib.Data.List.Induction
import Mathlib.Logic.Function.Basic

/-!
# Stores with expiring entries

A map whose entries carry the instant they expire at, evicted by the read that
meets them. Whatever a read yields is the last value written under its key.
-/

namespace ExpiringStore

structure Entry (ν τ : Type*) where
  value : ν
  expiresAt : τ

abbrev Store (κ ν τ : Type*) := κ → Option (Entry ν τ)

inductive Op (κ ν τ : Type*) where
  | get (key : κ)
  | set (key : κ) (value : ν) (ttl : τ)

/-! ### Writes of a history -/

section

variable {κ ν τ : Type*} [LinearOrder τ] [Zero τ]

/-- The operation writes under the key. -/
def Op.Writes (key : κ) : Op κ ν τ → Prop
  | .get _ => False
  | .set written _ ttl => written = key ∧ 0 < ttl

/-- The last write of a history under a key. -/
def LastWrite (history : List (τ × Op κ ν τ)) (key : κ) (stamp : τ) (value : ν) (ttl : τ) : Prop :=
  ∃ before later, history = before ++ (stamp, .set key value ttl) :: later ∧ 0 < ttl ∧
    ∀ step ∈ later, ¬step.2.Writes key

theorem LastWrite.snoc {history : List (τ × Op κ ν τ)} {key : κ} {stamp ttl : τ} {value : ν}
    (h : LastWrite history key stamp value ttl) {step : τ × Op κ ν τ} (hstep : ¬step.2.Writes key) :
    LastWrite (history ++ [step]) key stamp value ttl := by
  obtain ⟨before, later, rfl, hpositive, hlater⟩ := h
  refine ⟨before, later ++ [step], by simp, hpositive, fun s hs => ?_⟩
  rcases List.mem_append.mp hs with hs | hs
  · exact hlater s hs
  · rw [List.mem_singleton.mp hs]
    exact hstep

end

/-! ### The store -/

section

variable {κ ν τ : Type*} [DecidableEq κ] [LinearOrder τ]

def empty : Store κ ν τ := fun _ => none

/-- A live entry, and the store without the entry when it is dead. -/
def get (store : Store κ ν τ) (now : τ) (key : κ) : Option ν × Store κ ν τ :=
  match store key with
  | none => (none, store)
  | some entry =>
      if entry.expiresAt ≤ now then (none, Function.update store key none)
      else (some entry.value, store)

/-- A read leaves the entries it finds, or fewer. -/
theorem get_entry {store : Store κ ν τ} {now : τ} {read key : κ} {entry : Entry ν τ}
    (h : (get store now read).2 key = some entry) : store key = some entry := by
  rw [get] at h
  cases hread : store read with
  | none =>
      rw [hread] at h
      exact h
  | some found =>
      rw [hread] at h
      simp only [] at h
      split at h
      · by_cases hkey : key = read
        · rw [hkey] at h
          simp at h
        · simpa [Function.update_of_ne hkey] using h
      · exact h

variable [Zero τ] [Add τ]

/-- Nothing is stored without a positive lifetime. -/
def set (store : Store κ ν τ) (now : τ) (key : κ) (value : ν) (ttl : τ) : Store κ ν τ :=
  if 0 < ttl then Function.update store key (some { value, expiresAt := now + ttl }) else store

def Op.apply (op : Op κ ν τ) (now : τ) (store : Store κ ν τ) : Store κ ν τ :=
  match op with
  | .get key => (ExpiringStore.get store now key).2
  | .set key value ttl => ExpiringStore.set store now key value ttl

/-- The store after a history of operations, each with the clock it read. -/
def after (history : List (τ × Op κ ν τ)) : Store κ ν τ :=
  history.foldl (fun store step => step.2.apply step.1 store) empty

@[simp] theorem after_snoc (history : List (τ × Op κ ν τ)) (step : τ × Op κ ν τ) :
    after (history ++ [step]) = step.2.apply step.1 (after history) := by
  simp [after]

/-- An entry of the store is the last write under its key. -/
theorem lastWrite_of_after {history : List (τ × Op κ ν τ)} {key : κ} {entry : Entry ν τ}
    (h : after history key = some entry) :
    ∃ stamp ttl, LastWrite history key stamp entry.value ttl ∧ entry.expiresAt = stamp + ttl := by
  induction history using List.reverseRecOn with
  | nil => cases h
  | append_singleton history step ih =>
      rw [after_snoc] at h
      obtain ⟨now, op⟩ := step
      cases op with
      | get read =>
          obtain ⟨stamp, ttl, hlast, hexpires⟩ := ih (get_entry h)
          exact ⟨stamp, ttl, hlast.snoc id, hexpires⟩
      | set written value ttl =>
          simp only [Op.apply, set] at h
          by_cases hpositive : 0 < ttl
          · rw [if_pos hpositive] at h
            by_cases hkey : key = written
            · subst hkey
              rw [Function.update_self] at h
              cases h
              exact ⟨now, ttl, ⟨history, [], by simp, hpositive, by simp⟩, rfl⟩
            · rw [Function.update_of_ne hkey] at h
              obtain ⟨stamp, ttl', hlast, hexpires⟩ := ih h
              exact ⟨stamp, ttl', hlast.snoc fun hw => hkey hw.1.symm, hexpires⟩
          · rw [if_neg hpositive] at h
            obtain ⟨stamp, ttl', hlast, hexpires⟩ := ih h
            exact ⟨stamp, ttl', hlast.snoc fun hw => hpositive hw.2, hexpires⟩

/-- A read yields the last value written under its key, before its lifetime has elapsed. -/
theorem get_fresh {history : List (τ × Op κ ν τ)} {now : τ} {key : κ} {value : ν}
    (h : (get (after history) now key).1 = some value) :
    ∃ stamp ttl, LastWrite history key stamp value ttl ∧ now < stamp + ttl := by
  rw [get] at h
  cases hentry : after history key with
  | none =>
      rw [hentry] at h
      cases h
  | some entry =>
      rw [hentry] at h
      simp only [] at h
      split at h
      · cases h
      · rename_i hlive
        cases h
        obtain ⟨stamp, ttl, hlast, hexpires⟩ := lastWrite_of_after hentry
        exact ⟨stamp, ttl, hlast, hexpires ▸ not_le.mp hlive⟩

end

end ExpiringStore
