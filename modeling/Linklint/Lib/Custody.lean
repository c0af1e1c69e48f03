import Mathlib.Data.List.Basic
import Mathlib.Logic.Relation
import Mathlib.Logic.Function.Defs

/-!
# Custody of objects

Objects come one after another. Each is held by its maker, may then be listed under
a name that no object had before, and is released from either state for good. A
table that is kept beside the objects holds the listed ones under their names.
-/

namespace Custody

inductive Status (K : Type*) where
  | held
  | listed (key : K)
  | released
deriving DecidableEq

/-- The objects by their place, and the number of the next name. -/
structure Ledger (K : Type*) where
  next : Nat
  objects : List (Status K)

variable {K : Type*} (name : Nat → K)

inductive Step : Ledger K → Ledger K → Prop
  | create (l : Ledger K) : Step l { l with objects := l.objects ++ [.held] }
  | stillborn (l : Ledger K) : Step l { l with objects := l.objects ++ [.released] }
  | drop {l : Ledger K} {i : Nat} (found : l.objects[i]? = some .held) :
      Step l { l with objects := l.objects.set i .released }
  | list {l : Ledger K} {i : Nat} (found : l.objects[i]? = some .held) :
      Step l { next := l.next + 1, objects := l.objects.set i (.listed (name l.next)) }
  | withdraw {l : Ledger K} {i : Nat} {key : K} (found : l.objects[i]? = some (.listed key)) :
      Step l { l with objects := l.objects.set i .released }

abbrev Run : Ledger K → Ledger K → Prop := Relation.ReflTransGen (Step name)

/-- `key` is a name that was given. -/
def Given (l : Ledger K) (key : K) : Prop := ∃ k < l.next, key = name k

/-- Only given names are in use, each for one object. -/
structure Proper (l : Ledger K) : Prop where
  given : ∀ (i : Nat) (key : K), l.objects[i]? = some (.listed key) → Given name l key
  single : ∀ (i j : Nat) (key : K), l.objects[i]? = some (.listed key) →
    l.objects[j]? = some (.listed key) → i = j

/-- The name was given and is no longer in use. -/
def Gone (l : Ledger K) (key : K) : Prop :=
  Given name l key ∧ ∀ i : Nat, l.objects[i]? ≠ some (.listed key)

/-- What may become of an object. -/
def Status.Onward : Status K → Status K → Prop
  | .held, _ => True
  | .listed key, later => later = .listed key ∨ later = .released
  | .released, later => later = .released

/-- Every object of the first is one of the second, and further on its way. -/
def Onward (l l' : Ledger K) : Prop :=
  ∀ (i : Nat) (s : Status K), l.objects[i]? = some s → ∃ s', l'.objects[i]? = some s' ∧ s.Onward s'

variable {name}

/-! ### One step -/

theorem getElem?_append_singleton {α : Type*} {l : List α} {a b : α} {i : Nat} :
    (l ++ [a])[i]? = some b ↔ l[i]? = some b ∨ (i = l.length ∧ a = b) := by
  rcases Nat.lt_trichotomy i l.length with hlt | rfl | hgt
  · rw [List.getElem?_append_left hlt]
    constructor
    · exact Or.inl
    · rintro (h | ⟨rfl, -⟩)
      · exact h
      · omega
  · rw [List.getElem?_append_right (Nat.le_refl _), Nat.sub_self]
    simp
  · have hnone : l[i]? = none := List.getElem?_eq_none (Nat.le_of_lt hgt)
    rw [List.getElem?_append_right (Nat.le_of_lt hgt), hnone]
    constructor
    · intro h
      rw [List.getElem?_eq_none (by rw [List.length_singleton]; omega)] at h
      cases h
    · rintro (h | ⟨rfl, -⟩)
      · cases h
      · omega

theorem getElem?_set_some {α : Type*} {l : List α} {a b c : α} {i j : Nat} (h : l[i]? = some c) :
    (l.set i a)[j]? = some b ↔ (j = i ∧ a = b) ∨ (j ≠ i ∧ l[j]? = some b) := by
  obtain ⟨hlt, -⟩ := List.getElem?_eq_some_iff.mp h
  rw [List.getElem?_set]
  by_cases hij : i = j
  · subst hij
    simp [hlt]
  · have hji : j ≠ i := fun heq => hij heq.symm
    simp [hij, hji]

theorem Given.step {l l' : Ledger K} {key : K} (h : Given name l key) (step : Step name l l') :
    Given name l' key := by
  obtain ⟨k, hk, hkey⟩ := h
  refine ⟨k, ?_, hkey⟩
  cases step with
  | list _ => exact Nat.lt_succ_of_lt hk
  | create => exact hk
  | stillborn => exact hk
  | drop _ => exact hk
  | withdraw _ => exact hk

/-- An object listed after a step was listed before, or got the name that was next. -/
theorem Step.listed {l l' : Ledger K} (step : Step name l l') {i : Nat} {key : K}
    (h : l'.objects[i]? = some (.listed key)) :
    l.objects[i]? = some (.listed key) ∨ (key = name l.next ∧ l'.next = l.next + 1 ∧
      l.objects[i]? = some .held ∧ l'.objects = l.objects.set i (.listed key)) := by
  cases step with
  | create =>
      rcases getElem?_append_singleton.mp h with hold | ⟨-, hnew⟩
      · exact Or.inl hold
      · cases hnew
  | stillborn =>
      rcases getElem?_append_singleton.mp h with hold | ⟨-, hnew⟩
      · exact Or.inl hold
      · cases hnew
  | drop found =>
      rcases (getElem?_set_some found).mp h with ⟨-, hnew⟩ | ⟨-, hold⟩
      · cases hnew
      · exact Or.inl hold
  | list found =>
      rcases (getElem?_set_some found).mp h with ⟨rfl, hnew⟩ | ⟨-, hold⟩
      · cases hnew
        exact Or.inr ⟨rfl, rfl, found, rfl⟩
      · exact Or.inl hold
  | withdraw found =>
      rcases (getElem?_set_some found).mp h with ⟨-, hnew⟩ | ⟨-, hold⟩
      · cases hnew
      · exact Or.inl hold

theorem not_given_next (hname : Function.Injective name) (l : Ledger K) :
    ¬ Given name l (name l.next) := by
  rintro ⟨k, hk, heq⟩
  have := hname heq
  omega

theorem Proper.step (hname : Function.Injective name) {l l' : Ledger K} (h : Proper name l)
    (step : Step name l l') : Proper name l' := by
  have hnew : ∀ (i j : Nat) (key : K), l.objects[j]? = some (.listed key) → l.objects[i]? = some .held →
      key = name l.next → False := by
    rintro i j key hj - rfl
    exact not_given_next hname l (h.given j _ hj)
  constructor
  · intro i key hi
    rcases step.listed hi with hold | ⟨rfl, hnext, -⟩
    · exact (h.given i key hold).step step
    · exact ⟨l.next, by omega, rfl⟩
  · intro i j key hi hj
    rcases step.listed hi with hiold | ⟨hikey, -, hiheld, hobjects⟩
    · rcases step.listed hj with hjold | ⟨hjkey, -, hjheld, -⟩
      · exact h.single i j key hiold hjold
      · exact (hnew j i key hiold hjheld hjkey).elim
    · rcases step.listed hj with hjold | ⟨-, -, hjheld, hobjects'⟩
      · exact (hnew i j key hjold hiheld hikey).elim
      · -- the one object that the step listed is both
        rw [hobjects] at hj
        rcases (getElem?_set_some hiheld).mp hj with ⟨rfl, -⟩ | ⟨-, hjlisted⟩
        · rfl
        · rw [hjheld] at hjlisted
          cases hjlisted

/-- A name that is out of use stays so. -/
theorem Gone.step (hname : Function.Injective name) {l l' : Ledger K} {key : K}
    (h : Gone name l key) (step : Step name l l') : Gone name l' key := by
  refine ⟨h.1.step step, fun i hi => ?_⟩
  rcases step.listed hi with hold | ⟨rfl, -⟩
  · exact h.2 i hold
  · exact not_given_next hname l h.1

theorem Status.onward_refl (s : Status K) : s.Onward s := by
  cases s with
  | held => exact True.intro
  | listed key => exact Or.inl rfl
  | released => exact rfl

theorem Status.onward_released (s : Status K) : s.Onward .released := by
  cases s with
  | held => exact True.intro
  | listed key => exact Or.inr rfl
  | released => exact rfl

theorem Status.Onward.trans {s s' s'' : Status K} (h : s.Onward s') (h' : s'.Onward s'') :
    s.Onward s'' := by
  cases s with
  | held => exact True.intro
  | released =>
      cases h
      exact h'
  | listed key =>
      rcases h with rfl | rfl
      · exact h'
      · exact Or.inr h'

theorem onward_append (l : List (Status K)) (s : Status K) (i : Nat) (old : Status K)
    (h : l[i]? = some old) : ∃ s', (l ++ [s])[i]? = some s' ∧ old.Onward s' :=
  ⟨old, getElem?_append_singleton.mpr (Or.inl h), old.onward_refl⟩

theorem onward_set {l : List (Status K)} {i : Nat} {before after : Status K}
    (found : l[i]? = some before) (h : before.Onward after) (j : Nat) (old : Status K)
    (hj : l[j]? = some old) : ∃ s', (l.set i after)[j]? = some s' ∧ old.Onward s' := by
  by_cases hij : j = i
  · subst hij
    rw [found, Option.some.injEq] at hj
    subst hj
    exact ⟨after, (getElem?_set_some found).mpr (Or.inl ⟨rfl, rfl⟩), h⟩
  · exact ⟨old, (getElem?_set_some found).mpr (Or.inr ⟨hij, hj⟩), old.onward_refl⟩

theorem Step.onward {l l' : Ledger K} (step : Step name l l') : Onward l l' := by
  intro i s hs
  cases step with
  | create => exact onward_append l.objects .held i s hs
  | stillborn => exact onward_append l.objects .released i s hs
  | drop found => exact onward_set found (Status.onward_released _) i s hs
  | list found => exact onward_set found True.intro i s hs
  | withdraw found => exact onward_set found (Status.onward_released _) i s hs

/-! ### Runs -/

theorem Run.proper (hname : Function.Injective name) {l l' : Ledger K} (run : Run name l l')
    (h : Proper name l) : Proper name l' := by
  induction run with
  | refl => exact h
  | tail _ step ih => exact ih.step hname step

theorem Run.gone (hname : Function.Injective name) {l l' : Ledger K} {key : K}
    (run : Run name l l') (h : Gone name l key) : Gone name l' key := by
  induction run with
  | refl => exact h
  | tail _ step ih => exact ih.step hname step

theorem Run.onward {l l' : Ledger K} (run : Run name l l') : Onward l l' := by
  induction run with
  | refl => exact fun i s hs => ⟨s, hs, s.onward_refl⟩
  | tail _ step ih =>
      intro i s hs
      obtain ⟨s', hs', h⟩ := ih i s hs
      obtain ⟨s'', hs'', h'⟩ := step.onward i s' hs'
      exact ⟨s'', hs'', h.trans h'⟩

/-! ### The table of the listed objects -/

/-- The entries of the table are the listed objects. -/
def TableOf (table : List (K × Nat)) (objects : List (Status K)) : Prop :=
  ∀ (key : K) (i : Nat), (key, i) ∈ table ↔ objects[i]? = some (.listed key)

namespace TableOf
variable {table : List (K × Nat)} {objects : List (Status K)}

theorem append (h : TableOf table objects) {s : Status K} (hs : ∀ key, s ≠ .listed key) :
    TableOf table (objects ++ [s]) := by
  intro key i
  rw [h, getElem?_append_singleton]
  constructor
  · exact Or.inl
  · rintro (hold | ⟨-, hnew⟩)
    · exact hold
    · exact absurd hnew (hs key)

theorem drop (h : TableOf table objects) {i : Nat} {before after : Status K}
    (found : objects[i]? = some before) (hbefore : ∀ key, before ≠ .listed key)
    (hafter : ∀ key, after ≠ .listed key) : TableOf table (objects.set i after) := by
  intro key j
  rw [h, getElem?_set_some found]
  constructor
  · intro hj
    refine Or.inr ⟨?_, hj⟩
    rintro rfl
    rw [found, Option.some.injEq] at hj
    exact hbefore key hj
  · rintro (⟨-, hnew⟩ | ⟨-, hold⟩)
    · exact absurd hnew (hafter key)
    · exact hold

variable [BEq K] [LawfulBEq K]

theorem list (h : TableOf table objects) {i : Nat} {key : K}
    (found : objects[i]? = some .held) (hnew : ∀ j : Nat, objects[j]? ≠ some (.listed key)) :
    TableOf (table.filter (fun entry => entry.1 != key) ++ [(key, i)])
      (objects.set i (.listed key)) := by
  intro other j
  rw [List.mem_append, List.mem_filter, bne_iff_ne, List.mem_singleton, Prod.mk.injEq, h,
    getElem?_set_some found, Status.listed.injEq]
  constructor
  · rintro (⟨hold, -⟩ | ⟨rfl, rfl⟩)
    · refine Or.inr ⟨?_, hold⟩
      rintro rfl
      rw [found] at hold
      cases hold
    · exact Or.inl ⟨rfl, rfl⟩
  · rintro (⟨rfl, rfl⟩ | ⟨-, hold⟩)
    · exact Or.inr ⟨rfl, rfl⟩
    · refine Or.inl ⟨hold, ?_⟩
      rintro rfl
      exact hnew j hold

theorem withdraw (h : TableOf table objects)
    (hsingle : ∀ (i j : Nat) (key : K), objects[i]? = some (.listed key) →
      objects[j]? = some (.listed key) → i = j)
    {i : Nat} {key : K} (found : objects[i]? = some (.listed key)) :
    TableOf (table.filter fun entry => entry.1 != key) (objects.set i .released) := by
  intro other j
  rw [List.mem_filter, bne_iff_ne, h, getElem?_set_some found]
  constructor
  · rintro ⟨hold, hne⟩
    refine Or.inr ⟨?_, hold⟩
    rintro rfl
    rw [found, Option.some.injEq, Status.listed.injEq] at hold
    exact hne hold.symm
  · rintro (⟨-, hnew⟩ | ⟨hji, hold⟩)
    · cases hnew
    · refine ⟨hold, ?_⟩
      rintro rfl
      exact hji (hsingle j i _ hold found)

end TableOf

end Custody
