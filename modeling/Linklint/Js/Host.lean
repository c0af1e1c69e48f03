import Linklint.Js.Text
import Linklint.Js.Number

/-!
# Values a caller hands over

An options argument is arbitrary JavaScript data behind accessors and proxies.
Every property is read at most once by each reader, so a reader and a key name
one read of the run and an object may answer two readers differently. A hole of
an array reads as `undefined` wherever the program meets one.
-/

namespace Linklint

/-- A thrown value; no handler of the program looks at it. -/
inductive Thrown where
  | thrown
deriving DecidableEq

/-- The pass of the program that reads a property. -/
inductive Reader where
  | intake
  | normalize
  | agentMode
  | policyConfigured
  | suppressConfigured
  | inspectAsync
deriving DecidableEq

inductive HostVal where
  | undefined
  | null
  | bool (b : Bool)
  | num (n : JsNum)
  | str (s : Text)
  /-- A function, a symbol or a big integer. -/
  | other
  /-- `elements` is what `Array.isArray` and then the iteration of the array answer. -/
  | object (elements : Except Thrown (Option (List (Except Thrown HostVal))))
      (keys : Except Thrown (List Text))
      (get : Reader → Text → Except Thrown HostVal)

namespace HostVal

/-- `{}` -/
def empty : HostVal := .object (.ok none) (.ok []) (fun _ _ => .ok .undefined)

/-- A plain object with data properties. -/
def plain (fields : List (Text × HostVal)) : HostVal :=
  .object (.ok none) (.ok (fields.map Prod.fst))
    (fun _ key => .ok ((fields.lookup key).getD .undefined))

/-- An array of data values. -/
def list (items : List HostVal) : HostVal :=
  .object (.ok (some (items.map .ok))) (.ok ((List.range items.length).map decimalText))
    (fun _ key => .ok ((((List.range items.length).map decimalText).zip items).lookup key
      |>.getD .undefined))

/-- A revoked proxy: every operation on it throws. -/
def revoked : HostVal :=
  .object (.error .thrown) (.error .thrown) (fun _ _ => .error .thrown)

def isUndefined : HostVal → Bool
  | .undefined => true
  | _ => false

def isTrue : HostVal → Bool
  | .bool b => b
  | _ => false

/-- `typeof value === "object" && value !== null` -/
def isObject : HostVal → Bool
  | .object .. => true
  | _ => false

/-- `value[key]` for a value that is known to be an object. -/
def read (value : HostVal) (reader : Reader) (key : Text) : Except Thrown HostVal :=
  match value with
  | .object _ _ get => get reader key
  | _ => .ok .undefined

/-- `Object.keys(value)` -/
def ownKeys : HostVal → Except Thrown (List Text)
  | .object _ keys _ => keys
  | _ => .ok []

/-- `Array.isArray(value) ? value : []`, iterated to the end. -/
def elements : HostVal → Except Thrown (List HostVal)
  | .object arr _ _ => do
      match ← arr with
      | none => return []
      | some items => items.mapM id
  | _ => .ok []

end HostVal

/-- A sequence of calls returns exactly when each of them does. -/
theorem bind_eq_ok {ε α β : Type} {x : Except ε α} {f : α → Except ε β} {b : β} :
    (x >>= f) = .ok b ↔ ∃ a, x = .ok a ∧ f a = .ok b := by
  cases x with
  | error e => simp [bind, Except.bind]
  | ok a => simp [bind, Except.bind]

theorem bind_returns_iff {ε α β : Type} {x : Except ε α} {f : α → Except ε β} :
    (∃ b, (x >>= f) = .ok b) ↔ ∃ a, x = .ok a ∧ ∃ b, f a = .ok b := by
  simp only [bind_eq_ok]
  constructor
  · rintro ⟨b, a, ha, hb⟩
    exact ⟨a, ha, b, hb⟩
  · rintro ⟨a, ha, b, hb⟩
    exact ⟨b, a, ha, hb⟩

/-- A loop of calls returns exactly when every call returns. -/
theorem mapM_returns_iff {ε α β : Type} {f : α → Except ε β} {l : List α} :
    (∃ bs, l.mapM f = .ok bs) ↔ ∀ a ∈ l, ∃ b, f a = .ok b := by
  induction l with
  | nil => simp [pure, Except.pure]
  | cons a l ih =>
      rw [List.mapM_cons, bind_returns_iff]
      simp only [bind_returns_iff, List.forall_mem_cons, ← ih]
      constructor
      · rintro ⟨b, hb, bs, hbs, -⟩
        exact ⟨⟨b, hb⟩, bs, hbs⟩
      · rintro ⟨⟨b, hb⟩, bs, hbs⟩
        exact ⟨b, hb, bs, hbs, b :: bs, rfl⟩

theorem mapM_eq_ok_iff {ε α β : Type} {f : α → Except ε β} {l : List α} {bs : List β} :
    l.mapM f = .ok bs ↔ List.Forall₂ (fun a b => f a = .ok b) l bs := by
  induction l generalizing bs with
  | nil =>
      constructor
      · intro h
        cases h
        exact .nil
      · intro h
        cases h
        rfl
  | cons a l ih =>
      rw [List.mapM_cons, bind_eq_ok]
      simp only [bind_eq_ok, ih]
      constructor
      · rintro ⟨b, hb, bs', hbs, h⟩
        cases h
        exact .cons hb hbs
      · intro h
        cases h with
        | cons hb hbs => exact ⟨_, hb, _, hbs, rfl⟩

theorem pure_eq_ok {ε α : Type} {a b : α} : (pure a : Except ε α) = .ok b ↔ a = b := by
  simp [pure, Except.pure]

end Linklint
