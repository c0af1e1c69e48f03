import Linklint.Js.Text
import Linklint.Js.Number

/-!
# Data values

A value an enricher resolves to or a cache returns: a finite tree of plain
objects and arrays. `none` in an array is a hole. `other` stands for whatever is
not data: functions, symbols, class instances.
-/

namespace Linklint

inductive Value where
  | undefined
  | null
  | bool (b : Bool)
  | num (n : JsNum)
  | str (s : Text)
  | arr (items : List (Option Value))
  | obj (fields : List (Text × Value))
  | other

namespace Value

/-- Induction over a tree: the hypotheses range over the members of a node. -/
theorem tree_induction {motive : Value → Prop}
    (undefined : motive .undefined) (null : motive .null) (bool : ∀ b, motive (.bool b))
    (num : ∀ n, motive (.num n)) (str : ∀ s, motive (.str s))
    (arr : ∀ items, (∀ v, some v ∈ items → motive v) → motive (.arr items))
    (obj : ∀ fields, (∀ k v, (k, v) ∈ fields → motive v) → motive (.obj fields))
    (other : motive .other) (v : Value) : motive v := by
  refine @Value.rec motive
    (fun items => ∀ v, some v ∈ items → motive v)
    (fun fields => ∀ k v, (k, v) ∈ fields → motive v)
    (fun item => ∀ v, item = some v → motive v)
    (fun field => motive field.2)
    undefined null bool num str arr obj other ?_ ?_ ?_ ?_ ?_ ?_ ?_ v
  · intro v hv
    cases hv
  · intro head tail hhead htail v hv
    rcases List.mem_cons.mp hv with h | h
    · exact hhead v h.symm
    · exact htail v h
  · intro k v hv
    cases hv
  · intro head tail hhead htail k v hv
    rcases List.mem_cons.mp hv with h | h
    · rw [← h] at hhead
      exact hhead
    · exact htail k v h
  · intro v hv
    cases hv
  · intro val hval v hv
    exact Option.some.inj hv ▸ hval
  · intro k v hv
    exact hv

/-- A property read of a value that is not `null` or `undefined`. -/
def get (value : Value) (key : Text) : Value :=
  match value with
  | .obj fields => (fields.lookup key).getD .undefined
  | _ => .undefined

def isUndefined : Value → Bool
  | .undefined => true
  | _ => false

/-- `typeof value === "string" && value.trim() !== ""` -/
def isNonEmptyString : Value → Bool
  | .str s => s.trim != []
  | _ => false

def isString : Value → Bool
  | .str _ => true
  | _ => false

def isStr (value : Value) (literal : String) : Bool :=
  match value with
  | .str s => s == text literal
  | _ => false

def isNull : Value → Bool
  | .null => true
  | _ => false

mutual

/-- `JSON.parse(JSON.stringify(value))`; `none` where stringify leaves the value out. -/
def jsonClone : Value → Option Value
  | .undefined => none
  | .null => some .null
  | .bool b => some (.bool b)
  | .num n => some (if n.isFinite then .num n else .null)
  | .str s => some (.str s)
  | .arr items => some (.arr (cloneItems items))
  | .obj fields => some (.obj (cloneFields fields))
  | .other => none

def cloneItems : List (Option Value) → List (Option Value)
  | [] => []
  | none :: rest => some .null :: cloneItems rest
  | some v :: rest => some (v.jsonClone.getD .null) :: cloneItems rest

def cloneFields : List (Text × Value) → List (Text × Value)
  | [] => []
  | (k, v) :: rest =>
      match v.jsonClone with
      | none => cloneFields rest
      | some v' => (k, v') :: cloneFields rest

end

/-- What one slot of an array becomes. -/
def cloneItem (item : Option Value) : Value := (item.bind jsonClone).getD .null

theorem cloneItems_eq_map (items : List (Option Value)) :
    cloneItems items = items.map (fun item => some (cloneItem item)) := by
  induction items with
  | nil => rfl
  | cons item rest ih => cases item <;> simp [cloneItems, cloneItem, ih]

@[simp] theorem cloneItem_none : cloneItem none = .null := rfl

end Value

end Linklint
