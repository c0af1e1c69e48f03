import Mathlib.Logic.Relation
import Mathlib.Tactic.TypeStar

/-!
# Interleaved components

Components over a state they share. A component is started at any time and any
number of them take turns in any order; a turn may read and write what is shared.
-/

namespace Interleaving

variable {S C I E : Type*}

/-- `turn` is `none` where a component cannot take that event. -/
structure Machine (S C I E : Type*) where
  start : S → I → S × C
  turn : S → C → E → Option (S × C)

structure State (S C : Type*) where
  shared : S
  components : List C

namespace Machine

variable (M : Machine S C I E)

inductive Step : State S C → State S C → Prop
  | start (s : State S C) (input : I) :
      Step s ⟨(M.start s.shared input).1, s.components ++ [(M.start s.shared input).2]⟩
  | turn {s : State S C} {index : Nat} {component : C} {event : E} {next : S × C}
      (found : s.components[index]? = some component)
      (taken : M.turn s.shared component event = some next) :
      Step s ⟨next.1, s.components.set index next.2⟩

abbrev Run : State S C → State S C → Prop := Relation.ReflTransGen M.Step

/-- `G` is what holds of the shared state and `L` what a component keeps about itself and the
shared state. Every start and turn goes up in `R`, and no `L` is lost on the way up. -/
structure RelyGuarantee (R : S → S → Prop) (G : S → Prop) (L : S → C → Prop) : Prop where
  stable : ∀ shared shared' component, R shared shared' → L shared component → L shared' component
  start : ∀ shared input, G shared → R shared (M.start shared input).1
    ∧ G (M.start shared input).1 ∧ L (M.start shared input).1 (M.start shared input).2
  turn : ∀ shared component event next, G shared → L shared component →
    M.turn shared component event = some next →
      R shared next.1 ∧ G next.1 ∧ L next.1 next.2

/-- The invariant of a whole state. -/
def Holds (G : S → Prop) (L : S → C → Prop) (s : State S C) : Prop :=
  G s.shared ∧ ∀ component ∈ s.components, L s.shared component

variable {M} {R : S → S → Prop} {G : S → Prop} {L : S → C → Prop}

theorem Step.holds (rules : M.RelyGuarantee R G L) {s s' : State S C} (step : M.Step s s')
    (holds : Holds G L s) : R s.shared s'.shared ∧ Holds G L s' := by
  obtain ⟨shared, components⟩ := holds
  cases step with
  | start input =>
      obtain ⟨up, kept, fresh⟩ := rules.start s.shared input shared
      refine ⟨up, kept, fun c hc => ?_⟩
      rcases List.mem_append.mp hc with old | newest
      · exact rules.stable _ _ _ up (components c old)
      · exact List.mem_singleton.mp newest ▸ fresh
  | turn found taken =>
      obtain ⟨up, kept, next⟩ :=
        rules.turn _ _ _ _ shared (components _ (List.mem_of_getElem? found)) taken
      refine ⟨up, kept, fun c hc => ?_⟩
      rcases List.mem_or_eq_of_mem_set hc with old | rfl
      · exact rules.stable _ _ _ up (components c old)
      · exact next

/-- What holds at the start and every start and turn keep holds after every run. -/
theorem Run.holds (rules : M.RelyGuarantee R G L) {s s' : State S C} (run : M.Run s s')
    (holds : Holds G L s) : Holds G L s' := by
  induction run with
  | refl => exact holds
  | tail _ step ih => exact (step.holds rules ih).2

/-- The shared state goes up along a run. -/
theorem Run.up (rules : M.RelyGuarantee R G L) (refl : ∀ s, R s s)
    (trans : ∀ a b c, R a b → R b c → R a c) {s s' : State S C} (run : M.Run s s')
    (holds : Holds G L s) : R s.shared s'.shared := by
  induction run with
  | refl => exact refl _
  | tail run step ih => exact trans _ _ _ ih (step.holds rules (Run.holds rules run holds)).1

/-! ### One component alone -/

variable (M) in
/-- The turns one component takes for a list of events. -/
def turns : S × C → List E → Option (S × C)
  | at_, [] => some at_
  | at_, event :: rest => (M.turn at_.1 at_.2 event).bind fun next => turns next rest

/-- A component that was just started and takes its turns alone is a run. -/
theorem run_turns {at_ last : S × C} {events : List E} (h : M.turns at_ events = some last) :
    M.Run ⟨at_.1, [at_.2]⟩ ⟨last.1, [last.2]⟩ := by
  induction events generalizing at_ with
  | nil =>
      cases h
      exact .refl
  | cons event rest ih =>
      obtain ⟨next, taken, onward⟩ := Option.bind_eq_some_iff.mp h
      have first : M.Step ⟨at_.1, [at_.2]⟩ ⟨next.1, [next.2]⟩ :=
        @Step.turn S C I E M ⟨at_.1, [at_.2]⟩ 0 at_.2 event next rfl taken
      exact .head first (ih onward)

end Machine

end Interleaving
