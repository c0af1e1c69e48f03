import Mathlib.Logic.Basic
import Mathlib.Order.WellFounded

/-!
# Interaction programs

Programs that do nothing but call operations of an environment and go on with
the answer. The environment is free: a run is one choice of answers, and an
operation may also never settle. Automata over the calls give preconditions.
-/

namespace Interaction

/-- A program over operations `Op`; `Ans op` is what a call of `op` can answer. -/
inductive Prog (Op : Type) (Ans : Op → Type) (α : Type) where
  | ret (result : α)
  | call (op : Op) (next : Ans op → Prog Op Ans α)

variable {Op : Type} {Ans : Op → Type} {α β γ : Type}

namespace Prog

def bind (p : Prog Op Ans α) (f : α → Prog Op Ans β) : Prog Op Ans β :=
  match p with
  | ret a => f a
  | call op next => call op fun answer => (next answer).bind f

instance : Monad (Prog Op Ans) where
  pure := ret
  bind := bind

/-- The program that calls one operation. -/
def perform (op : Op) : Prog Op Ans (Ans op) := call op ret

@[simp] theorem pure_eq (a : α) : (pure a : Prog Op Ans α) = ret a := rfl

@[simp] theorem ret_bind (a : α) (f : α → Prog Op Ans β) : (ret a >>= f) = f a := rfl

@[simp] theorem call_bind (op : Op) (next : Ans op → Prog Op Ans α) (f : α → Prog Op Ans β) :
    (call op next >>= f) = call op fun answer => next answer >>= f := rfl

@[simp] theorem perform_bind (op : Op) (f : Ans op → Prog Op Ans β) :
    (perform op >>= f) = call op f := rfl

end Prog

/-- One call of a run; `none` is a call that has not settled. -/
structure Event (Op : Type) (Ans : Op → Type) where
  op : Op
  answer : Option (Ans op)

/-- The runs of a program: finished with a result, or waiting for its last call. -/
inductive Runs : Prog Op Ans α → List (Event Op Ans) → Option α → Prop
  | ret {a : α} : Runs (.ret a) [] (some a)
  | waiting {op : Op} {next : Ans op → Prog Op Ans α} : Runs (.call op next) [⟨op, none⟩] none
  | answered {op : Op} {next : Ans op → Prog Op Ans α} {answer : Ans op}
      {trace : List (Event Op Ans)} {result : Option α} (rest : Runs (next answer) trace result) :
      Runs (.call op next) (⟨op, some answer⟩ :: trace) result

/-- A run of two programs in sequence is a run of the first, followed by one of the second once the
first has finished. -/
theorem Runs.of_bind {p : Prog Op Ans α} {f : α → Prog Op Ans β} {trace : List (Event Op Ans)}
    {result : Option β} (run : Runs (p >>= f) trace result) :
    (result = none ∧ Runs p trace none) ∨ ∃ a before after, trace = before ++ after ∧
      Runs p before (some a) ∧ Runs (f a) after result := by
  induction p generalizing trace with
  | ret a => exact Or.inr ⟨a, [], trace, rfl, .ret, run⟩
  | call op next ih =>
      cases run with
      | waiting => exact Or.inl ⟨rfl, .waiting⟩
      | @answered _ _ answer trace result rest =>
          rcases ih answer rest with ⟨hnone, hrun⟩ | ⟨a, before, after, rfl, hp, hf⟩
          · exact Or.inl ⟨hnone, .answered hrun⟩
          · exact Or.inr ⟨a, ⟨op, some answer⟩ :: before, after, rfl, .answered hp, hf⟩

theorem Runs.bind {p : Prog Op Ans α} {f : α → Prog Op Ans β} {a : α}
    {before after : List (Event Op Ans)} {result : Option β} (hp : Runs p before (some a))
    (hf : Runs (f a) after result) : Runs (p >>= f) (before ++ after) result := by
  generalize hfinal : some a = final at hp
  induction hp with
  | ret =>
      cases hfinal
      exact hf
  | waiting => cases hfinal
  | answered _ ih => exact .answered (ih hfinal)

theorem Runs.bind_waiting {p : Prog Op Ans α} {f : α → Prog Op Ans β}
    {trace : List (Event Op Ans)} (hp : Runs p trace none) : Runs (p >>= f) trace none := by
  generalize hfinal : (none : Option α) = final at hp
  induction hp with
  | ret => cases hfinal
  | waiting => exact .waiting
  | answered _ ih => exact .answered (ih hfinal)

/-! ### Operations answered in place -/

/-- The program with the operations whose answer is known left out. -/
def Prog.answering (known : (op : Op) → Option (Ans op)) : Prog Op Ans α → Prog Op Ans α
  | .ret a => .ret a
  | .call op next =>
      match known op with
      | some answer => (next answer).answering known
      | none => .call op fun answer => (next answer).answering known

/-- A trace without the calls whose answer is known. -/
def unknownCalls (known : (op : Op) → Option (Ans op)) (trace : List (Event Op Ans)) :
    List (Event Op Ans) := trace.filter fun e => (known e.op).isNone

theorem unknownCalls_known {known : (op : Op) → Option (Ans op)} {e : Event Op Ans}
    {answer : Ans e.op} (trace : List (Event Op Ans)) (h : known e.op = some answer) :
    unknownCalls known (e :: trace) = unknownCalls known trace :=
  List.filter_cons_of_neg (by simp [h])

theorem unknownCalls_unknown {known : (op : Op) → Option (Ans op)} {e : Event Op Ans}
    (trace : List (Event Op Ans)) (h : known e.op = none) :
    unknownCalls known (e :: trace) = e :: unknownCalls known trace :=
  List.filter_cons_of_pos (by simp [h])

/-- Every run with the known answers left out is a run of the program itself. -/
theorem Runs.of_answering {known : (op : Op) → Option (Ans op)} {p : Prog Op Ans α}
    {trace : List (Event Op Ans)} {result : Option α} (run : Runs (p.answering known) trace result) :
    ∃ full, Runs p full result ∧ trace = unknownCalls known full := by
  induction p generalizing trace with
  | ret a =>
      cases run
      exact ⟨[], .ret, rfl⟩
  | call op next ih =>
      rw [Prog.answering] at run
      split at run
      · rename_i answer hknown
        obtain ⟨full, hfull, rfl⟩ := ih answer run
        exact ⟨⟨op, some answer⟩ :: full, .answered hfull, (unknownCalls_known full hknown).symm⟩
      · rename_i hknown
        cases run with
        | waiting => exact ⟨[⟨op, none⟩], .waiting, (unknownCalls_unknown [] hknown).symm⟩
        | @answered _ _ answer _ _ rest =>
            obtain ⟨full, hfull, rfl⟩ := ih answer rest
            exact ⟨⟨op, some answer⟩ :: full, .answered hfull,
              (unknownCalls_unknown full hknown).symm⟩

/-- The calls of a run that does get the known answers. -/
theorem Runs.answering {known : (op : Op) → Option (Ans op)} {p : Prog Op Ans α}
    {full : List (Event Op Ans)} {result : Option α} (run : Runs p full result)
    (h : ∀ e ∈ full, ∀ answer, known e.op = some answer → e.answer = some answer) :
    Runs (p.answering known) (unknownCalls known full) result := by
  induction run with
  | ret => exact .ret
  | @waiting op next =>
      cases hknown : known op with
      | some answer => cases h _ (List.mem_singleton_self _) answer hknown
      | none =>
          rw [unknownCalls_unknown [] hknown]
          simp only [Prog.answering, hknown]
          exact .waiting
  | @answered op next answer trace result rest ih =>
      have hrest := ih fun e hmem => h e (List.mem_cons_of_mem _ hmem)
      cases hknown : known op with
      | some answer' =>
          cases h _ (List.mem_cons_self ..) answer' hknown
          rw [unknownCalls_known trace hknown]
          simpa only [Prog.answering, hknown] using hrest
      | none =>
          rw [unknownCalls_unknown trace hknown]
          simp only [Prog.answering, hknown]
          exact .answered hrest

/-! ### Bounds on the calls -/

/-- No run makes more than `n` calls. -/
def Prog.CallsAtMost : Nat → Prog Op Ans α → Prop
  | _, .ret _ => True
  | 0, .call _ _ => False
  | n + 1, .call _ next => ∀ answer, CallsAtMost n (next answer)

theorem Prog.callsAtMost_ret (n : Nat) (a : α) : (ret a : Prog Op Ans α).CallsAtMost n := by
  cases n <;> trivial

theorem Prog.callsAtMost_call {n : Nat} {op : Op} {next : Ans op → Prog Op Ans α}
    (h : ∀ answer, (next answer).CallsAtMost n) : (call op next).CallsAtMost (n + 1) := h

theorem Prog.CallsAtMost.mono {m n : Nat} {p : Prog Op Ans α} (h : p.CallsAtMost m) (hle : m ≤ n) :
    p.CallsAtMost n := by
  induction p generalizing m n with
  | ret a => exact Prog.callsAtMost_ret n a
  | call op next ih =>
      cases m with
      | zero => cases h
      | succ m =>
          cases n with
          | zero => omega
          | succ n => exact fun answer => ih answer (h answer) (by omega)

theorem Prog.CallsAtMost.bind {m n : Nat} {p : Prog Op Ans α} {f : α → Prog Op Ans β}
    (hp : p.CallsAtMost m) (hf : ∀ a, (f a).CallsAtMost n) : (p >>= f).CallsAtMost (m + n) := by
  induction p generalizing m with
  | ret a => exact (hf a).mono (by omega)
  | call op next ih =>
      cases m with
      | zero => cases hp
      | succ m =>
          rw [Nat.succ_add]
          exact fun answer => ih answer (hp answer)

theorem Runs.length_le {n : Nat} {p : Prog Op Ans α} {trace : List (Event Op Ans)}
    {result : Option α} (run : Runs p trace result) (h : p.CallsAtMost n) : trace.length ≤ n := by
  induction run generalizing n with
  | ret => exact Nat.zero_le _
  | waiting =>
      cases n with
      | zero => cases h
      | succ n => simp
  | answered _ ih =>
      cases n with
      | zero => cases h
      | succ n => simpa using ih (h _)

/-! ### Automata over the calls -/

section Automaton

variable {State : Type} (step : State → Event Op Ans → State → Prop)

/-- A trace leads an automaton from one state to another. -/
inductive Follows : State → List (Event Op Ans) → State → Prop
  | nil {s : State} : Follows s [] s
  | cons {s s₁ s' : State} {e : Event Op Ans} {trace : List (Event Op Ans)}
      (head : step s e s₁) (tail : Follows s₁ trace s') : Follows s (e :: trace) s'

/-- Every call of the program is one the automaton allows, whatever the answer, and every result
meets `post` in the state reached. -/
def wp : Prog Op Ans α → (α → State → Prop) → State → Prop
  | .ret a, post, s => post a s
  | .call op rest, post, s =>
      (∃ s', step s ⟨op, none⟩ s') ∧ ∀ answer, ∃ s', step s ⟨op, some answer⟩ s' ∧
        wp (rest answer) post s'

variable {step}

@[simp] theorem wp_ret {a : α} {post : α → State → Prop} {s : State} :
    wp step (.ret a) post s ↔ post a s := Iff.rfl

theorem wp_call {op : Op} {rest : Ans op → Prog Op Ans α} {post : α → State → Prop} {s : State} :
    wp step (.call op rest) post s ↔ (∃ s', step s ⟨op, none⟩ s') ∧
      ∀ answer, ∃ s', step s ⟨op, some answer⟩ s' ∧ wp step (rest answer) post s' :=
  Iff.rfl

/-- The rule of a call whose every answer leads to a state of its own. -/
theorem wp_call_of {op : Op} {rest : Ans op → Prog Op Ans α} {post : α → State → Prop} {s : State}
    (target : Option (Ans op) → State) (hstep : ∀ answer, step s ⟨op, answer⟩ (target answer))
    (hrest : ∀ answer, wp step (rest answer) post (target (some answer))) :
    wp step (.call op rest) post s :=
  ⟨⟨target none, hstep none⟩, fun answer => ⟨target (some answer), hstep _, hrest answer⟩⟩

theorem wp_mono {p : Prog Op Ans α} {post post' : α → State → Prop} {s : State}
    (h : wp step p post s) (himp : ∀ a s', post a s' → post' a s') : wp step p post' s := by
  induction p generalizing s with
  | ret a => exact himp a s h
  | call op rest ih =>
      refine ⟨h.1, fun answer => ?_⟩
      obtain ⟨s', hs', hrest⟩ := h.2 answer
      exact ⟨s', hs', ih answer hrest⟩

/-- The rule of sequencing. -/
theorem wp_bind {p : Prog Op Ans α} {f : α → Prog Op Ans β} {post : β → State → Prop} {s : State} :
    wp step (p >>= f) post s ↔ wp step p (fun a s' => wp step (f a) post s') s := by
  induction p generalizing s with
  | ret a => rfl
  | call op rest ih =>
      simp only [Prog.call_bind, wp_call]
      refine and_congr_right fun _ => forall_congr' fun answer => exists_congr fun s' => ?_
      exact and_congr_right fun _ => ih answer

/-- A run of a program that meets its precondition is a run of the automaton. -/
theorem Runs.follows {p : Prog Op Ans α} {trace : List (Event Op Ans)} {result : Option α}
    (run : Runs p trace result) {post : α → State → Prop} {s : State} (h : wp step p post s) :
    ∃ s', Follows step s trace s' ∧ ∀ a, result = some a → post a s' := by
  induction run generalizing s with
  | ret =>
      refine ⟨s, .nil, fun a ha => ?_⟩
      cases ha
      exact h
  | waiting =>
      obtain ⟨s', hs'⟩ := h.1
      exact ⟨s', .cons hs' .nil, fun a ha => by cases ha⟩
  | @answered op rest answer trace result _ ih =>
      obtain ⟨s', hs', hrest⟩ := h.2 answer
      obtain ⟨s'', htail, hpost⟩ := ih hrest
      exact ⟨s'', .cons hs' htail, hpost⟩

/-- A finished program leaves an automaton where it is. -/
theorem Runs.follows_ret {a : α} {trace : List (Event Op Ans)} {result : Option α} {s s' : State}
    (run : Runs (.ret a) trace result) (h : Follows step s trace s') :
    trace = [] ∧ result = some a ∧ s' = s := by
  cases run
  cases h
  exact ⟨rfl, rfl, rfl⟩

/-- The first call of a run, and the step of an automaton it makes. -/
theorem Runs.follows_call {op : Op} {next : Ans op → Prog Op Ans α} {trace : List (Event Op Ans)}
    {result : Option α} {s s' : State} (run : Runs (.call op next) trace result)
    (h : Follows step s trace s') :
    (trace = [⟨op, none⟩] ∧ result = none ∧ step s ⟨op, none⟩ s') ∨
    ∃ answer rest s₁, trace = ⟨op, some answer⟩ :: rest ∧ step s ⟨op, some answer⟩ s₁ ∧
      Runs (next answer) rest result ∧ Follows step s₁ rest s' := by
  cases run with
  | waiting =>
      cases h with
      | cons head tail =>
          cases tail
          exact Or.inl ⟨rfl, rfl, head⟩
  | answered hrest =>
      cases h with
      | cons head tail => exact Or.inr ⟨_, _, _, rfl, head, hrest, tail⟩

/-- What every step keeps true of the past and the state holds at the end of a trace. -/
theorem Follows.history {inv : List (Event Op Ans) → State → Prop}
    (hstep : ∀ past s e s', inv past s → step s e s' → inv (past ++ [e]) s') {s s' : State}
    {past trace : List (Event Op Ans)} (hs : inv past s) (h : Follows step s trace s') :
    inv (past ++ trace) s' := by
  induction h generalizing past with
  | nil => simpa using hs
  | @cons s s₁ s' e trace head _ ih =>
      have htail := ih (hstep past s e s₁ hs head)
      simpa using htail

/-- The state a trace passes through. -/
theorem Follows.cut {s s' : State} {before after : List (Event Op Ans)}
    (h : Follows step s (before ++ after) s') :
    ∃ s₁, Follows step s before s₁ ∧ Follows step s₁ after s' := by
  induction before generalizing s with
  | nil => exact ⟨s, .nil, h⟩
  | cons e before ih =>
      cases h with
      | cons head tail =>
          obtain ⟨s₁, hbefore, hafter⟩ := ih tail
          exact ⟨s₁, .cons head hbefore, hafter⟩

/-- The states around one event of a trace. -/
theorem Follows.split {s s' : State} {before after : List (Event Op Ans)} {e : Event Op Ans}
    (h : Follows step s (before ++ e :: after) s') :
    ∃ s₁ s₂, Follows step s before s₁ ∧ step s₁ e s₂ ∧ Follows step s₂ after s' := by
  obtain ⟨s₁, hbefore, hrest⟩ := h.cut
  cases hrest with
  | cons head tail => exact ⟨s₁, _, hbefore, head, tail⟩

end Automaton

/-! ### The past as the state -/

/-- The automaton that keeps the whole past and allows what the past allows. -/
def Records (allows : List (Event Op Ans) → Event Op Ans → Prop) (past : List (Event Op Ans))
    (e : Event Op Ans) (past' : List (Event Op Ans)) : Prop :=
  past' = past ++ [e] ∧ allows past e

section Records

variable {allows : List (Event Op Ans) → Event Op Ans → Prop}

theorem wp_recorded {op : Op} {rest : Ans op → Prog Op Ans α}
    {post : α → List (Event Op Ans) → Prop} {past : List (Event Op Ans)}
    (hallows : ∀ answer, allows past ⟨op, answer⟩)
    (h : ∀ answer, wp (Records allows) (rest answer) post (past ++ [⟨op, some answer⟩])) :
    wp (Records allows) (.call op rest) post past :=
  wp_call_of (fun answer => past ++ [⟨op, answer⟩]) (fun answer => ⟨rfl, hallows answer⟩) h

theorem Follows.recorded {past past' trace : List (Event Op Ans)}
    (h : Follows (Records allows) past trace past') :
    past' = past ++ trace ∧ ∀ before e after, trace = before ++ e :: after →
      allows (past ++ before) e := by
  induction h with
  | nil => exact ⟨by simp, fun before e after h => by cases before <;> cases h⟩
  | @cons s s₁ s' e trace head _ ih =>
      obtain ⟨rfl, hallows⟩ := head
      obtain ⟨hpast, hrest⟩ := ih
      refine ⟨by simp [hpast], fun before e' after h => ?_⟩
      cases before with
      | nil =>
          cases h
          simpa using hallows
      | cons b before =>
          obtain ⟨rfl, htail⟩ := List.cons.inj h
          simpa using hrest before e' after htail

end Records

/-- A run that has not finished ends in a call that has not settled. -/
theorem Runs.waiting_last {p : Prog Op Ans α} {trace : List (Event Op Ans)}
    (run : Runs p trace none) : ∃ before op, trace = before ++ [⟨op, none⟩] := by
  generalize hresult : (none : Option α) = result at run
  induction run with
  | ret => cases hresult
  | @waiting op => exact ⟨[], op, rfl⟩
  | @answered op _ answer _ _ _ ih =>
      obtain ⟨before, op', htrace⟩ := ih hresult
      exact ⟨⟨op, some answer⟩ :: before, op', by rw [htrace, List.cons_append]⟩

/-- What is left of a program once its first calls have been answered. -/
inductive Reaches (p : Prog Op Ans α) : List (Event Op Ans) → Prog Op Ans α → Prop
  | start : Reaches p [] p
  | answered {past : List (Event Op Ans)} {op : Op} {next : Ans op → Prog Op Ans α}
      (before : Reaches p past (.call op next)) (answer : Ans op) :
      Reaches p (past ++ [⟨op, some answer⟩]) (next answer)

theorem Reaches.runs {p q : Prog Op Ans α} {past trace : List (Event Op Ans)} {result : Option α}
    (h : Reaches p past q) (run : Runs q trace result) : Runs p (past ++ trace) result := by
  induction h generalizing trace with
  | start => exact run
  | answered before answer ih =>
      have hrun := ih (Runs.answered run)
      simpa using hrun

end Interaction
