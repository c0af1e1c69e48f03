import Mathlib.Data.List.Chain
import Mathlib.Data.List.Nodup
import Mathlib.Data.List.Perm.Subperm

/-!
# Depth-first search for a cycle

A search over the successors of the nodes of a graph. A node is being visited
while it is on the stack; an edge back to the stack closes a cycle. Where every
node has a successor among the nodes, the search finds one.
-/

namespace CycleSearch

variable {α : Type} [DecidableEq α]

/-- Where a search stands: at a cycle, or with the visited nodes, the last one first. -/
inductive Found (α : Type) where
  | cycle (nodes : List α)
  | clear (visited : List α)

/-- The loop over the successors of the last node of the stack. -/
def scan (visit : List α → α → Found α) (stack : List α) : List α → List α → Found α
  | visited, [] => .clear visited
  | visited, w :: ws =>
      if w ∈ stack then .cycle (stack.drop (stack.idxOf w))
      else if w ∈ visited then scan visit stack visited ws
      else
        match visit visited w with
        | .cycle nodes => .cycle nodes
        | .clear visited => scan visit stack visited ws

/-- The visit of a node that is neither on the stack nor visited. -/
def visit (next : α → List α) : Nat → List α → List α → α → Found α
  | 0, _, visited, _ => .clear visited
  | fuel + 1, stack, visited, v =>
      match scan (visit next fuel (stack ++ [v])) (stack ++ [v]) visited (next v) with
      | .cycle nodes => .cycle nodes
      | .clear visited => .clear (v :: visited)

/-- One cycle among the nodes, or nothing. -/
def findCycle (next : α → List α) (nodes : List α) : List α :=
  match scan (visit next nodes.length []) [] [] nodes with
  | .cycle cycle => cycle
  | .clear _ => []

variable {next : α → List α} {nodes stack visited : List α} {v : α}

/-! ### What is found is a cycle -/

/-- Every node of the list lies on a cycle, within the nodes. -/
def IsCycle (next : α → List α) (nodes cycle : List α) : Prop :=
  cycle ≠ [] ∧ ∀ x ∈ cycle, x ∈ nodes ∧ Relation.TransGen (fun a b => b ∈ next a) x x

omit [DecidableEq α] in
theorem isCycle_of_chain {first : α} {rest : List α}
    (hchain : (first :: rest).IsChain fun a b => b ∈ next a)
    (hback : first ∈ next ((first :: rest).getLast (List.cons_ne_nil _ _)))
    (hnodes : ∀ x ∈ first :: rest, x ∈ nodes) : IsCycle next nodes (first :: rest) := by
  refine ⟨List.cons_ne_nil _ _, fun x hx => ⟨hnodes x hx, ?_⟩⟩
  obtain ⟨before, after, hsplit⟩ := List.append_of_mem hx
  have hfrom : Relation.ReflTransGen (fun a b => b ∈ next a) x
      ((first :: rest).getLast (List.cons_ne_nil _ _)) := by
    have hsuffix : (x :: after).IsChain fun a b => b ∈ next a :=
      hchain.suffix ⟨before, hsplit.symm⟩
    have hreach := List.relationReflTransGen_of_exists_isChain _ hsuffix (List.cons_ne_nil _ _)
    simpa [hsplit] using hreach
  have hto : Relation.ReflTransGen (fun a b => b ∈ next a) first x := by
    have hprefix : (before ++ [x]).IsChain fun a b => b ∈ next a :=
      hchain.prefix ⟨after, by simp [hsplit]⟩
    have hreach := List.relationReflTransGen_of_exists_isChain _ hprefix (by simp)
    have hhead : (before ++ [x]).head (by simp) = first := by
      cases before with
      | nil => simpa using (List.cons.inj hsplit).1.symm
      | cons b before => simpa using (List.cons.inj hsplit).1.symm
    simpa [hhead] using hreach
  exact (Relation.TransGen.tail' hfrom hback).trans_left hto

theorem scan_cycle {visitNode : List α → α → Found α} {cycle : List α}
    (hchain : stack.IsChain fun a b => b ∈ next a) (hstack : ∀ x ∈ stack, x ∈ nodes)
    (hvisit : ∀ visited w, w ∈ nodes → (∀ last ∈ stack.getLast?, w ∈ next last) →
      visitNode visited w = .cycle cycle → IsCycle next nodes cycle) {ws : List α}
    (hws : ∀ w ∈ ws, w ∈ nodes ∧ ∀ last ∈ stack.getLast?, w ∈ next last)
    (h : scan visitNode stack visited ws = .cycle cycle) : IsCycle next nodes cycle := by
  induction ws generalizing visited with
  | nil => cases h
  | cons w ws ih =>
      have hrest := fun w' hw' => hws w' (List.mem_cons_of_mem w hw')
      obtain ⟨hnode, hedge⟩ := hws w (List.mem_cons_self ..)
      rw [scan] at h
      by_cases hon : w ∈ stack
      · rw [if_pos hon] at h
        cases h
        have hindex := List.idxOf_lt_length_of_mem hon
        have hdrop : stack.drop (stack.idxOf w) = w :: stack.drop (stack.idxOf w + 1) := by
          rw [List.drop_eq_getElem_cons hindex, List.getElem_idxOf hindex]
        have hlast : ∀ last ∈ (stack.drop (stack.idxOf w)).getLast?, w ∈ next last := by
          intro last hmem
          rw [List.getLast?_drop, if_neg (by omega)] at hmem
          exact hedge last hmem
        have hsub : ∀ x ∈ stack.drop (stack.idxOf w), x ∈ nodes :=
          fun x hx => hstack x (List.mem_of_mem_drop hx)
        have hchain' := hchain.drop (stack.idxOf w)
        rw [hdrop] at hlast hsub hchain' ⊢
        exact isCycle_of_chain hchain' (hlast _ (List.getLast_mem_getLast? _)) hsub
      · rw [if_neg hon] at h
        by_cases hvisited : w ∈ visited
        · rw [if_pos hvisited] at h
          exact ih hrest h
        · rw [if_neg hvisited] at h
          cases hw : visitNode visited w with
          | cycle found =>
              rw [hw] at h
              cases h
              exact hvisit visited w hnode hedge hw
          | clear visited' =>
              rw [hw] at h
              exact ih hrest h

theorem visit_cycle (hclosed : ∀ x ∈ nodes, ∀ y ∈ next x, y ∈ nodes) {fuel : Nat} {cycle : List α}
    (hchain : (stack ++ [v]).IsChain fun a b => b ∈ next a) (hstack : ∀ x ∈ stack ++ [v], x ∈ nodes)
    (h : visit next fuel stack visited v = .cycle cycle) : IsCycle next nodes cycle := by
  induction fuel generalizing stack visited v with
  | zero => cases h
  | succ fuel ih =>
      rw [visit] at h
      have hv : v ∈ nodes := hstack v (by simp)
      cases hscan : scan (visit next fuel (stack ++ [v])) (stack ++ [v]) visited (next v) with
      | clear visited' =>
          rw [hscan] at h
          cases h
      | cycle found =>
          rw [hscan] at h
          cases h
          refine scan_cycle hchain hstack ?_ ?_ hscan
          · intro visited' w hw hedge hvisit
            refine ih ?_ ?_ hvisit
            · refine hchain.append (List.isChain_singleton w) ?_
              intro last hlast first hfirst
              cases hfirst
              exact hedge last hlast
            · intro x hx
              rcases List.mem_append.mp hx with hx | hx
              · exact hstack x hx
              · rw [List.mem_singleton.mp hx]
                exact hw
          · intro w hw
            refine ⟨hclosed v hv w hw, fun last hlast => ?_⟩
            rw [List.getLast?_concat] at hlast
            cases hlast
            exact hw

/-! ### A graph without dead ends has a cycle -/

/-- Every visited node leads only to nodes visited before it. -/
def Finished (next : α → List α) : List α → Prop
  | [] => True
  | v :: rest => (∀ w ∈ next v, w ∈ rest) ∧ Finished next rest

omit [DecidableEq α] in
theorem exists_deadEnd {l : List α} (h : Finished next l) (hne : l ≠ []) :
    ∃ x ∈ l, next x = [] := by
  induction l with
  | nil => exact absurd rfl hne
  | cons x rest ih =>
      by_cases hrest : rest = []
      · refine ⟨x, List.mem_cons_self .., List.eq_nil_iff_forall_not_mem.mpr fun w hw => ?_⟩
        have hmem := h.1 w hw
        rw [hrest] at hmem
        cases hmem
      · obtain ⟨y, hy, hdead⟩ := ih h.2 hrest
        exact ⟨y, List.mem_cons_of_mem _ hy, hdead⟩

/-- What a search that closed no cycle has visited. -/
structure Cleared (next : α → List α) (nodes visited visited' : List α) : Prop where
  finished : Finished next visited'
  grows : ∀ x ∈ visited, x ∈ visited'
  within : ∀ x ∈ visited', x ∈ nodes

theorem scan_clear {visitNode : List α → α → Found α} {ws visited' : List α}
    (hvisited : Cleared next nodes visited visited) (hws : ∀ w ∈ ws, w ∈ nodes)
    (hvisit : ∀ visited visited' w, Cleared next nodes visited visited → w ∈ nodes → w ∉ stack →
      visitNode visited w = .clear visited' → Cleared next nodes visited visited' ∧ w ∈ visited')
    (h : scan visitNode stack visited ws = .clear visited') :
    Cleared next nodes visited visited' ∧ ∀ w ∈ ws, w ∈ visited' := by
  induction ws generalizing visited with
  | nil =>
      cases h
      exact ⟨hvisited, fun w hw => by cases hw⟩
  | cons w ws ih =>
      have hrest := fun w' hw' => hws w' (List.mem_cons_of_mem w hw')
      rw [scan] at h
      by_cases hon : w ∈ stack
      · rw [if_pos hon] at h
        cases h
      · rw [if_neg hon] at h
        by_cases hmem : w ∈ visited
        · rw [if_pos hmem] at h
          obtain ⟨hcleared, hall⟩ := ih hvisited hrest h
          refine ⟨hcleared, fun w' hw' => ?_⟩
          rcases List.mem_cons.mp hw' with rfl | hw'
          · exact hcleared.grows _ hmem
          · exact hall w' hw'
        · rw [if_neg hmem] at h
          cases hw : visitNode visited w with
          | cycle found =>
              rw [hw] at h
              cases h
          | clear visited₁ =>
              rw [hw] at h
              obtain ⟨hfirst, hin⟩ := hvisit visited visited₁ w hvisited
                (hws w (List.mem_cons_self ..)) hon hw
              obtain ⟨hcleared, hall⟩ :=
                ih ⟨hfirst.finished, fun x hx => hx, hfirst.within⟩ hrest h
              refine ⟨⟨hcleared.finished, fun x hx => hcleared.grows x (hfirst.grows x hx),
                hcleared.within⟩, fun w' hw' => ?_⟩
              rcases List.mem_cons.mp hw' with rfl | hw'
              · exact hcleared.grows _ hin
              · exact hall w' hw'

/-- The stack is never as long as the nodes are many, so the fuel is never spent. -/
theorem visit_clear (hclosed : ∀ x ∈ nodes, ∀ y ∈ next x, y ∈ nodes) {fuel : Nat}
    {visited' : List α} (hnodup : (stack ++ [v]).Nodup) (hstack : ∀ x ∈ stack ++ [v], x ∈ nodes)
    (hfuel : nodes.length ≤ fuel + stack.length) (hvisited : Cleared next nodes visited visited)
    (h : visit next fuel stack visited v = .clear visited') :
    Cleared next nodes visited visited' ∧ v ∈ visited' := by
  induction fuel generalizing stack visited visited' v with
  | zero =>
      have hlength := (List.subperm_of_subset hnodup hstack).length_le
      simp only [List.length_append, List.length_singleton] at hlength
      omega
  | succ fuel ih =>
      rw [visit] at h
      have hv : v ∈ nodes := hstack v (by simp)
      cases hscan : scan (visit next fuel (stack ++ [v])) (stack ++ [v]) visited (next v) with
      | cycle found =>
          rw [hscan] at h
          cases h
      | clear visited₁ =>
          rw [hscan] at h
          cases h
          obtain ⟨hcleared, hall⟩ := scan_clear hvisited (hclosed v hv) (by
            intro visited visited' w hvisited hw hon hvisit
            refine ih ?_ ?_ ?_ hvisited hvisit
            · rw [List.nodup_append]
              refine ⟨hnodup, List.nodup_singleton w, ?_⟩
              intro x hx y hy hxy
              rw [List.mem_singleton.mp hy] at hxy
              exact hon (hxy ▸ hx)
            · intro x hx
              rcases List.mem_append.mp hx with hx | hx
              · exact hstack x hx
              · rw [List.mem_singleton.mp hx]
                exact hw
            · simp only [List.length_append, List.length_singleton]
              omega) hscan
          refine ⟨⟨⟨hall, hcleared.finished⟩, ?_, ?_⟩, List.mem_cons_self ..⟩
          · exact fun x hx => List.mem_cons_of_mem _ (hcleared.grows x hx)
          · intro x hx
            rcases List.mem_cons.mp hx with rfl | hx
            · exact hv
            · exact hcleared.within x hx

/-- Where every node has a successor among the nodes, a cycle is found. -/
theorem findCycle_isCycle (hne : nodes ≠ [])
    (hnext : ∀ x ∈ nodes, next x ≠ [] ∧ ∀ y ∈ next x, y ∈ nodes) :
    IsCycle next nodes (findCycle next nodes) := by
  have hclosed : ∀ x ∈ nodes, ∀ y ∈ next x, y ∈ nodes := fun x hx => (hnext x hx).2
  rw [findCycle]
  cases hscan : scan (visit next nodes.length []) [] [] nodes with
  | cycle found =>
      refine scan_cycle List.isChain_nil (fun x hx => by cases hx) ?_
        (fun w hw => ⟨hw, fun last hlast => by cases hlast⟩) hscan
      intro visited w hw _ hvisit
      refine visit_cycle hclosed (List.isChain_singleton w) ?_ hvisit
      intro x hx
      rw [List.mem_singleton.mp hx]
      exact hw
  | clear visited =>
      have hstart : Cleared next nodes [] [] :=
        ⟨trivial, fun x hx => hx, fun x hx => by cases hx⟩
      obtain ⟨hcleared, hall⟩ := scan_clear hstart (fun w hw => hw) (by
        intro visited visited' w hvisited hw _ hvisit
        refine visit_clear hclosed (List.nodup_singleton w) ?_ (Nat.le_add_right _ _) hvisited hvisit
        intro x hx
        rw [List.mem_singleton.mp hx]
        exact hw) hscan
      obtain ⟨x, hx⟩ := List.exists_mem_of_ne_nil nodes hne
      obtain ⟨y, hy, hdead⟩ :=
        exists_deadEnd hcleared.finished (List.ne_nil_of_mem (hall x hx))
      exact absurd hdead (hnext y (hcleared.within y hy)).1

end CycleSearch
