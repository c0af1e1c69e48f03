import Linklint.Compare.CompareUrls
import Linklint.Lib.SuffixRules
import Linklint.Parse.LetterCase

/-!
# The suffix list

The lookup of a registrable domain by the longest rule. The private view has the
rules of the other one and further rules, so the domains of the two views are nested.
-/

namespace Linklint

/-- The name that is looked up for a host: in lower case and without root dots. -/
def pslName (host : Text) : Text := (host.rdropWhile (· == unit '.')).map asciiLower

/-- The registrable domain of a name under suffix rules. -/
def registrableDomain (rules : List (SuffixRules.Rule Text)) (name : Text) : Option Text :=
  (SuffixRules.registrable rules (name.split (unit '.'))).map (Text.join [unit '.'])

/-- The labels of a name. -/
abbrev labelsOf (name : Text) : List Text := name.split (unit '.')

/-- What the platform's lookup and ToASCII do: a longest-rule lookup that has no domain for an IP
literal. A dotted literal is a quad, and no listed suffix ends in a numeral. -/
structure SuffixList (P : Platform)
    (tr46ToAscii : (transitional : Bool) → Text → Except Thrown (Option Text))
    (literal : Text → Bool) (icann further : List (SuffixRules.Rule Text)) : Prop where
  lookup : ∀ allowPrivate host, (∀ u ∈ host, u.toNat < 128) →
    ∃ r, P.tldtsParse allowPrivate host = .ok r ∧ r.domain =
      if literal (pslName host) then none
      else registrableDomain (if allowPrivate then icann ++ further else icann) (pslName host)
  written : ∀ host, ∃ r, P.tldtsParse false host = .ok r ∧
    (r.isIp = some true → literal (pslName host) = true)
  ace : ∀ host s, tr46ToAscii false host = .ok (some s) → ∀ u ∈ s, u.toNat < 128
  named : ∀ rule ∈ icann ++ further, ∃ label, rule.getLast? = some (some label) ∧
    label.all isDigit = false
  ipv4 : ∀ n < 2 ^ 32, literal (toDotted n) = true
  ipv6 : ∀ gs : List Nat, gs.length = 8 → (∀ g ∈ gs, g < 2 ^ 16) →
    literal (canonicalizeIpv6 gs) = true
  asciiLiteral : ∀ s, literal s = true → ∀ u ∈ s, u.toNat < 128
  dottedLiteral : ∀ s, literal s = true → unit '.' ∈ s →
    4 ≤ (labelsOf s).length ∧ ∃ label, (labelsOf s).getLast? = some label ∧ label.all isDigit = true

/-- The site of a canonical host under suffix rules: its registrable domain, or itself. -/
def siteUnder (literal : Text → Bool) (rules : List (SuffixRules.Rule Text)) (host : Text) : Text :=
  (if literal (pslName host) then none else registrableDomain rules (pslName host)).getD host

/-! ### The name of a host -/

theorem pslName_root (s : Text) : pslName (stripTrailingRootDot s) = pslName s := by
  rcases eq_stripTrailingRootDot s with h | h
  · rw [← h]
  · rw [pslName, pslName]
    nth_rewrite 2 [h]
    rw [List.rdropWhile_concat_pos _ _ _ (by simp)]

theorem pslName_lower (s : Text) : pslName (s.map asciiLower) = pslName s := by
  have hdots : (· == unit '.') ∘ asciiLower = fun u => u == unit '.' := by
    funext u
    rw [Function.comp_apply, Bool.eq_iff_iff, beq_iff_eq, beq_iff_eq]
    exact asciiLower_eq_iff (by decide)
  have hidem : asciiLower ∘ asciiLower = asciiLower := funext asciiLower_idem
  rw [pslName, pslName, List.rdropWhile, ← List.map_reverse, List.dropWhile_map, hdots,
    ← List.map_reverse, List.map_map, hidem]
  rfl

theorem pslName_of_last {s : Text} (hlast : s.getLast? ≠ some (unit '.')) :
    pslName s = s.map asciiLower := by
  have hkept : s.rdropWhile (· == unit '.') = s := by
    apply List.rdropWhile_eq_self_iff.mpr
    intro hne hdot
    rw [beq_iff_eq] at hdot
    exact hlast (hdot ▸ List.getLast?_eq_some_getLast hne)
  rw [pslName, hkept]

/-- A name in lower case without a root dot is looked up as it is. -/
theorem pslName_of_plain {s : Text} (hlast : s.getLast? ≠ some (unit '.'))
    (hlower : s.map asciiLower = s) : pslName s = s := by
  rw [pslName_of_last hlast, hlower]

theorem pslName_last (s : Text) : (pslName s).getLast? ≠ some (unit '.') := by
  intro h
  rw [pslName, List.getLast?_map, Option.map_eq_some_iff] at h
  obtain ⟨u, hlast, hdot⟩ := h
  rw [asciiLower_eq_iff (by decide)] at hdot
  subst hdot
  have hne : s.rdropWhile (· == unit '.') ≠ [] := by
    intro hnil
    rw [hnil] at hlast
    cases hlast
  apply List.rdropWhile_last_not _ _ hne
  rw [List.getLast?_eq_some_getLast hne, Option.some.injEq] at hlast
  rw [hlast, beq_self_eq_true]

theorem pslName_ascii {s : Text} (h : ∀ u ∈ pslName s, u.toNat < 128) : ∀ u ∈ s, u.toNat < 128 := by
  intro u hu
  have hsplit := @List.rdropWhile_append_rtakeWhile _ (· == unit '.') s
  rw [← hsplit] at hu
  rcases List.mem_append.mp hu with hname | hdots
  · have hlower := h _ (List.mem_map_of_mem hname)
    rw [asciiLower_toNat] at hlower
    split at hlower
    · omega
    · exact hlower
  · have hdot := List.mem_rtakeWhile_imp hdots
    rw [beq_iff_eq] at hdot
    rw [hdot]
    decide

/-- What ends a looked-up name is looked up as it is. -/
theorem pslName_of_suffix {s part : Text} (h : part <:+ pslName s) : pslName part = part := by
  have hlower : part.map asciiLower = part := by
    refine (List.map_congr_left fun u hu => ?_).trans (List.map_id _)
    obtain ⟨v, -, rfl⟩ := List.mem_map.mp (h.subset hu)
    exact asciiLower_idem v
  by_cases hnil : part = []
  · rw [hnil]
    rfl
  · apply pslName_of_plain _ hlower
    have hlast := pslName_last s
    obtain ⟨front, hfront⟩ := h
    rwa [← hfront, List.getLast?_append_of_ne_nil _ hnil] at hlast

/-! ### Nested domains -/

section
variable {rules more : List (SuffixRules.Rule Text)} {name domain host : Text}

theorem registrableDomain_labels (h : registrableDomain rules name = some domain) :
    domain <:+ name ∧ SuffixRules.registrable rules (labelsOf name) = some (labelsOf domain) := by
  obtain ⟨part, hpart, rfl⟩ := Option.map_eq_some_iff.mp h
  obtain ⟨⟨front, hfront⟩, hlength⟩ := SuffixRules.registrable_eq_some hpart
  have hne : part ≠ [] := List.ne_nil_of_length_pos (by omega)
  have hdotless : ∀ label ∈ part, unit '.' ∉ label := by
    intro label hlabel
    apply not_mem_of_mem_split (s := name)
    rw [← hfront]
    exact List.mem_append_right _ hlabel
  have hlabels : labelsOf (Text.join [unit '.'] part) = part :=
    List.splitOn_intercalate _ hdotless hne
  constructor
  · have hdrop := join_dot_drop_suffix front.length (name.split (unit '.'))
    rwa [join_split, ← hfront, List.drop_left] at hdrop
  · rw [hlabels, hpart]

/-- The domain under fewer rules is that of the domain under more. -/
theorem registrableDomain_nested (hsub : rules ⊆ more) (h : registrableDomain more name = some domain) :
    ∃ core, registrableDomain rules name = some core ∧ registrableDomain rules domain = some core := by
  obtain ⟨core, hname, hdomain⟩ :=
    SuffixRules.registrable_nested hsub (registrableDomain_labels h).2
  exact ⟨_, congrArg (Option.map _) hname, congrArg (Option.map _) hdomain⟩

end

section
variable {P : Platform} {tr46ToAscii : Bool → Text → Except Thrown (Option Text)}
  {literal : Text → Bool} {icann further rules : List (SuffixRules.Rule Text)}
  (list : SuffixList P tr46ToAscii literal icann further)
include list

/-- A dotted literal has four labels and none of the rules, so no domain is one. -/
theorem SuffixList.domain_not_literal {name domain : Text} (hrules : rules ⊆ icann ++ further)
    (h : registrableDomain rules name = some domain) : literal domain = false := by
  obtain ⟨-, hregistrable⟩ := registrableDomain_labels h
  obtain ⟨hsuffix, hlength⟩ := SuffixRules.registrable_eq_some hregistrable
  have hone := @SuffixRules.one_le_suffixLength _ _ rules (labelsOf name)
  cases hliteral : literal domain with
  | false => rfl
  | true =>
      have hdot : unit '.' ∈ domain := by
        by_contra hdotless
        rw [labelsOf, Text.split, List.splitOn_eq_singleton hdotless] at hlength
        simp at hlength
        omega
      obtain ⟨hfour, label, hlast, hdigits⟩ := list.dottedLiteral _ hliteral hdot
      have hshort : SuffixRules.suffixLength rules (labelsOf name) = 1 := by
        apply SuffixRules.suffixLength_of_last
        intro rule hrule
        obtain ⟨named, hnamed, hnumeral⟩ := list.named rule (hrules hrule)
        refine ⟨named, hnamed, fun hname => ?_⟩
        obtain ⟨front, hfront⟩ := hsuffix
        rw [← hfront, List.getLast?_append, hlast, Option.some_or, Option.some.injEq] at hname
        rw [hname, hnumeral] at hdigits
        cases hdigits
      omega

/-- The site under the ICANN rules is that of the site under all rules. -/
theorem SuffixList.site_nested (host : Text) :
    siteUnder literal icann (siteUnder literal (icann ++ further) host) =
      siteUnder literal icann host := by
  cases hliteral : literal (pslName host) with
  | true => simp [siteUnder, hliteral]
  | false =>
      cases hdomain : registrableDomain (icann ++ further) (pslName host) with
      | none => simp [siteUnder, hliteral, hdomain]
      | some domain =>
          have hname : pslName domain = domain :=
            pslName_of_suffix (registrableDomain_labels hdomain).1
          have hunlike := list.domain_not_literal (List.Subset.refl _) hdomain
          obtain ⟨core, hhost, hcore⟩ :=
            registrableDomain_nested (List.subset_append_left icann further) hdomain
          simp [siteUnder, hliteral, hdomain, hname, hunlike, hhost, hcore]

end

end Linklint
