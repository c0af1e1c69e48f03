import Linklint.Js.CodePoints
import Linklint.Lib.StableSort
import Linklint.Lib.Substitution

/-!
# Canonical decomposition

`normalize("NFD")` over the tables of the Unicode Character Database: every code
point is replaced by its full canonical decomposition, and the marks between two
starters are put in the order of their combining classes.
-/

namespace Linklint

structure UnicodeData where
  /-- the full canonical decomposition, the code point itself where it has none -/
  decomposition : Nat → List Nat
  combiningClass : Nat → Nat
  /-- `normalize("NFKC")` -/
  nfkc : Text → Text
  /-- `normalize("NFC")` -/
  nfc : Text → Text
  decomposition_closed : Substitution.Closed decomposition
  decomposition_rewrites : Rewrites decomposition
  surrogate_starter : ∀ cp, IsSurrogate cp → combiningClass cp = 0
  decomposition_ascii : ∀ cp < 128, decomposition cp = [cp]
  ascii_starter : ∀ cp < 128, combiningClass cp = 0

namespace UnicodeData

variable (U : UnicodeData)

/-- A code point stays before the next one, unless both are marks in the wrong order. -/
def Ordered (cp next : Nat) : Prop :=
  U.combiningClass next = 0 ∨ U.combiningClass cp ≤ U.combiningClass next

instance : DecidableRel U.Ordered := fun cp next => by
  unfold Ordered
  infer_instance

instance : Std.Total U.Ordered where
  total cp next := by
    unfold Ordered
    omega

/-- The canonical ordering algorithm. -/
def canonicalOrder (cps : List Nat) : List Nat := cps.insertionSort U.Ordered

def decomposed (cps : List Nat) : List Nat := U.canonicalOrder (cps.flatMap U.decomposition)

/-- `s.normalize("NFD")` -/
def nfd (s : Text) : Text := (U.decomposed (codePoints s)).flatMap encodeCodePoint

/-- A database that decomposes nothing. -/
def plain : UnicodeData where
  decomposition cp := [cp]
  combiningClass _ := 0
  nfkc := id
  nfc := id
  decomposition_closed := by
    intro cp d hd
    rw [List.mem_singleton.mp hd]
  decomposition_rewrites := fun _ => Or.inl rfl
  surrogate_starter := fun _ _ => rfl
  decomposition_ascii := fun _ _ => rfl
  ascii_starter := fun _ _ => rfl

/-! ### Decomposing lists of code points -/

variable {U} {cps : List Nat}

theorem canonicalOrder_perm (cps : List Nat) : (U.canonicalOrder cps).Perm cps :=
  List.perm_insertionSort U.Ordered cps

theorem canonicalOrder_idempotent (cps : List Nat) :
    U.canonicalOrder (U.canonicalOrder cps) = U.canonicalOrder cps :=
  StableSort.insertionSort_idempotent cps

theorem decomposed_perm (cps : List Nat) :
    (U.decomposed cps).Perm (cps.flatMap U.decomposition) := canonicalOrder_perm _

theorem mem_decomposed {cp : Nat} :
    cp ∈ U.decomposed cps ↔ cp ∈ cps.flatMap U.decomposition := (decomposed_perm cps).mem_iff

/-- What a decomposition is made of has no decomposition of its own. -/
theorem decomposition_of_mem_decomposed {cp : Nat} (h : cp ∈ U.decomposed cps) :
    U.decomposition cp = [cp] := U.decomposition_closed.fixed (mem_decomposed.mp h)

theorem decomposed_fixed (h : ∀ cp ∈ cps, U.decomposition cp = [cp]) :
    U.decomposed cps = U.canonicalOrder cps := by
  rw [decomposed, Substitution.flatMap_fixed h]

theorem decomposed_idempotent (cps : List Nat) :
    U.decomposed (U.decomposed cps) = U.decomposed cps := by
  rw [decomposed_fixed fun cp hcp => decomposition_of_mem_decomposed hcp]
  exact canonicalOrder_idempotent _

theorem canonicalOrder_starters (h : ∀ cp ∈ cps, U.combiningClass cp = 0) :
    U.canonicalOrder cps = cps := by
  apply List.Pairwise.insertionSort_eq
  apply List.pairwise_of_forall_mem_list
  intro cp _ next hnext
  exact Or.inl (h next hnext)

theorem decomposed_ascii (h : ∀ cp ∈ cps, cp < 128) : U.decomposed cps = cps := by
  rw [decomposed_fixed fun cp hcp => U.decomposition_ascii cp (h cp hcp)]
  exact canonicalOrder_starters fun cp hcp => U.ascii_starter cp (h cp hcp)

/-- A code point that moves is a mark, so no surrogate. -/
theorem not_surrogate_of_moved {cp next : Nat} (h : ¬ U.Ordered cp next) :
    ¬ IsSurrogate cp ∧ ¬ IsSurrogate next := by
  unfold Ordered at h
  constructor
  · intro hcp
    have := U.surrogate_starter cp hcp
    omega
  · intro hnext
    have := U.surrogate_starter next hnext
    omega

theorem scanned_canonicalOrder (h : Scanned cps) : Scanned (U.canonicalOrder cps) := by
  refine ⟨fun cp hcp => h.bounded cp ((canonicalOrder_perm cps).mem_iff.mp hcp), ?_⟩
  apply StableSort.isChain_insertionSort_of_free _ h.apart
  intro cp next hmoved other
  obtain ⟨hcp, hnext⟩ := not_surrogate_of_moved hmoved
  exact ⟨apart_of_scalar_left hcp, apart_of_scalar_right hnext, apart_of_scalar_left hnext⟩

theorem scanned_decomposed (h : Scanned cps) : Scanned (U.decomposed cps) :=
  scanned_canonicalOrder (h.flatMap U.decomposition_rewrites)

/-! ### Decomposing strings -/

theorem codePoints_nfd (s : Text) : codePoints (U.nfd s) = U.decomposed (codePoints s) :=
  codePoints_encode (scanned_decomposed (scanned_codePoints s))

theorem nfd_encode (h : Scanned cps) :
    U.nfd (cps.flatMap encodeCodePoint) = (U.decomposed cps).flatMap encodeCodePoint := by
  rw [nfd, codePoints_encode h]

theorem nfd_idempotent (s : Text) : U.nfd (U.nfd s) = U.nfd s := by
  rw [nfd, codePoints_nfd, decomposed_idempotent]
  rfl

end UnicodeData

end Linklint
