import Linklint.Lib.Numeral

/-!
# Base-128 numbers

A byte string as a sequence of numbers, seven bits a byte, most significant
first. The high bit of a byte says that the number goes on, so a number is a run
of continuation bytes and one byte that ends it.
-/

namespace Base128

/-- The number goes on behind this byte. -/
def more (b : UInt8) : Bool := 128 ≤ b.toNat

def low (b : UInt8) : Nat := b.toNat % 128

def value (bytes : List UInt8) : Nat := Numeral.value 128 (bytes.map low)

/-- The numbers read so far, each with its own bytes, and the bytes of a number
that has not ended. -/
structure Cut where
  groups : List (List UInt8)
  pending : List UInt8

def Cut.push (c : Cut) (b : UInt8) : Cut :=
  if more b then ⟨c.groups, c.pending ++ [b]⟩ else ⟨c.groups ++ [c.pending ++ [b]], []⟩

def cut (bytes : List UInt8) : Cut := bytes.foldl Cut.push ⟨[], []⟩

/-- One number with all its bytes. -/
structure Group (bytes : List UInt8) : Prop where
  closed : ∃ init last, bytes = init ++ [last] ∧ (∀ b ∈ init, more b = true) ∧ more last = false

/-- Seven bits a byte, every byte but the last marked as going on. -/
def mark : List Nat → List UInt8
  | [] => []
  | [d] => [UInt8.ofNat d]
  | d :: e :: ds => UInt8.ofNat (d + 128) :: mark (e :: ds)

/-- The shortest byte string of a number. -/
def encode (n : Nat) : List UInt8 := mark (Numeral.digits 128 n)

theorem low_lt (b : UInt8) : low b < 128 := Nat.mod_lt _ (by decide)

theorem ofNat_low {b : UInt8} (h : more b = false) : UInt8.ofNat (low b) = b := by
  have hb : b.toNat < 128 := by simpa [more] using h
  rw [low, Nat.mod_eq_of_lt hb, UInt8.ofNat_toNat]

theorem ofNat_low_add {b : UInt8} (h : more b = true) : UInt8.ofNat (low b + 128) = b := by
  have hb : 128 ≤ b.toNat := by simpa [more] using h
  have htop := b.toNat_lt
  have hsum : low b + 128 = b.toNat := by
    unfold low
    omega
  rw [hsum, UInt8.ofNat_toNat]

/-- Among continuation bytes only the padding byte adds nothing. -/
theorem low_eq_zero {b : UInt8} (h : more b = true) : low b = 0 ↔ b = 0x80 := by
  have hb : 128 ≤ b.toNat := by simpa [more] using h
  have htop := b.toNat_lt
  rw [← UInt8.toNat_inj]
  unfold low
  change b.toNat % 128 = 0 ↔ b.toNat = 128
  omega

@[simp] theorem value_nil : value [] = 0 := rfl

theorem value_concat (bytes : List UInt8) (b : UInt8) :
    value (bytes ++ [b]) = value bytes * 128 + low b := by
  rw [value, List.map_append, Numeral.value_append]
  simp [value, Numeral.value]

theorem value_append_le (xs ys : List UInt8) : value xs ≤ value (xs ++ ys) := by
  rw [value, value, List.map_append, Numeral.value_append]
  exact (Nat.le_mul_of_pos_right _ (Nat.pow_pos (by decide))).trans (Nat.le_add_right _ _)

/-- A number is at least 128 times what its bytes say before the last. -/
theorem value_prefix_le {xs ys : List UInt8} (h : ys ≠ []) :
    value xs * 128 ≤ value (xs ++ ys) := by
  obtain ⟨init, last, rfl⟩ := (List.eq_nil_or_concat' ys).resolve_left h
  rw [← List.append_assoc, value_concat]
  have := value_append_le xs init
  omega

theorem cut_concat (bytes : List UInt8) (b : UInt8) :
    cut (bytes ++ [b]) = (cut bytes).push b := by
  simp [cut]

theorem groups_concat (bytes : List UInt8) (b : UInt8) :
    (cut (bytes ++ [b])).groups
      = if more b then (cut bytes).groups
        else (cut bytes).groups ++ [(cut bytes).pending ++ [b]] := by
  rw [cut_concat, Cut.push]
  split <;> rfl

theorem pending_concat (bytes : List UInt8) (b : UInt8) :
    (cut (bytes ++ [b])).pending = if more b then (cut bytes).pending ++ [b] else [] := by
  rw [cut_concat, Cut.push]
  split <;> rfl

/-- Nothing is lost in the cut. -/
theorem flatten_cut (bytes : List UInt8) :
    (cut bytes).groups.flatten ++ (cut bytes).pending = bytes := by
  induction bytes using List.reverseRecOn with
  | nil => rfl
  | append_singleton bytes b ih =>
      rw [groups_concat, pending_concat]
      split
      · rw [← List.append_assoc, ih]
      · rw [List.flatten_append, List.append_nil, List.flatten_singleton, ← List.append_assoc, ih]

theorem more_of_mem_pending {bytes : List UInt8} : ∀ b ∈ (cut bytes).pending, more b = true := by
  induction bytes using List.reverseRecOn with
  | nil => simp [cut]
  | append_singleton bytes b ih =>
      rw [pending_concat]
      split
      · intro x hx
        rcases List.mem_append.mp hx with hx | hx
        · exact ih x hx
        · rwa [List.mem_singleton.mp hx]
      · simp

theorem group_of_mem {bytes : List UInt8} : ∀ g ∈ (cut bytes).groups, Group g := by
  induction bytes using List.reverseRecOn with
  | nil => simp [cut]
  | append_singleton bytes b ih =>
      rw [groups_concat]
      split
      · exact ih
      · intro g hg
        rcases List.mem_append.mp hg with hg | hg
        · exact ih g hg
        · rw [List.mem_singleton.mp hg]
          exact ⟨_, b, rfl, more_of_mem_pending, by simpa using ‹¬more b = true›⟩

/-- A number is left open exactly when the last byte says so. -/
theorem pending_eq_nil {bytes : List UInt8} :
    (cut bytes).pending = [] ↔ ∀ b ∈ bytes.getLast?, more b = false := by
  induction bytes using List.reverseRecOn with
  | nil => simp [cut]
  | append_singleton bytes b _ =>
      rw [pending_concat]
      cases hb : more b <;> simp [hb]

/-- No number has ended exactly when every byte says that its number goes on. -/
theorem groups_eq_nil {bytes : List UInt8} :
    (cut bytes).groups = [] ↔ ∀ b ∈ bytes, more b = true := by
  induction bytes using List.reverseRecOn with
  | nil => simp [cut]
  | append_singleton bytes b ih =>
      rw [groups_concat]
      cases hb : more b
      · simp [hb]
      · rw [if_pos rfl, ih]
        simp only [List.mem_append, List.mem_singleton]
        constructor
        · rintro h x (hx | rfl)
          · exact h x hx
          · exact hb
        · exact fun h x hx => h x (Or.inl hx)

/-- What was open after a part of the bytes begins one of the numbers of the whole. -/
theorem pending_prefix {pre bytes : List UInt8} (h : pre <+: bytes) :
    (∃ g ∈ (cut bytes).groups, (cut pre).pending <+: g)
      ∨ (cut pre).pending <+: (cut bytes).pending := by
  induction bytes using List.reverseRecOn with
  | nil =>
      rw [List.prefix_nil.mp h]
      exact Or.inr (List.prefix_refl _)
  | append_singleton bytes b ih =>
      rcases List.prefix_concat_iff.mp h with rfl | hpre
      · exact Or.inr (List.prefix_refl _)
      rw [groups_concat, pending_concat]
      rcases ih hpre with ⟨g, hg, hbegins⟩ | hbegins
      · refine Or.inl ⟨g, ?_, hbegins⟩
        split
        · exact hg
        · exact List.mem_append_left _ hg
      · have hlonger := hbegins.trans (List.prefix_append (cut bytes).pending [b])
        cases hb : more b
        · exact Or.inl ⟨_, List.mem_append_right _ (List.mem_singleton_self _), hlonger⟩
        · exact Or.inr hlonger

/-- An open number is worth at most a 128th of the number it becomes. -/
theorem pending_value_le {pre bytes g : List UInt8} (hg : g ∈ (cut bytes).groups)
    (h : (cut pre).pending <+: g) : value (cut pre).pending * 128 ≤ value g := by
  obtain ⟨rest, rfl⟩ := h
  refine value_prefix_le ?_
  rintro rfl
  obtain ⟨init, last, heq, _, hlast⟩ := (group_of_mem _ hg).closed
  have hmem : last ∈ (cut pre).pending := by
    rw [List.append_nil] at heq
    rw [heq]
    simp
  rw [more_of_mem_pending last hmem] at hlast
  cases hlast

theorem mark_map_low {init : List UInt8} {last : UInt8} (hinit : ∀ b ∈ init, more b = true)
    (hlast : more last = false) : mark ((init ++ [last]).map low) = init ++ [last] := by
  induction init with
  | nil => simp [mark, ofNat_low hlast]
  | cons b init ih =>
      have htail := ih (fun x hx => hinit x (List.mem_cons_of_mem _ hx))
      obtain ⟨d, ds, hds⟩ : ∃ d ds, (init ++ [last]).map low = d :: ds := by
        cases init with
        | nil => exact ⟨_, _, rfl⟩
        | cons c init => exact ⟨_, _, rfl⟩
      rw [List.cons_append, List.map_cons, hds, mark, ← hds, htail,
        ofNat_low_add (hinit b List.mem_cons_self)]

/-- A number whose bytes do not begin with the padding byte is written back as it was. -/
theorem encode_value {g : List UInt8} (hg : Group g) (hpad : g.head? ≠ some 0x80) :
    encode (value g) = g := by
  obtain ⟨init, last, rfl, hinit, hlast⟩ := hg.closed
  rw [encode, value]
  have hdigits : Numeral.digits 128 (Numeral.value 128 ((init ++ [last]).map low))
      = (init ++ [last]).map low := by
    cases init with
    | nil => exact Numeral.digits_value (by decide) (low_lt last) (by simp) (Or.inr rfl)
    | cons b init =>
        have hb : low b ≠ 0 := by
          rw [Ne, low_eq_zero (hinit b List.mem_cons_self)]
          simpa using hpad
        refine Numeral.digits_value (by decide) (low_lt b) ?_ (Or.inl hb)
        intro e he
        obtain ⟨x, _, rfl⟩ := List.mem_map.mp he
        exact low_lt x
  rw [hdigits, mark_map_low hinit hlast]

end Base128
