import Linklint.Lib.Base128
import Linklint.Transport.TlsDer
import Mathlib.Data.List.Infix

/-!
# Object identifiers in DER

A body is a sequence of base-128 numbers. The decoder reads every well-formed body
whose numbers are exact and writes a text that encodes back to it, but it also
reads bodies that are not well-formed: an arc that never ends is dropped, and a
padded arc loses its padding.
-/

namespace Linklint

/-- The bytes of a range. -/
def oidBody (bytes : Bytes) (start stop : Nat) : Bytes := (bytes.drop start).take (stop - start)

/-- The body of a DER OBJECT IDENTIFIER. An arc of the body is one base-128 number. -/
structure WellFormedOid (body : Bytes) : Prop where
  nonempty : body ≠ []
  ended : ∀ last ∈ body.getLast?, Base128.more last = false
  unpadded : ∀ arc ∈ (Base128.cut body).groups, arc.head? ≠ some 0x80

def ExactArcs (body : Bytes) : Prop :=
  ∀ arc ∈ (Base128.cut body).groups, Base128.value arc < 2 ^ 53

/-- The body that a dotted text stands for. -/
def encodeOid (dotted : Text) : Bytes :=
  match (dotted.split (unit '.')).map (numeralValue 10) with
  | first :: second :: rest => ((first * 40 + second) :: rest).flatMap Base128.encode
  | _ => []

/-- The arcs that the first number of a body and those after it are written as. -/
def dottedArcs : List Nat → List Nat
  | [] => []
  | first :: rest => min 2 (first / 40) :: (first - min 2 (first / 40) * 40) :: rest

def OidScan.ofCut (c : Base128.Cut) : OidScan :=
  { arcs := dottedArcs (c.groups.map Base128.value)
    value := Base128.value c.pending
    started := !c.groups.isEmpty }

/-- No number was too large for another byte while it was open. -/
def OpenArcsFit (body : Bytes) : Prop :=
  ∀ pre, pre <+: body → Base128.value (Base128.cut pre).pending < 2 ^ 46

/-! ## The scan as the cut of the bytes it read -/

theorem byte_bits (b : UInt8) :
    (b &&& 0x80 = 0 ↔ Base128.more b = false) ∧ (b &&& 0x7f).toNat = Base128.low b := by
  have table : ∀ n < 256, (UInt8.ofNat n &&& 0x80 = 0 ↔ Base128.more (UInt8.ofNat n) = false)
      ∧ (UInt8.ofNat n &&& 0x7f).toNat = Base128.low (UInt8.ofNat n) := by
    decide +kernel
  have hb := table b.toNat b.toNat_lt
  rwa [UInt8.ofNat_toNat] at hb

theorem push_ofCut (c : Base128.Cut) (b : UInt8) :
    (OidScan.ofCut c).push b = OidScan.ofCut (c.push b) := by
  obtain ⟨hbit, hlow⟩ := byte_bits b
  have hvalue : (OidScan.ofCut c).accumulate b = Base128.value (c.pending ++ [b]) := by
    rw [OidScan.accumulate, hlow, Base128.value_concat]
    rfl
  unfold OidScan.push
  rw [hvalue]
  cases hmore : Base128.more b with
  | true =>
      rw [if_neg (by rw [hbit, hmore]; decide)]
      simp [OidScan.ofCut, Base128.Cut.push, hmore]
  | false =>
      rw [if_pos (hbit.mpr hmore)]
      obtain ⟨groups, pending⟩ := c
      cases groups with
      | nil => simp [OidScan.ofCut, Base128.Cut.push, hmore, dottedArcs]
      | cons g groups => simp [OidScan.ofCut, Base128.Cut.push, hmore, dottedArcs]

theorem step_ofCut (c : Base128.Cut) (b : UInt8) (scan : OidScan) :
    (OidScan.ofCut c).step b = .ok scan ↔
      scan = OidScan.ofCut (c.push b) ∧ Base128.value (c.push b).pending < 2 ^ 46 := by
  rw [OidScan.step, push_ofCut]
  have hguard : MAX_SAFE_INTEGER < (OidScan.ofCut (c.push b)).value * 128
      ↔ ¬ Base128.value (c.push b).pending < 2 ^ 46 := by
    change 2 ^ 53 - 1 < Base128.value (c.push b).pending * 128 ↔ _
    omega
  split
  · rename_i hlarge
    have hopen := hguard.mp hlarge
    simp only [derError, reduceCtorEq, false_iff, not_and]
    exact fun _ => hopen
  · rename_i hsmall
    rw [hguard, not_not] at hsmall
    rw [Except.ok.injEq, and_iff_left hsmall, eq_comm]

/-- The loop over the bytes themselves. -/
def scanBody (body : Bytes) : Except DerFault OidScan :=
  body.foldlM OidScan.step { arcs := [], value := 0, started := false }

theorem scanBody_concat (body : Bytes) (b : UInt8) :
    scanBody (body ++ [b]) = scanBody body >>= fun scan => scan.step b := by
  simp [scanBody, List.foldlM_append]

theorem openArcsFit_concat {body : Bytes} {b : UInt8} :
    OpenArcsFit (body ++ [b]) ↔
      OpenArcsFit body ∧ Base128.value (Base128.cut (body ++ [b])).pending < 2 ^ 46 := by
  unfold OpenArcsFit
  simp only [List.prefix_concat_iff]
  constructor
  · exact fun h => ⟨fun pre hpre => h pre (Or.inr hpre), h _ (Or.inl rfl)⟩
  · rintro ⟨hbody, hlast⟩ pre (rfl | hpre)
    · exact hlast
    · exact hbody pre hpre

theorem scanBody_eq_ok {body : Bytes} {scan : OidScan} :
    scanBody body = .ok scan ↔ scan = OidScan.ofCut (Base128.cut body) ∧ OpenArcsFit body := by
  induction body using List.reverseRecOn generalizing scan with
  | nil =>
      have hnil : OpenArcsFit [] := by
        intro pre hpre
        rw [List.prefix_nil.mp hpre]
        decide
      simp only [hnil, and_true]
      change Except.ok _ = Except.ok scan ↔ _
      rw [Except.ok.injEq, eq_comm]
      rfl
  | append_singleton body b ih =>
      rw [scanBody_concat, openArcsFit_concat, Base128.cut_concat]
      cases hbody : scanBody body with
      | error fault =>
          have hnot : ¬ OpenArcsFit body := fun hfit => by
            have := ih.mpr ⟨rfl, hfit⟩
            rw [hbody] at this
            cases this
          simp [hnot, bind, Except.bind]
      | ok before =>
          obtain ⟨rfl, hfit⟩ := ih.mp hbody
          change (OidScan.ofCut (Base128.cut body)).step b = .ok scan ↔ _
          rw [step_ofCut]
          simp [hfit]

theorem scan_range_eq (bytes : Bytes) {n start : Nat} (h : start + n ≤ bytes.length)
    (scan : OidScan) :
    (List.range' start n).foldlM (fun scan i => do scan.step (← byteAt bytes i)) scan
      = ((bytes.drop start).take n).foldlM OidScan.step scan := by
  induction n generalizing start scan with
  | zero => rfl
  | succ n ih =>
      have hlt : start < bytes.length := by omega
      rw [List.range'_succ, List.drop_eq_getElem_cons hlt, List.take_succ_cons, List.foldlM_cons,
        List.foldlM_cons, byteAt, List.getElem?_eq_getElem hlt]
      change scan.step bytes[start] >>= _ = _
      congr 1
      funext next
      exact ih (by omega) next

theorem scanOid_eq (bytes : Bytes) {start stop : Nat} (hstart : start ≤ stop)
    (h : stop ≤ bytes.length) : scanOid bytes start stop = scanBody (oidBody bytes start stop) :=
  scan_range_eq bytes (by omega) _

theorem decodeOid_eq_ok {bytes : Bytes} {start stop : Nat} (h : stop ≤ bytes.length)
    {dotted : Text} :
    decodeOid bytes start stop = .ok dotted ↔
      OpenArcsFit (oidBody bytes start stop)
        ∧ (Base128.cut (oidBody bytes start stop)).groups ≠ []
        ∧ dotted = oidText
            (dottedArcs ((Base128.cut (oidBody bytes start stop)).groups.map Base128.value)) := by
  unfold decodeOid
  split
  · rename_i hempty
    have hbody : oidBody bytes start stop = [] := by simp [oidBody, Nat.sub_eq_zero_of_le hempty]
    simp [hbody, derError, Base128.cut]
  rename_i hrange
  rw [scanOid_eq bytes (by omega) h]
  cases hscan : scanBody (oidBody bytes start stop) with
  | error fault =>
      have hnot : ¬ OpenArcsFit (oidBody bytes start stop) := fun hfit => by
        have := scanBody_eq_ok.mpr ⟨rfl, hfit⟩
        rw [hscan] at this
        cases this
      simp [hnot, bind, Except.bind]
  | ok scan =>
      obtain ⟨rfl, hfit⟩ := scanBody_eq_ok.mp hscan
      simp only [hfit, true_and]
      change (if (OidScan.ofCut _).started = true then Except.ok _ else derError _) = _ ↔ _
      cases hgroups : (Base128.cut (oidBody bytes start stop)).groups with
      | nil => simp [OidScan.ofCut, hgroups, derError]
      | cons g groups => simp [OidScan.ofCut, hgroups, eq_comm]

/-! ## The text that is written for a body -/

theorem split_oidText {arcs : List Nat} (h : arcs ≠ []) :
    ((oidText arcs).split (unit '.')).map (numeralValue 10) = arcs := by
  have hsplit : (oidText arcs).split (unit '.') = arcs.map decimalText := by
    refine List.splitOn_intercalate _ ?_ (by simpa using h)
    intro piece hpiece hdot
    obtain ⟨arc, _, rfl⟩ := List.mem_map.mp hpiece
    exact absurd (decimalText_isDigit arc _ hdot) (by decide)
  rw [hsplit, List.map_map]
  refine (List.map_congr_left fun arc _ => ?_).trans (List.map_id _)
  exact numeralValue_numeralText (by decide) (by decide) arc

/-- The first two arcs are put together again. -/
theorem encodeOid_oidText {numbers : List Nat} (h : numbers ≠ []) :
    encodeOid (oidText (dottedArcs numbers)) = numbers.flatMap Base128.encode := by
  cases numbers with
  | nil => exact absurd rfl h
  | cons first rest =>
      have hfirst : min 2 (first / 40) * 40 + (first - min 2 (first / 40) * 40) = first := by
        have hle : min 2 (first / 40) * 40 ≤ first :=
          (Nat.mul_le_mul_right 40 (min_le_right _ _)).trans (Nat.div_mul_le_self first 40)
        omega
      rw [encodeOid, split_oidText (by simp [dottedArcs])]
      dsimp only [dottedArcs]
      rw [hfirst]

theorem encode_groups {body : Bytes} (h : WellFormedOid body) :
    ((Base128.cut body).groups.map Base128.value).flatMap Base128.encode = body := by
  have hpending : (Base128.cut body).pending = [] := Base128.pending_eq_nil.mpr h.ended
  calc ((Base128.cut body).groups.map Base128.value).flatMap Base128.encode
      = ((Base128.cut body).groups.map fun arc => Base128.encode (Base128.value arc)).flatten := by
        rw [List.flatMap, List.map_map]
        rfl
    _ = (Base128.cut body).groups.flatten := by
        congr 1
        refine (List.map_congr_left fun arc harc => ?_).trans (List.map_id _)
        exact Base128.encode_value (Base128.group_of_mem arc harc) (h.unpadded arc harc)
    _ = body := by
        have hflat := Base128.flatten_cut body
        rwa [hpending, List.append_nil] at hflat

/-! ## Which bodies are read -/

/-- In a body that ends with its last arc, an arc is exact when it was small enough
before its last byte. -/
theorem openArcsFit_of_exact {body : Bytes} (hended : (Base128.cut body).pending = [])
    (hexact : ExactArcs body) : OpenArcsFit body := by
  intro pre hpre
  rcases Base128.pending_prefix hpre with ⟨arc, harc, hbegins⟩ | hbegins
  · have hle := Base128.pending_value_le harc hbegins
    have hlt := hexact arc harc
    omega
  · rw [hended, List.prefix_nil] at hbegins
    rw [hbegins]
    decide

theorem exactArcs_of_fit {body : Bytes} (hfit : OpenArcsFit body) : ExactArcs body := by
  induction body using List.reverseRecOn with
  | nil => simp [ExactArcs, Base128.cut]
  | append_singleton body b ih =>
      obtain ⟨hbefore, _⟩ := openArcsFit_concat.mp hfit
      have hold := ih hbefore
      unfold ExactArcs
      rw [Base128.groups_concat]
      split
      · exact hold
      · intro arc harc
        rcases List.mem_append.mp harc with harc | harc
        · exact hold arc harc
        · rw [List.mem_singleton.mp harc, Base128.value_concat]
          have hopen := hbefore body (List.prefix_refl _)
          have hlow := Base128.low_lt b
          omega

theorem groups_ne_nil {body : Bytes} (h : WellFormedOid body) :
    (Base128.cut body).groups ≠ [] := by
  intro hnone
  have hflat := Base128.flatten_cut body
  rw [hnone, Base128.pending_eq_nil.mpr h.ended] at hflat
  exact h.nonempty hflat.symm

/-- A well-formed body is read exactly when its arcs are exact. -/
theorem decodeOid_wellFormed {bytes : Bytes} {start stop : Nat} (h : stop ≤ bytes.length)
    (hwf : WellFormedOid (oidBody bytes start stop)) :
    (∃ dotted, decodeOid bytes start stop = .ok dotted) ↔ ExactArcs (oidBody bytes start stop) := by
  constructor
  · rintro ⟨dotted, hok⟩
    exact exactArcs_of_fit ((decodeOid_eq_ok h).mp hok).1
  · intro hexact
    have hfit := openArcsFit_of_exact (Base128.pending_eq_nil.mpr hwf.ended) hexact
    exact ⟨_, (decodeOid_eq_ok h).mpr ⟨hfit, groups_ne_nil hwf, rfl⟩⟩

/-- Whatever was read so far, the next number formed is exact. -/
theorem accumulate_exact {bytes : Bytes} {start mid : Nat} (hstart : start ≤ mid)
    (h : mid ≤ bytes.length) {scan : OidScan} (hscan : scanOid bytes start mid = .ok scan)
    (b : UInt8) : scan.accumulate b ≤ MAX_SAFE_INTEGER := by
  rw [scanOid_eq bytes hstart h] at hscan
  obtain ⟨rfl, hfit⟩ := scanBody_eq_ok.mp hscan
  have hopen := hfit _ (List.prefix_refl _)
  have hlow := Base128.low_lt b
  rw [OidScan.accumulate, (byte_bits b).2]
  change Base128.value (Base128.cut (oidBody bytes start mid)).pending * 128 + _ ≤ 2 ^ 53 - 1
  omega

/-! ## The exact condition -/

/-- The decoder on a range: it returns for the well-formed bodies with exact arcs and for
no others, its result encodes back to the range, and its arithmetic is exact. -/
structure StrictOid (bytes : Bytes) (start stop : Nat) : Prop where
  returns : (∃ dotted, decodeOid bytes start stop = .ok dotted) ↔
    WellFormedOid (oidBody bytes start stop) ∧ ExactArcs (oidBody bytes start stop)
  encodes : ∀ dotted, decodeOid bytes start stop = .ok dotted →
    encodeOid dotted = oidBody bytes start stop
  exact : ∀ mid scan b, start ≤ mid → mid < stop → scanOid bytes start mid = .ok scan →
    bytes[mid]? = some b → scan.accumulate b ≤ MAX_SAFE_INTEGER

/-- The decoder is strict on the well-formed bodies and on those it refuses for another
reason: no arc ends, or an open arc is too large for another byte. -/
theorem strictOid_iff {bytes : Bytes} {start stop : Nat} (h : stop ≤ bytes.length) :
    StrictOid bytes start stop ↔
      WellFormedOid (oidBody bytes start stop)
        ∨ (∀ b ∈ oidBody bytes start stop, Base128.more b = true)
        ∨ ∃ pre, pre <+: oidBody bytes start stop ∧
            2 ^ 46 ≤ Base128.value (Base128.cut pre).pending := by
  constructor
  · intro hstrict
    by_cases hread : ∃ dotted, decodeOid bytes start stop = .ok dotted
    · exact Or.inl (hstrict.returns.mp hread).1
    · right
      by_contra hno
      rw [not_or, ← Base128.groups_eq_nil] at hno
      obtain ⟨hgroups, hlarge⟩ := hno
      push Not at hlarge
      exact hread ⟨_, (decodeOid_eq_ok h).mpr ⟨hlarge, hgroups, rfl⟩⟩
  · intro hcond
    refine ⟨?_, ?_, ?_⟩
    · by_cases hwf : WellFormedOid (oidBody bytes start stop)
      · rw [decodeOid_wellFormed h hwf, and_iff_right hwf]
      · have hrefused : ¬ ∃ dotted, decodeOid bytes start stop = .ok dotted := by
          rintro ⟨dotted, hok⟩
          obtain ⟨hfit, hgroups, _⟩ := (decodeOid_eq_ok h).mp hok
          rcases hcond with hcond | hcond | ⟨pre, hpre, hlarge⟩
          · exact hwf hcond
          · exact hgroups (Base128.groups_eq_nil.mpr hcond)
          · exact absurd (hfit pre hpre) (not_lt.mpr hlarge)
        simp [hrefused, hwf]
    · intro dotted hok
      obtain ⟨hfit, hgroups, rfl⟩ := (decodeOid_eq_ok h).mp hok
      rcases hcond with hwf | hopen | ⟨pre, hpre, hlarge⟩
      · rw [encodeOid_oidText (by simpa using hgroups), encode_groups hwf]
      · exact absurd (Base128.groups_eq_nil.mpr hopen) hgroups
      · exact absurd (hfit pre hpre) (not_lt.mpr hlarge)
    · intro mid scan b hstart hmid hscan _
      exact accumulate_exact hstart (by omega) hscan b

theorem strictOid_certificatePolicies :
    (3 ≤ ([0x55, 0x1d, 0x20] : Bytes).length) ∧ StrictOid [0x55, 0x1d, 0x20] 0 3 := by
  refine ⟨by decide, (strictOid_iff (by decide)).mpr (Or.inl ⟨?_, ?_, ?_⟩)⟩
  · exact List.cons_ne_nil _ _
  · decide +kernel
  · decide +kernel

/-- A padded arc and an arc that never ends both pass for the identifier of the
certificate policies. -/
theorem not_strictOid :
    ¬ StrictOid [0x55, 0x80, 0x1d, 0x20] 0 4 ∧ ¬ StrictOid [0x55, 0x1d, 0x20, 0x81] 0 4 := by
  constructor
  · intro h
    have hencodes := h.encodes OID_CERTIFICATE_POLICIES (by rfl)
    revert hencodes
    decide +kernel
  · intro h
    have hencodes := h.encodes OID_CERTIFICATE_POLICIES (by rfl)
    revert hencodes
    decide +kernel

end Linklint
