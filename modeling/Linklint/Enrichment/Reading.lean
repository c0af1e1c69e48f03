import Linklint.Enrichment.Report
import Linklint.Js.Host
import Mathlib.Data.List.Forall2

/-!
# What accepted values read as

The guards and the typed reading agree: of an accepted value every element is
read, and `none` stands exactly where the value had a hole.
-/

namespace Linklint

open Value

theorem readText_of_string {v : Value} (h : v.isString = true) : ∃ s, v = .str s := by
  cases v with
  | str s => exact ⟨s, rfl⟩
  | _ => cases h

theorem readText_of_nonEmpty {v : Value} (h : v.isNonEmptyString = true) : ∃ s, v = .str s := by
  cases v with
  | str s => exact ⟨s, rfl⟩
  | _ => cases h

theorem readText_of_instant {v : Value} (h : isIsoInstant v = true) : ∃ s, v = .str s := by
  cases v with
  | str s => exact ⟨s, rfl⟩
  | _ => cases h

/-- A value is at most one string literal. -/
theorem isStr_unique {v : Value} {a b : String} (hne : text a ≠ text b)
    (ha : v.isStr a = true) : v.isStr b = false := by
  cases v with
  | str s =>
      have hs : s = text a := by simpa [Value.isStr] using ha
      simpa [Value.isStr, hs] using hne
  | _ => cases ha

theorem isSome_readSubject {v : Value} (h : isSubject v = true) : (readSubject v).isSome := by
  simp only [isSubject, Bool.and_eq_true, Bool.or_eq_true] at h
  obtain ⟨s, hs⟩ := readText_of_string h.2
  rcases h.1.2 with hkind | hkind
  · simp [readSubject, hkind, hs, readText]
  · by_cases hurl : (v.get (text "kind")).isStr "url" = true
    · simp [readSubject, hurl, hs, readText]
    · simp [readSubject, hkind, hurl, hs, readText]

theorem isSome_readFreshness {v : Value} (h : isFreshness v = true) :
    (readFreshness v).isSome := by
  simp only [isFreshness, Bool.and_eq_true, Bool.or_eq_true] at h
  by_cases hfresh : (v.get (text "status")).isStr "fresh" = true
  · simp [readFreshness, hfresh]
  · by_cases hstale : (v.get (text "status")).isStr "stale" = true
    · simp [readFreshness, hfresh, hstale]
    · have hunknown : (v.get (text "status")).isStr "unknown" = true := by
        rcases h.1.2 with (hs | hs) | hs
        · exact absurd hs hfresh
        · exact absurd hs hstale
        · exact hs
      simp [readFreshness, hfresh, hstale, hunknown]

/-- Checked provenance is read, and it is declared exactly when its kind says so. -/
theorem readProvenance_eq {v : Value} (h : isProvenance v = true) :
    ∃ p, readProvenance v = some p ∧
      (p.kind = .declared ↔ (v.get (text "kind")).isStr "declared" = true) ∧
      (p.kind = .unavailable ↔ (v.get (text "kind")).isStr "unavailable" = true) := by
  have hother {a : String} (hne : text a ≠ text "unavailable") :
      (v.get (text "kind")).isStr a = true → (v.get (text "kind")).isStr "unavailable" = false :=
    isStr_unique hne
  simp only [isProvenance, Bool.and_eq_true] at h
  obtain ⟨_, h⟩ := h
  by_cases hd : (v.get (text "kind")).isStr "declared" = true
  · rw [if_pos hd] at h
    simp only [Bool.and_eq_true, isProvenanceRef] at h
    obtain ⟨name, hname⟩ := readText_of_nonEmpty h.1.1.1.2
    have hu := hother (by decide) hd
    simp [readProvenance, hd, hu, readProvenanceRef, hname, readText, EnrichmentProvenance.kind]
  · rw [if_neg hd] at h
    by_cases hl : (v.get (text "kind")).isStr "legacy-incomplete" = true
    · have hu := hother (by decide) hl
      simp [readProvenance, hd, hl, hu, EnrichmentProvenance.kind]
    · by_cases hu : (v.get (text "kind")).isStr "unavailable" = true
      · simp [readProvenance, hd, hl, hu, EnrichmentProvenance.kind]
      · simp [hl, hu] at h

/-- Checked elements are all read; `none` stands for a hole. -/
theorem readSlots_fill {α : Type} {read : Value → Option α} {p : Value → Bool} {v : Value}
    (hnull : read .null = none) (hread : ∀ x, p x = true → (read x.fill).isSome)
    (h : isArrayOf p v = true) :
    ∃ items, readSlots read v.fill = some items ∧ items.length = slotCount v ∧
      (none ∈ items ↔ v.hasHole = true) := by
  rw [isArrayOf] at h
  cases hv : v.slots? with
  | none =>
      rw [hv] at h
      cases h
  | some slots =>
      rw [hv] at h
      refine ⟨slots.map fun slot => read (fillItem slot), ?_, ?_, ?_⟩
      · simp [readSlots, slots?_fill, hv, Function.comp_def]
      · simp [slotCount, hv]
      · rw [hasHole, hv, Option.elim_some, List.any_eq_true, List.mem_map]
        constructor
        · rintro ⟨slot, hslot, hnone⟩
          refine ⟨slot, hslot, ?_⟩
          cases slot with
          | none => rfl
          | some x =>
              have hx : p x = true := List.all_eq_true.mp h (some x) hslot
              have hsome := hread x hx
              simp only [fillItem, Option.elim_some] at hnone
              rw [hnone] at hsome
              cases hsome
        · rintro ⟨slot, hslot, hnone⟩
          refine ⟨slot, hslot, ?_⟩
          cases slot with
          | none => exact hnull
          | some x => cases hnone

theorem isSome_readFinding {v : Value} (h : isFinding v = true) : (readFinding v.fill).isSome := by
  simp only [isFinding, Bool.and_eq_true] at h
  obtain ⟨⟨⟨⟨_, hcode⟩, hdetail⟩, _⟩, _⟩ := h
  obtain ⟨detail, hdetail⟩ := readText_of_string hdetail
  cases hc : v.get (text "code") with
  | str s =>
      rw [hc] at hcode
      simp only [isReasonCode, Bool.and_eq_true] at hcode
      obtain ⟨code, hcode⟩ := Option.isSome_iff_exists.mp hcode.2
      simp [readFinding, hc, hdetail, fill, readReasonCode, readText, hcode]
  | _ =>
      rw [hc] at hcode
      cases hcode

theorem isSome_readEvidence {v : Value} (h : isEvidence v = true) :
    (readEvidence v.fill).isSome := by
  simp only [isEvidence, Bool.and_eq_true] at h
  obtain ⟨⟨⟨⟨⟨⟨_, htype⟩, hsubject⟩, hobserved⟩, hprovenance⟩, hfreshness⟩, _⟩ := h
  obtain ⟨type, htype⟩ := readText_of_nonEmpty htype
  obtain ⟨observedAt, hobserved⟩ := readText_of_instant hobserved
  rw [← isSubject_fill] at hsubject
  rw [← isProvenance_fill] at hprovenance
  rw [← isFreshness_fill] at hfreshness
  obtain ⟨subject, hsubject⟩ := Option.isSome_iff_exists.mp (isSome_readSubject hsubject)
  obtain ⟨provenance, hprovenance, _⟩ := readProvenance_eq hprovenance
  obtain ⟨freshness, hfreshness⟩ := Option.isSome_iff_exists.mp (isSome_readFreshness hfreshness)
  simp [readEvidence, htype, hobserved, fill, readText, hsubject, hprovenance, hfreshness]

/-- What an accepted outcome reads as after the clone. -/
structure ReadsAs (v : Value) (outcome : EnrichmentOutcome) : Prop where
  read : readOutcome v.fill = some outcome
  declared : outcome.provenance.kind = .declared ↔ (provenanceKind v).isStr "declared" = true
  unavailable :
    outcome.provenance.kind = .unavailable ↔ (provenanceKind v).isStr "unavailable" = true
  failure : outcome.status = .failure ↔ (v.get (text "status")).isStr "failure" = true
  holes : none ∈ outcome.findings ↔ (v.get (text "findings")).hasHole = true
  findings_only_success : outcome.status ≠ .success → outcome.findings = []

theorem readStatus_of_consistent {v : Value} (h : isStatusConsistent v = true) :
    ∃ status, readStatus (v.get (text "status")) = some status ∧
      (status = .failure ↔ (v.get (text "status")).isStr "failure" = true) ∧
      (status ≠ .success → slotCount (v.get (text "findings")) = 0) := by
  have hother {a : String} (hne : text a ≠ text "failure") :
      (v.get (text "status")).isStr a = true → (v.get (text "status")).isStr "failure" = false :=
    isStr_unique hne
  simp only [isStatusConsistent] at h
  by_cases hs : (v.get (text "status")).isStr "success" = true
  · exact ⟨.success, by simp [readStatus, hs], by simp [hother (by decide) hs],
      fun hne => absurd rfl hne⟩
  · rw [if_neg hs] at h
    by_cases hn : (v.get (text "status")).isStr "no-hit" = true
    · simp only [if_pos hn, Bool.and_eq_true, beq_iff_eq] at h
      exact ⟨.noHit, by simp [readStatus, hs, hn], by simp [hother (by decide) hn], fun _ => h.2⟩
    · rw [if_neg hn] at h
      by_cases hk : (v.get (text "status")).isStr "skipped" = true
      · simp only [hk, Bool.true_or, if_true, Bool.and_eq_true, beq_iff_eq] at h
        exact ⟨.skipped, by simp [readStatus, hs, hn, hk], by simp [hother (by decide) hk],
          fun _ => h.1⟩
      · by_cases hf : (v.get (text "status")).isStr "failure" = true
        · simp only [hf, Bool.or_true, if_true, Bool.and_eq_true, beq_iff_eq] at h
          exact ⟨.failure, by simp [readStatus, hs, hn, hk, hf], by simp [hf], fun _ => h.1⟩
        · simp [hk, hf] at h

theorem readOutcome_of_accepted {expected : Option EnrichmentIdentity} {v : Value}
    (h : isEnrichmentOutcome expected v = true) : ∃ outcome, ReadsAs v outcome := by
  simp only [isEnrichmentOutcome, Bool.and_eq_true] at h
  obtain ⟨⟨⟨⟨⟨⟨⟨⟨⟨⟨_, hid⟩, hlayer⟩, _⟩, hsubject⟩, hobserved⟩, hprovenance⟩, hfreshness⟩, hevidence⟩,
    hfindings⟩, hstatus⟩ := h
  obtain ⟨sourceId, hid⟩ := readText_of_nonEmpty hid
  obtain ⟨observedAt, hobserved⟩ := readText_of_instant hobserved
  rw [← isSubject_fill] at hsubject
  rw [← isProvenance_fill] at hprovenance
  rw [← isFreshness_fill] at hfreshness
  rw [← isStatusConsistent_fill] at hstatus
  obtain ⟨subject, hsubject⟩ := Option.isSome_iff_exists.mp (isSome_readSubject hsubject)
  obtain ⟨provenance, hprovenance, hdeclared, hunavailable⟩ := readProvenance_eq hprovenance
  obtain ⟨freshness, hfreshness⟩ := Option.isSome_iff_exists.mp (isSome_readFreshness hfreshness)
  obtain ⟨evidence, hevidence, -, -⟩ :=
    @readSlots_fill _ readEvidence _ _ rfl (fun _ hx => isSome_readEvidence hx) hevidence
  obtain ⟨findings, hfindings, hcount, hholes⟩ :=
    @readSlots_fill _ readFinding _ _ rfl (fun _ hx => isSome_readFinding hx) hfindings
  obtain ⟨status, hstatus, hfailure, hempty⟩ := readStatus_of_consistent hstatus
  obtain ⟨layer, hlayer⟩ : ∃ layer, readLayer (v.get (text "layer")).fill = some layer := by
    simp only [isEnrichmentLayer, Bool.or_eq_true] at hlayer
    by_cases hres : (v.get (text "layer")).isStr "resolution" = true
    · exact ⟨.resolution, by simp [readLayer, hres]⟩
    · rcases hlayer with hlayer | hlayer
      · exact absurd hlayer hres
      · exact ⟨.reputation, by simp [readLayer, hres, hlayer]⟩
  refine ⟨{ sourceId, layer, status, subject, observedAt, provenance, freshness, evidence,
            findings, cause := readCause (v.get (text "cause")).fill }, ?_, ?_, ?_, ?_, hholes, ?_⟩
  · rw [get_fill] at hstatus
    simp [readOutcome, hid, hlayer, hstatus, hsubject, hobserved, hprovenance, hfreshness, hevidence,
      hfindings, fill, readText]
  · simpa [provenanceKind] using hdeclared
  · simpa [provenanceKind] using hunavailable
  · simpa using hfailure
  · intro hne
    have hzero := hempty hne
    rw [get_fill, slotCount_fill] at hzero
    exact List.eq_nil_of_length_eq_zero (hcount.trans hzero)

/-! ### Reports -/

/-- The slots of the outcomes of a report. -/
def outcomeSlots (report : Value) : List (Option Value) :=
  (report.get (text "outcomes")).slots?.getD []

/-- How a slot and its reading correspond. -/
def SlotReads (slot : Option Value) (read : Option EnrichmentOutcome) : Prop :=
  (slot = none ∧ read = none) ∨
    ∃ o outcome, slot = some o ∧ read = some outcome ∧ ReadsAs o outcome

/-- What an accepted report reads as after the clone: slot by slot, `none` at a hole. -/
theorem readReport_of_accepted {expected : Option EnrichmentIdentity} {v : Value}
    (h : isEnrichmentReport expected v = true) :
    outcomeSlots v ≠ [] ∧
      List.Forall₂ SlotReads (outcomeSlots v) (readReport v.fill).outcomes := by
  simp only [isEnrichmentReport, Bool.and_eq_true, isArrayOf] at h
  obtain ⟨⟨_, hcount⟩, harray⟩ := h
  cases hslots : (v.get (text "outcomes")).slots? with
  | none =>
      rw [hslots] at harray
      cases harray
  | some slots =>
      rw [hslots] at harray
      constructor
      · rintro hnil
        rw [outcomeSlots, hslots, Option.getD_some] at hnil
        simp [slotCount, hslots, hnil] at hcount
      · have hread : (readReport v.fill).outcomes
            = slots.map fun slot => readOutcome (fillItem slot) := by
          simp [readReport, readSlots, hslots, Function.comp_def]
        rw [hread, outcomeSlots, hslots, Option.getD_some, List.forall₂_map_right_iff,
          List.forall₂_same]
        intro slot hslot
        cases slot with
        | none => exact Or.inl ⟨rfl, rfl⟩
        | some o =>
            have haccepted : isEnrichmentOutcome expected o = true :=
              List.all_eq_true.mp harray (some o) hslot
            obtain ⟨outcome, hreads⟩ := readOutcome_of_accepted haccepted
            exact Or.inr ⟨o, outcome, rfl, hreads.read, hreads⟩

/-! ### Outputs -/

def isFailedOutcome (outcome : Value) : Bool := (outcome.get (text "status")).isStr "failure"

/-- The first slot that ends a search for a failure outcome is a hole. -/
def holeBeforeFailure : List (Option Value) → Bool
  | [] => false
  | none :: _ => true
  | some outcome :: rest => if isFailedOutcome outcome then false else holeBeforeFailure rest

/-- An accepted report whose outcomes array is sparse before its first failure. -/
def isSparseOutput (enricher : Enricher) (output : Value) : Bool :=
  !isEnricherFindingArray output && (declaredReport enricher output).isSome
    && holeBeforeFailure (outcomeSlots output)

/-- A valid output without a failure outcome; the flat form has none. -/
def isCleanOutput (enricher : Enricher) (output : Value) : Bool :=
  isEnricherFindingArray output ||
    ((declaredReport enricher output).isSome && !someSlot isFailedOutcome (outcomeSlots output))

/-- The reports an output can be normalized to; the flat form is stamped by the clock. -/
inductive Normalized (enricher : Enricher) (base : InspectResult) (output : Value) : Value → Prop
  | legacy (observedAt : Text) (hflat : isEnricherFindingArray output = true) :
      Normalized enricher base output
        (cloneEnrichmentReport (legacyReport enricher base observedAt output))
  | declared {report : Value} (hflat : isEnricherFindingArray output = false)
      (h : declaredReport enricher output = some report) : Normalized enricher base output report

theorem cloneEnrichmentReport_of_json {v : Value} (h : v.isJsonValue = true) :
    cloneEnrichmentReport v = v.fill := by
  rw [cloneEnrichmentReport, jsonClone_eq_fill h, Option.getD_some]

theorem isJsonValue_of_report {expected : Option EnrichmentIdentity} {v : Value}
    (h : isEnrichmentReport expected v = true) : v.isJsonValue = true := by
  simp only [isEnrichmentReport, Bool.and_eq_true] at h
  exact h.1.1.1.2

theorem declaredReport_eq_some {enricher : Enricher} {v report : Value}
    (h : declaredReport enricher v = some report) :
    isEnrichmentReport (some (identityOf enricher)) v = true ∧
      (v.get (text "outcomes")).someElement isUndeclared = false ∧ report = v.fill := by
  simp only [declaredReport, Bool.or_eq_true, Bool.not_eq_true'] at h
  split at h
  · cases h
  · rename_i hnot
    simp only [not_or, Bool.not_eq_true, Bool.not_eq_false] at hnot
    have hclone := cloneEnrichmentReport_of_json (isJsonValue_of_report hnot.1)
    exact ⟨hnot.1, hnot.2, (Option.some.inj h).symm.trans hclone⟩

theorem isFailure_of_reads {o : Value} {outcome : EnrichmentOutcome} (h : ReadsAs o outcome) :
    isFailure outcome = isFailedOutcome o := by
  rw [Bool.eq_iff_iff, isFailure, beq_iff_eq]
  exact h.failure

/-- The search for a failure throws at a hole it reaches, and agrees with the slots otherwise. -/
theorem outcomesSome_isFailure {slots : List (Option Value)}
    {reads : List (Option EnrichmentOutcome)} (h : List.Forall₂ SlotReads slots reads) :
    outcomesSome isFailure reads =
      if holeBeforeFailure slots then .error .thrown else .ok (someSlot isFailedOutcome slots) := by
  induction h with
  | nil => rfl
  | @cons slot read slots reads hslot _ ih =>
      rcases hslot with ⟨rfl, rfl⟩ | ⟨o, outcome, rfl, rfl, hreads⟩
      · rfl
      · rw [outcomesSome, holeBeforeFailure, isFailure_of_reads hreads, ih]
        by_cases hfailed : isFailedOutcome o = true
        · simp [hfailed, someSlot]
        · simp [hfailed, someSlot]

theorem isJsonValue_subjectValue (subject : EnrichmentSubject) :
    (subjectValue subject).isJsonValue = true := by
  simp [subjectValue, isJsonValue, isJsonFields]

theorem isSubject_subjectValue (subject : EnrichmentSubject) :
    isSubject (subjectValue subject) = true := by
  obtain ⟨kind, value⟩ := subject
  cases kind <;> rfl

theorem isJsonValue_legacyReport {enricher : Enricher} {base : InspectResult} {observedAt : Text}
    {v : Value} (h : v.isJsonValue = true) :
    (legacyReport enricher base observedAt v).isJsonValue = true := by
  by_cases hcount : slotCount v = 0 <;>
    simp [legacyReport, legacyOutcome, hcount, isJsonValue, isJsonFields, isJsonItems, isJsonValue_subjectValue, h,
      legacyProvenance, unknownFreshness]

/-- The report of a flat output reads as one success outcome; its findings have the output's holes. -/
theorem readReport_legacy {enricher : Enricher} {base : InspectResult} (observedAt : Text)
    {v : Value} (h : isEnricherFindingArray v = true) :
    ∃ outcome, (readReport (cloneEnrichmentReport
        (legacyReport enricher base observedAt v))).outcomes = [some outcome] ∧
      outcome.status = .success ∧ outcome.provenance = .legacyIncomplete ∧
      (none ∈ outcome.findings ↔ v.hasHole = true) := by
  simp only [isEnricherFindingArray, Bool.and_eq_true] at h
  obtain ⟨⟨_, hjson⟩, harray⟩ := h
  obtain ⟨findings, hfindings, -, hholes⟩ :=
    @readSlots_fill _ readFinding _ _ rfl (fun _ hx => isSome_readFinding hx) harray
  rw [cloneEnrichmentReport_of_json (isJsonValue_legacyReport hjson)]
  set o := legacyOutcome enricher base observedAt v with ho
  have houtcomes : (legacyReport enricher base observedAt v).get (text "outcomes") = .arr [some o] :=
    rfl
  have hid : o.get (text "sourceId") = .str enricher.id := rfl
  have hlayer : o.get (text "layer") = .str enricher.layer.name := rfl
  have hstatus : o.get (text "status") = .str (text "success") := rfl
  have hsubject : o.get (text "subject") = subjectValue (inspectionSubject base) := rfl
  have hobserved : o.get (text "observedAt") = .str observedAt := rfl
  have hprovenance : o.get (text "provenance") = legacyProvenance := rfl
  have hfreshness : o.get (text "freshness") = unknownFreshness := rfl
  have hfound : o.get (text "findings") = v := rfl
  obtain ⟨subject, hs⟩ := Option.isSome_iff_exists.mp
    (isSome_readSubject (isSubject_subjectValue (inspectionSubject base)))
  have hl : readLayer (.str enricher.layer.name) = some enricher.layer := by
    cases enricher.layer <;> rfl
  obtain ⟨evidence, he⟩ : ∃ evidence, readSlots readEvidence (o.get (text "evidence")).fill
      = some evidence := ⟨_, rfl⟩
  obtain ⟨outcome, hread, hsuccess, hlegacy, hlist⟩ : ∃ outcome, readOutcome o.fill = some outcome ∧
      outcome.status = .success ∧ outcome.provenance = .legacyIncomplete ∧
      outcome.findings = findings := by
    refine ⟨{ sourceId := enricher.id, layer := enricher.layer, status := .success, subject,
              observedAt, provenance := .legacyIncomplete,
              freshness := { status := .unknown, expiresAt := none }, evidence, findings,
              cause := readCause (o.get (text "cause")).fill }, ?_, rfl, rfl, rfl⟩
    have hs' : readSubject (subjectValue (inspectionSubject base)).fill = some subject := hs
    have hp : readProvenance legacyProvenance.fill = some .legacyIncomplete := by rfl
    have hf : readFreshness unknownFreshness.fill
        = some { status := .unknown, expiresAt := none } := by rfl
    have ht : readStatus (.str (text "success")) = some .success := by rfl
    simp [readOutcome, get_fill, hid, hlayer, hstatus, hsubject, hobserved, hprovenance,
      hfreshness, hfound, he, hfindings, hs', hp, hf, hl, ht, fill, readText]
  refine ⟨outcome, ?_, hsuccess, hlegacy, hlist ▸ hholes⟩
  have hslots : (arr [some o]).slots? = some [some o] := rfl
  simp [readReport, readSlots, get_fill, houtcomes, slots?_fill, hslots, fillItem, hread]

/-- An element of a read list comes from a slot. -/
theorem slot_of_read {slots : List (Option Value)} {reads : List (Option EnrichmentOutcome)}
    (h : List.Forall₂ SlotReads slots reads) {outcome : EnrichmentOutcome}
    (hmem : some outcome ∈ reads) : ∃ o, some o ∈ slots ∧ ReadsAs o outcome := by
  induction h with
  | nil => cases hmem
  | @cons slot read slots reads hslot _ ih =>
      rcases List.mem_cons.mp hmem with rfl | hmem
      · rcases hslot with ⟨_, hnone⟩ | ⟨o, outcome', rfl, houtcome, hreads⟩
        · cases hnone
        · cases houtcome
          exact ⟨o, List.mem_cons_self .., hreads⟩
      · obtain ⟨o, ho, hreads⟩ := ih hmem
        exact ⟨o, List.mem_cons_of_mem _ ho, hreads⟩

theorem not_refused {slots : List (Option Value)} (h : refusesCached slots = .ok false) {o : Value}
    (ho : some o ∈ slots) : isRefused o = false := by
  induction slots with
  | nil => cases ho
  | cons slot slots ih =>
      cases slot with
      | none => cases h
      | some o' =>
          rw [refusesCached] at h
          split at h
          · cases h
          · rename_i hrefused
            rcases List.mem_cons.mp ho with ho | ho
            · cases ho
              simpa using hrefused
            · exact ih h ho

/-- A normalized report is its own clone. -/
theorem clone_of_normalized {enricher : Enricher} {base : InspectResult} {output report : Value}
    (h : Normalized enricher base output report) : cloneEnrichmentReport report = report := by
  have hfill {v : Value} (hv : v.isJsonValue = true) :
      cloneEnrichmentReport (cloneEnrichmentReport v) = cloneEnrichmentReport v := by
    rw [cloneEnrichmentReport_of_json hv, cloneEnrichmentReport_of_json (by simpa using hv),
      fill_fill]
  cases h with
  | legacy observedAt hflat =>
      simp only [isEnricherFindingArray, Bool.and_eq_true] at hflat
      exact hfill (isJsonValue_legacyReport hflat.1.2)
  | declared hflat h =>
      obtain ⟨haccepted, -, hreport⟩ := declaredReport_eq_some h
      rw [hreport, ← cloneEnrichmentReport_of_json (isJsonValue_of_report haccepted)]
      exact hfill (isJsonValue_of_report haccepted)

/-- A normalized report carries no outcome of the framework. -/
theorem available_of_normalized {enricher : Enricher} {base : InspectResult}
    {output report : Value} (h : Normalized enricher base output report)
    {outcome : EnrichmentOutcome} (hmem : some outcome ∈ (readReport report).outcomes) :
    outcome.provenance.kind ≠ .unavailable := by
  cases h with
  | legacy observedAt hflat =>
      obtain ⟨outcome', houtcomes, -, hlegacy, -⟩ := @readReport_legacy enricher base observedAt _ hflat
      rw [houtcomes, List.mem_singleton] at hmem
      rw [Option.some.inj hmem, hlegacy]
      decide
  | declared hflat h =>
      obtain ⟨haccepted, hdeclared, rfl⟩ := declaredReport_eq_some h
      obtain ⟨o, ho, hreads⟩ := slot_of_read (readReport_of_accepted haccepted).2 hmem
      have ho' : isUndeclared o = false := by
        rw [someElement] at hdeclared
        rw [outcomeSlots] at ho
        cases hslots : (output.get (text "outcomes")).slots? with
        | none =>
            rw [hslots] at ho
            cases ho
        | some slots =>
            rw [hslots] at ho hdeclared
            have hall := List.any_eq_false.mp hdeclared _ ho
            simpa using hall
      simp only [isUndeclared, Bool.or_eq_false_iff, Bool.not_eq_false'] at ho'
      rw [hreads.declared.mpr ho'.1]
      decide

/-- A cached report that is let through was accepted and not refused, and is cloned. -/
theorem cached_eq_some {enricher : Enricher} {cached report : Value}
    (h : normalizeCachedReport enricher cached = .ok (some report)) :
    isEnrichmentReport (some (identityOf enricher)) cached = true ∧
      refusesCached (outcomeSlots cached) = .ok false ∧ report = cached.fill := by
  rw [normalizeCachedReport] at h
  split at h
  · cases h
  · rename_i haccepted
    simp only [Bool.not_eq_true, Bool.not_eq_false'] at haccepted
    rw [← outcomeSlots] at h
    cases hrefused : refusesCached (outcomeSlots cached) with
    | error e =>
        rw [hrefused] at h
        cases h
    | ok refused =>
        rw [hrefused] at h
        cases refused with
        | true => cases h
        | false =>
            cases h
            exact ⟨haccepted, rfl, cloneEnrichmentReport_of_json (isJsonValue_of_report haccepted)⟩

/-- What the cache boundary lets through is the cached report itself, and nothing of the
framework. -/
theorem cached_of_normalized {enricher : Enricher} {cached report : Value}
    (h : normalizeCachedReport enricher cached = .ok (some report)) :
    report = cloneEnrichmentReport cached ∧
      ∀ outcome, some outcome ∈ (readReport report).outcomes →
        outcome.provenance.kind ≠ .unavailable := by
  obtain ⟨haccepted, hrefused, rfl⟩ := cached_eq_some h
  refine ⟨(cloneEnrichmentReport_of_json (isJsonValue_of_report haccepted)).symm, ?_⟩
  intro outcome hmem hkind
  obtain ⟨o, ho, hreads⟩ := slot_of_read (readReport_of_accepted haccepted).2 hmem
  have ho' := not_refused hrefused ho
  simp only [isRefused, Bool.or_eq_false_iff] at ho'
  rw [hreads.unavailable.mp hkind] at ho'
  cases ho'.1

/-- The search of a normalized report for a failure, read off the output. -/
theorem outcomesSome_of_normalized {enricher : Enricher} {base : InspectResult} {output report : Value}
    (h : Normalized enricher base output report) :
    outcomesSome isFailure (readReport report).outcomes =
      if isSparseOutput enricher output then .error .thrown
      else .ok !isCleanOutput enricher output := by
  cases h with
  | legacy observedAt hflat =>
      obtain ⟨outcome, houtcomes, hsuccess, -⟩ := @readReport_legacy enricher base observedAt _ hflat
      simp [houtcomes, outcomesSome, isFailure, hsuccess, isSparseOutput, isCleanOutput, hflat]
  | declared hflat h =>
      obtain ⟨haccepted, -, rfl⟩ := declaredReport_eq_some h
      rw [outcomesSome_isFailure (readReport_of_accepted haccepted).2]
      simp [isSparseOutput, isCleanOutput, hflat, h]

end Linklint
