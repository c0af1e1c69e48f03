import Linklint.Inspect.Reasons
import Linklint.Resolution.ChainContract
import Linklint.Resolution.EmbeddedWrapper

/-!
# Offline evidence folded back

An enricher reports the offline score of a target next to bare findings, and the
fold attaches the registry weight of every finding again. The two agree unless a
reason the target's inspection had suppressed is emitted with a weight.
-/

namespace Linklint

/-! ### Scores of parts -/

/-- `1 − Π(1 − wᵢ)` -/
def probabilisticOr (reasons : List Reason) : Rat := 1 - inverseProduct reasons

theorem inverseProduct_congr {as bs : List Reason}
    (h : as.map (fun reason => reason.weight) = bs.map fun reason => reason.weight) :
    inverseProduct as = inverseProduct bs := by
  induction as generalizing bs with
  | nil =>
      rw [List.map_eq_nil_iff.mp h.symm]
  | cons a as ih =>
      cases bs with
      | nil => cases h
      | cons b bs =>
          obtain ⟨hweight, hrest⟩ := List.cons.inj h
          simp only [] at hweight
          rw [inverseProduct_cons, inverseProduct_cons, hweight, ih hrest]

/-- Fewer reasons never raise the score. -/
theorem inverseProduct_sublist {as bs : List Reason} (h : as.Sublist bs) (hb : WeightsBounded bs) :
    inverseProduct bs ≤ inverseProduct as := by
  induction h with
  | slnil => exact le_refl _
  | @cons as bs b _ ih =>
      have hrest : WeightsBounded bs := fun r hr => hb r (List.mem_cons_of_mem _ hr)
      refine le_trans ?_ (ih hrest)
      rw [inverseProduct_cons]
      split
      · rw [one_mul]
      · refine mul_le_of_le_one_left (inverseProduct_bounds hrest).1 ?_
        linarith [(hb b (List.mem_cons_self ..)).1]
  | @cons_cons as bs b _ ih =>
      have hrest : WeightsBounded bs := fun r hr => hb r (List.mem_cons_of_mem _ hr)
      rw [inverseProduct_cons, inverseProduct_cons]
      refine mul_le_mul_of_nonneg_left (ih hrest) ?_
      split
      · exact zero_le_one
      · linarith [(hb b (List.mem_cons_self ..)).2]

/-! ### What an outcome says of its target -/

/-- The offline score a successful outcome records for its target. -/
def recordedScore (outcome : EnrichmentOutcome) : Value :=
  match outcome.evidence with
  | some evidence :: _ => (evidence.payload.get (text "offlineInspection")).get (text "score")
  | _ => .undefined

section
variable (P : Platform)

/-- The emitted findings stay within the verdict the outcome records. Scores are compared exactly,
and as recorded, rounded to ten decimal places. -/
structure KeepsVerdict (offline : InspectResult) (outcome : EnrichmentOutcome)
    (emitted : List EnricherFinding) : Prop where
  recorded : ∃ score, recordedScore outcome = .num (.fin score) ∧
    toFixed10 (probabilisticOr (emitted.map projectedReason)) ≤ score
  exact : probabilisticOr (emitted.map projectedReason) ≤ probabilisticOr offline.reasons
  suppressed : ∀ reason ∈ offline.reasons, reason.suppressed = true → ∀ finding ∈ emitted,
    finding.code = reason.code → ∀ rules,
      (enrichmentReason P rules ⟨finding, outcome.subject⟩).weight = 0

variable {P} {bodies : CheckBodies} {rawOptions : HostVal} {offline : InspectResult}

theorem enrichmentReason_weight_nil (item : SubjectFinding) :
    (enrichmentReason P [] item).weight = weightFor item.finding.code := by
  rw [enrichmentReason_eq]
  rfl

theorem projected_weight {picked : List Reason} {heading : Text}
    (hregistry : ∀ reason ∈ picked, RegistryReason reason)
    (hweightless : ∀ reason ∈ picked, reason.suppressed = true → weightFor reason.code = 0) :
    inverseProduct ((picked.map (offlineFinding offline heading)).map projectedReason)
      = inverseProduct picked := by
  refine inverseProduct_congr ?_
  rw [List.map_map, List.map_map]
  refine List.map_congr_left fun reason hreason => ?_
  rw [hregistry reason hreason]
  split
  · rename_i hsuppressed
    exact hweightless reason hreason hsuppressed
  · rfl

/-- Findings made of some of the reasons keep the verdict exactly when none of those reasons is
suppressed and of a weighted code. -/
theorem keepsVerdict_iff (built : Built P bodies rawOptions offline) (hok : offline.status = .ok)
    {picked : List Reason} (hpicked : picked.Sublist offline.reasons) {heading : Text}
    {outcome : EnrichmentOutcome}
    (hrecorded : recordedScore outcome = nullable (fun score => .num (.fin score)) offline.score) :
    KeepsVerdict P offline outcome (picked.map (offlineFinding offline heading)) ↔
      ∀ reason ∈ picked, reason.suppressed = true → weightFor reason.code = 0 := by
  have hbounded := weightsBounded_of_registry built.registry
  constructor
  · intro h reason hreason hsuppressed
    have hweight := h.suppressed reason (hpicked.subset hreason) hsuppressed _
      (List.mem_map_of_mem hreason) rfl []
    rw [enrichmentReason_weight_nil] at hweight
    exact hweight
  · intro hweightless
    have hproduct : inverseProduct ((picked.map (offlineFinding offline heading)).map
        projectedReason) = inverseProduct picked :=
      projected_weight (fun reason hreason => built.registry reason (hpicked.subset hreason))
        hweightless
    have hle : probabilisticOr ((picked.map (offlineFinding offline heading)).map projectedReason)
        ≤ probabilisticOr offline.reasons := by
      rw [probabilisticOr, probabilisticOr, hproduct]
      linarith [inverseProduct_sublist hpicked hbounded]
    refine ⟨⟨(aggregate offline.reasons).score, ?_, toFixed10_mono hle⟩, hle, ?_⟩
    · rw [hrecorded, (built.score hok).1]
      rfl
    · intro reason hreason hsuppressed finding hfinding hcode rules
      obtain ⟨source, hsource, rfl⟩ := List.mem_map.mp hfinding
      have hsame := built.suppressed_of_code (hpicked.subset hsource) hreason hcode
      have hzero := hweightless source hsource (hsame.trans hsuppressed)
      rw [enrichmentReason_eq]
      rcases suppressReason_weight rules (suppressionSubjectHostContext P outcome.subject)
        (projectedReason (offlineFinding offline heading source)) with hw | hw
      · exact hw
      · exact hw.trans hzero

/-! ### The two enrichers -/

theorem wrapper_picked (result : InspectResult) :
    EmbeddedWrapper.offlineFindings result
      = result.reasons.map (offlineFinding result (text "Decoded wrapper destination")) := by
  have hall : result.reasons.filter (fun reason => isRegistered reason.code) = result.reasons :=
    List.filter_eq_self.mpr fun reason _ => isRegistered_eq reason.code
  rw [EmbeddedWrapper.offlineFindings, hall]

theorem emittedReasons_sublist (excluded emitted : List ReasonCode) (reasons : List Reason) :
    (RedirectChain.emittedReasons excluded emitted reasons).Sublist reasons := by
  induction reasons generalizing emitted with
  | nil => exact List.Sublist.slnil
  | cons head rest ih =>
      unfold RedirectChain.emittedReasons
      split
      · exact (ih emitted).cons head
      · exact (ih _).cons_cons head

/-- Every code that is not excluded is emitted once. -/
theorem emittedReasons_complete {excluded emitted : List ReasonCode} {reasons : List Reason}
    {reason : Reason} (hmem : reason ∈ reasons) (hexcluded : reason.code ∉ excluded)
    (hemitted : reason.code ∉ emitted) :
    ∃ kept ∈ RedirectChain.emittedReasons excluded emitted reasons, kept.code = reason.code := by
  induction reasons generalizing emitted with
  | nil => cases hmem
  | cons head rest ih =>
      unfold RedirectChain.emittedReasons
      by_cases hcode : head.code = reason.code
      · rw [if_neg (by simp [isRegistered_eq, hcode, hexcluded, hemitted])]
        exact ⟨head, List.mem_cons_self .., hcode⟩
      · have hrest : reason ∈ rest :=
          (List.mem_cons.mp hmem).resolve_left fun h => hcode (h ▸ rfl)
        split
        · exact ih hrest hemitted
        · obtain ⟨kept, hkept, hsame⟩ := @ih (head.code :: emitted) hrest (by simp [hemitted, Ne.symm hcode])
          exact ⟨kept, List.mem_cons_of_mem _ hkept, hsame⟩

/-- The lexical findings of a hop come from its own inspection. -/
def CarriesLexical (hops : List RedirectChain.ChainHop) (hop : RedirectChain.ChainHop) : Prop :=
  ∃ worst, RedirectChain.worstHop hops = some worst ∧ worst.hop = hop.hop

theorem chain_keepsVerdict_iff {world : RedirectChain.ChainWorld}
    {options : RedirectChain.RedirectChainEnricherOptions} {base : InspectResult}
    {hops : List RedirectChain.ChainHop} {hop : RedirectChain.ChainHop}
    (hinspect : RedirectChain.inspectTarget options world hop.url = .ok hop.offline)
    (hok : hop.offline.status = .ok) :
    KeepsVerdict world.platform hop.offline (RedirectChain.reportHop world base hops hop)
        (RedirectChain.lexicalFindings base hops hop) ↔
      (CarriesLexical hops hop → ∀ reason ∈ hop.offline.reasons, reason.suppressed = true →
        reason.code ∉ RedirectChain.baseCodes base → weightFor reason.code = 0) := by
  have built := built_of_inspect hinspect
  have hrecorded : recordedScore (RedirectChain.reportHop world base hops hop)
      = nullable (fun score => .num (.fin score)) hop.offline.score := rfl
  have hcarries : CarriesLexical hops hop ↔
      ((RedirectChain.worstHop hops).any fun worst => worst.hop == hop.hop) = true := by
    rw [Option.any_eq_true]
    simp [CarriesLexical]
  unfold RedirectChain.lexicalFindings
  rw [hcarries]
  split
  · rename_i hworst
    rw [RedirectChain.offlineFindings, keepsVerdict_iff built hok (emittedReasons_sublist ..) hrecorded]
    constructor
    · intro h _ reason hreason hsuppressed hnew
      obtain ⟨kept, hkept, hcode⟩ := emittedReasons_complete hreason hnew List.not_mem_nil
      have hmem := (emittedReasons_sublist _ _ _).subset hkept
      rw [← hcode]
      exact h kept hkept ((built.suppressed_of_code hmem hreason hcode).trans hsuppressed)
    · intro h reason hreason hsuppressed
      obtain ⟨hmem, hnew⟩ := RedirectChain.emittedReasons_not_excluded hreason
      exact h hworst reason hmem hsuppressed hnew
  · rename_i hworst
    refine iff_of_true ?_ fun h => absurd h hworst
    have h : KeepsVerdict world.platform hop.offline (RedirectChain.reportHop world base hops hop)
        (([] : List Reason).map (offlineFinding hop.offline [])) :=
      (keepsVerdict_iff built hok (List.nil_sublist hop.offline.reasons) hrecorded).mpr (by simp)
    exact h

theorem wrapper_keepsVerdict_iff {decoded : EmbeddedWrapper.EmbeddedWrapperDecoded}
    (hinspect : inspect P bodies (.string decoded.destinationUrl) rawOptions = .ok offline)
    (hok : offline.status = .ok) (observedAt : Text) (depth : Nat) :
    KeepsVerdict P offline (EmbeddedWrapper.decodedOutcome decoded offline observedAt depth)
        (EmbeddedWrapper.offlineFindings offline) ↔
      ∀ reason ∈ offline.reasons, reason.suppressed = true → weightFor reason.code = 0 := by
  rw [wrapper_picked]
  exact keepsVerdict_iff (built_of_inspect hinspect) hok (List.Sublist.refl _) rfl

end

/-- The offline inspection of a decoded destination. -/
structure DecodedTarget (P : Platform) (bodies : CheckBodies) (rawOptions : HostVal) where
  decoded : EmbeddedWrapper.EmbeddedWrapperDecoded
  offline : InspectResult
  inspected : inspect P bodies (.string decoded.destinationUrl) rawOptions = .ok offline
  ok : offline.status = .ok

/-- The offline inspection of a resolved hop. -/
structure ResolvedHop (world : RedirectChain.ChainWorld)
    (options : RedirectChain.RedirectChainEnricherOptions) where
  hop : RedirectChain.ChainHop
  inspected : RedirectChain.inspectTarget options world hop.url = .ok hop.offline
  ok : hop.offline.status = .ok

/-- For either enricher: the evidence of a target keeps its offline verdict exactly when no reason
is emitted that the inspection had suppressed and that the registry gives a weight. -/
theorem offlineEvidence_keeps_iff {P : Platform} {bodies : CheckBodies} {inspectOptions : HostVal}
    (target : DecodedTarget P bodies inspectOptions) (observedAt : Text) (depth : Nat)
    {world : RedirectChain.ChainWorld} {options : RedirectChain.RedirectChainEnricherOptions}
    (base : InspectResult) (hops : List RedirectChain.ChainHop) (resolved : ResolvedHop world options) :
    (KeepsVerdict P target.offline
        (EmbeddedWrapper.decodedOutcome target.decoded target.offline observedAt depth)
        (EmbeddedWrapper.offlineFindings target.offline) ↔
      ∀ reason ∈ target.offline.reasons, reason.suppressed = true → weightFor reason.code = 0) ∧
    (KeepsVerdict world.platform resolved.hop.offline
        (RedirectChain.reportHop world base hops resolved.hop)
        (RedirectChain.lexicalFindings base hops resolved.hop) ↔
      (CarriesLexical hops resolved.hop → ∀ reason ∈ resolved.hop.offline.reasons,
        reason.suppressed = true → reason.code ∉ RedirectChain.baseCodes base →
          weightFor reason.code = 0)) :=
  ⟨wrapper_keepsVerdict_iff target.inspected target.ok observedAt depth,
    chain_keepsVerdict_iff resolved.inspected resolved.ok⟩

/-! ### A suppressed reason that comes back -/

/-- The userinfo detector. -/
def userinfoPresent (ctx : InspectionContext) : List CollectedFinding :=
  match ctx.userinfo with
  | none => []
  | some userinfo =>
      if userinfo = [] then []
      else
        let realHost := if ctx.host = [] then text "(none)" else ctx.host
        [{ code := .userinfoPresent
           detail := text "authority hidden behind '" ++ userinfo ++ text "@'; the real host is '"
             ++ realHost ++ text "'" }]

/-- Of all checks only the userinfo detector finds something. -/
def userinfoBodies : CheckBodies where
  scan _ _ := .ok []
  detector check ctx := .ok (if check.id = text "userinfo_present" then userinfoPresent ctx else [])
  axis _ _ := .ok []

/-- `{ suppressReasons: [{ code: "userinfo_present" }] }` -/
def userinfoSuppressed : HostVal :=
  .plain [(text "suppressReasons",
    .list [.plain [(text "code", .str (text "userinfo_present"))]])]

def userinfoDecoded : EmbeddedWrapper.EmbeddedWrapperDecoded where
  wrapperUrl := text "https://urldefense.com/v3/__http://user@example.com/__;!!a!b$"
  destinationUrl := text "http://user@example.com/"
  vendor := .proofpointUrlDefense
  format := text "proofpoint-url-defense-v3"
  formatVersion := text "v3.0.1"

/-- The offline score is zero, and the finding folds back with half a point. -/
theorem suppressed_userinfo_returns :
    ∃ target : DecodedTarget .ascii userinfoBodies userinfoSuppressed,
      target.decoded = userinfoDecoded ∧
      ¬ KeepsVerdict .ascii target.offline
        (EmbeddedWrapper.decodedOutcome target.decoded target.offline [] 1)
        (EmbeddedWrapper.offlineFindings target.offline) := by
  refine ⟨⟨userinfoDecoded, _, rfl, rfl⟩, rfl, fun h => ?_⟩
  have hweight := h.suppressed _ (List.mem_cons_self ..) rfl _ (List.mem_cons_self ..) rfl []
  rw [enrichmentReason_weight_nil] at hweight
  have hhalf : weightFor .userinfoPresent = 1 / 2 := rfl
  have hzero : weightFor .userinfoPresent = 0 := hweight
  rw [hhalf] at hzero
  norm_num at hzero

end Linklint
