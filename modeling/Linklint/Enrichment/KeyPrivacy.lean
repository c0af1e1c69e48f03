import Linklint.Enrichment.CacheUse
import Linklint.Inspect

/-!
# Keys that disclose the input

The guard on cache keys asks for the subject of the run, and an input without a
scheme has a host subject, whatever else it carries.
-/

namespace Linklint

open Interaction

/-- A path beyond the root, a query or a fragment. -/
def CarriesMore (p : ParsedUrl) : Prop :=
  (p.path ≠ [] ∧ p.path ≠ text "/") ∨ p.query ≠ none ∨ p.fragment ≠ none

def isStoreOp : RunnerOp → Bool
  | .cacheGet _ _ => true
  | .cacheSet _ _ _ _ => true
  | _ => false

/-- A key that contains the complete input reaches no store, and the report says so. -/
def DisclosureRefused (input : RunnerInput) : Prop :=
  ∀ trace result, Runs (runEnricher input) trace result →
    ∀ key, ⟨.cacheKey, some (Called.value (.str key))⟩ ∈ trace → input.base.input <:+: key →
      (∀ e ∈ trace, isStoreOp e.op = false) ∧
        ∀ run, result = some (.ok run) → Carries input run (keyError "unsafe-full-url")

theorem inspectionSubject_kind {base : InspectResult} {p : ParsedUrl} (h : base.parsed = some p) :
    (inspectionSubject base).kind = .url ↔ ¬(p.scheme = none ∧ p.effectiveHost ≠ none) := by
  obtain ⟨scheme, userinfo, effectiveHost, _, _, _, _, _, _, _, _, _⟩ := p
  rw [inspectionSubject, h]
  cases scheme <;> cases effectiveHost <;> simp

section
variable {P : Platform} {bodies : CheckBodies}

/-- A parsed result is about the input it was computed from, which is not empty. -/
theorem input_of_parsed {raw : Text} {rawOptions : HostVal} {base : InspectResult} {p : ParsedUrl}
    (h : inspect P bodies (.string raw) rawOptions = .ok base) (hp : base.parsed = some p) :
    base.input = raw ∧ raw ≠ [] := by
  simp only [inspect, inspectString] at h
  cases hruntime : normalizeOptions P (intakeOptions (optionsArgument rawOptions)).options with
  | error e =>
      rw [hruntime] at h
      cases h
  | ok runtime =>
      rw [hruntime] at h
      simp only [bind, Except.bind] at h
      cases hparse : parseInput P raw runtime with
      | error e =>
          rw [hparse] at h
          cases h
          cases hp
      | ok parsed =>
          rw [hparse] at h
          cases parsed with
          | none =>
              cases h
              cases hp
          | some ctx =>
              simp only [] at h
              cases hlate : readLateOptions (intakeOptions (optionsArgument rawOptions)).options with
              | error e =>
                  rw [hlate] at h
                  cases h
              | ok late =>
                  rw [hlate] at h
                  cases h
                  refine ⟨(parseInput_runtime P hparse).2, ?_⟩
                  rintro rfl
                  cases hparse

end

section
variable {input : RunnerInput} {trace : List RunnerEvent}
  {result : Option (Except Thrown EnricherRun)}

/-- The key is asked for once, right after the first read of the signal. -/
theorem keyAnswered_of_mem (run : Runs (runEnricher input) trace result) {answer : Called}
    (h : ⟨.cacheKey, some answer⟩ ∈ trace) :
    KeyAnswered input trace (slotOfKey input (staticTtl input) answer) ∧ needsKey input = true := by
  obtain ⟨before, after, rfl⟩ := List.append_of_mem h
  obtain ⟨hbefore, hneeds⟩ := (uses_of_run run).1 before _ after rfl
  exact ⟨⟨answer, after, by simp [hbefore], rfl⟩, hneeds⟩

theorem keyAnswered_append {past more : List RunnerEvent} {resolution : CacheSlotResolution}
    (h : KeyAnswered input past resolution) : KeyAnswered input (past ++ more) resolution := by
  obtain ⟨answer, rest, rfl, hresolution⟩ := h
  exact ⟨answer, rest ++ more, rfl, hresolution⟩

/-- Without a slot the run performs no cache operation. -/
theorem no_store_of_slotless (run : Runs (runEnricher input) trace result)
    {resolution : CacheSlotResolution} (hkey : KeyAnswered input trace resolution)
    (hslot : resolution.slot = none) : ∀ e ∈ trace, isStoreOp e.op = false := by
  intro e he
  obtain ⟨before, after, rfl⟩ := List.append_of_mem he
  have hallowed := (uses_of_run run).1 before e after rfl
  obtain ⟨op, answer⟩ := e
  cases op with
  | cacheGet key ms =>
      obtain ⟨resolution', slot, hkey', hslot', _⟩ := hallowed
      rw [keyAnswered_unique (keyAnswered_append hkey') hkey, hslot] at hslot'
      cases hslot'
  | cacheSet key report ttlMs ms =>
      obtain ⟨resolution', slot, _, _, hkey', hslot', _⟩ := hallowed
      rw [keyAnswered_unique (keyAnswered_append hkey') hkey, hslot] at hslot'
      cases hslot'
  | _ => rfl

/-- A key that contains the input of a URL subject is refused. -/
theorem slotOfKey_disclosing {key : Text} (hkind : (inspectionSubject input.base).kind = .url)
    (hne : input.base.input ≠ []) (hin : input.base.input <:+: key) :
    slotOfKey input (staticTtl input) (.value (.str key)) = slotError (keyError "unsafe-full-url") := by
  have hkey : key ≠ [] := by
    rintro rfl
    exact hne (List.infix_nil.mp hin)
  have hlength : input.base.input.length > 0 := List.length_pos_iff.mpr hne
  rw [slotOfKey, if_neg hkey, namespacedSlot, if_pos ⟨hkind, hlength, hin⟩]

/-- A key of a host subject is used as it is. -/
theorem slotOfKey_host {key : Text} (hkind : (inspectionSubject input.base).kind ≠ .url)
    (hkey : key ≠ []) : slotOfKey input (staticTtl input) (.value (.str key)) =
      { slot := some { key := slotKey input key, staticTtlMs := staticTtl input } } := by
  rw [slotOfKey, if_neg hkey, namespacedSlot, if_neg fun h => hkind h.1]
  rfl

theorem run_disclosing (hneeds : needsKey input = true)
    (hkind : (inspectionSubject input.base).kind ≠ .url) {key : Text} (hkey : key ≠ []) :
    Runs (runEnricher input)
      [⟨.aborted, some false⟩, ⟨.cacheKey, some (Called.value (.str key))⟩, ⟨.aborted, some false⟩,
        ⟨.cacheGet (slotKey input key) (effectiveTimeoutMs input.enricher.timeoutMs .undefined),
          none⟩] none := by
  rw [needsKey, Bool.and_eq_true, Option.isNone_iff_eq_none] at hneeds
  obtain ⟨hcache, hkeyless⟩ := hneeds
  have hresolve : resolveSlot input = .call .cacheKey fun answer =>
      .ret ((slotOfKey input (staticTtl input) answer).slot,
        (slotOfKey input (staticTtl input) answer).degradation.toList) := by
    rw [resolveSlot, if_pos hcache, cacheSlotFor, hkeyless]
    rfl
  refine .answered ?_
  change Runs (resolveSlot input >>= _) _ _
  rw [hresolve]
  refine .answered ?_
  change Runs (readCache input (slotOfKey input (staticTtl input) (.value (.str key))).slot _ >>= _)
    _ _
  rw [slotOfKey_host hkind hkey]
  exact .answered .waiting

end

/-- A run refuses every key that contains its complete input, unless the input was written without
a scheme and has a host. -/
theorem disclosure_refused_iff {P : Platform} {bodies : CheckBodies} {raw : Text}
    {rawOptions : HostVal} {base : InspectResult} {p : ParsedUrl}
    (h : inspect P bodies (.string raw) rawOptions = .ok base) (hparsed : base.parsed = some p)
    (_hmore : CarriesMore p) (input : RunnerInput) (hbase : input.base = base) :
    DisclosureRefused input ↔
      ¬(needsKey input = true ∧ p.scheme = none ∧ p.effectiveHost ≠ none) := by
  obtain ⟨hinput, hne⟩ := input_of_parsed h hparsed
  have hkind := inspectionSubject_kind hparsed
  have hraw : input.base.input = raw := by rw [hbase, hinput]
  rw [← hbase] at hkind
  constructor
  · rintro hrefused ⟨hneeds, hhost⟩
    have hrun := run_disclosing hneeds (fun hurl => hkind.mp hurl hhost) hne
    obtain ⟨hnone, _⟩ := hrefused _ _ hrun raw (by simp) (by simp [hraw])
    have hget := hnone _ (List.mem_cons_of_mem _ (List.mem_cons_of_mem _ (List.mem_cons_of_mem _
      (List.mem_singleton_self _))))
    cases hget
  · intro hcondition trace result run key hmem hin
    obtain ⟨hkey, hneeds⟩ := keyAnswered_of_mem run hmem
    have hurl := hkind.mpr fun hhost => hcondition ⟨hneeds, hhost⟩
    rw [slotOfKey_disclosing hurl (hraw ▸ hne) hin] at hkey
    exact ⟨no_store_of_slotless run hkey rfl, fun r hr =>
      (uses_of_run run).2 _ hr r rfl _ _ hkey rfl⟩

/-- A cacheable source of an inspection. -/
def keyedInput (base : InspectResult) : RunnerInput where
  enricher :=
    { id := text "dns", layer := .resolution, hasCacheKey := true,
      cacheTtlMs := .num (.fin 60000) }
  base
  previousOutcomes := []
  hasCache := true
  hasGovernor := false

theorem disclosure_refused_iff_scheme : ∃ base p,
    inspect .ascii .silent (.string (text "http://example.com/reset?token=1")) .undefined = .ok base ∧
      base.parsed = some p ∧ (DisclosureRefused (keyedInput base) ↔
        ¬(needsKey (keyedInput base) = true ∧ p.scheme = none ∧ p.effectiveHost ≠ none)) := by
  obtain ⟨base, p, h, hparsed, hquery⟩ : ∃ base p,
      inspect .ascii .silent (.string (text "http://example.com/reset?token=1")) .undefined
        = .ok base ∧ base.parsed = some p ∧ p.query ≠ none := ⟨_, _, rfl, rfl, by decide⟩
  exact ⟨base, p, h, hparsed,
    disclosure_refused_iff h hparsed (Or.inr (Or.inl hquery)) (keyedInput base) rfl⟩

/-- `example.com/reset?token=1` itself is accepted as a key. -/
theorem schemeless_disclosed : ∃ base p,
    inspect .ascii .silent (.string (text "example.com/reset?token=1")) .undefined = .ok base ∧
      base.parsed = some p ∧ CarriesMore p ∧ ¬DisclosureRefused (keyedInput base) := by
  obtain ⟨base, p, h, hparsed, hquery, hscheme, hhost⟩ : ∃ base p,
      inspect .ascii .silent (.string (text "example.com/reset?token=1")) .undefined = .ok base ∧
        base.parsed = some p ∧ p.query ≠ none ∧ p.scheme = none ∧ p.effectiveHost ≠ none :=
    ⟨_, _, rfl, rfl, by decide, rfl, by decide⟩
  refine ⟨base, p, h, hparsed, Or.inr (Or.inl hquery), fun hrefused => ?_⟩
  obtain ⟨hinput, hne⟩ := input_of_parsed h hparsed
  have hkind : (inspectionSubject (keyedInput base).base).kind ≠ .url :=
    fun hurl => (inspectionSubject_kind hparsed).mp hurl ⟨hscheme, hhost⟩
  have hrun := run_disclosing rfl hkind hne
  obtain ⟨hnone, _⟩ := hrefused _ _ hrun _ (List.mem_cons_of_mem _ (List.mem_cons_self ..))
    (by simp [keyedInput, hinput])
  have hget := hnone _ (List.mem_cons_of_mem _ (List.mem_cons_of_mem _ (List.mem_cons_of_mem _
    (List.mem_singleton_self _))))
  cases hget

end Linklint
