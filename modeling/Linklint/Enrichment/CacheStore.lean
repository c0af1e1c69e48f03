import Linklint.Enrichment.CacheUse
import Linklint.Enrichment.Protocol
import Linklint.Lib.ExpiringStore

/-!
# Runs that share a cache

A log of the calls of any number of source runs on one in-memory cache, in the
order they are made. What the cache serves is the last report a run has written
for the same source and key, and a run writes only what it has just obtained.
-/

namespace Linklint

open Interaction

/-- `InMemoryEnrichmentCache` -/
abbrev InMemoryEnrichmentCache := ExpiringStore.Store Text Value Rat

/-- One call of a run, with the clock of the cache. -/
structure LoggedCall (ι : Type) where
  run : ι
  now : Rat
  event : RunnerEvent

def storeOp : RunnerOp → Option (ExpiringStore.Op Text Value Rat)
  | .cacheGet key _ => some (.get key)
  | .cacheSet key report ttlMs _ => some (.set key report ttlMs)
  | _ => none

section
variable {ι : Type}

/-- The operations the cache has seen. -/
def storeHistory (log : List (LoggedCall ι)) : List (Rat × ExpiringStore.Op Text Value Rat) :=
  log.filterMap fun call => (storeOp call.event.op).map fun op => (call.now, op)

/-- The state of the cache after a log. -/
def cacheAfter (log : List (LoggedCall ι)) : InMemoryEnrichmentCache :=
  ExpiringStore.after (storeHistory log)

/-- What the cache answers; the deadline or the signal may still come first. -/
def AnswersFrom (cache : InMemoryEnrichmentCache) (now : Rat) : RunnerEvent → Prop
  | ⟨.cacheGet key _, some answer⟩ => answer = .timedOut ∨
      answer = .value ((ExpiringStore.get cache now key).1.getD .undefined)
  | ⟨.cacheSet _ _ _ _, some answer⟩ => answer = .timedOut ∨ answer = .value .undefined
  | _ => True

/-- A signal that has fired stays so. -/
def SignalLatches (trace : List RunnerEvent) : Prop :=
  ∀ before after, trace = before ++ ⟨.aborted, some true⟩ :: after →
    ⟨.aborted, some false⟩ ∉ after

variable [DecidableEq ι]

def eventsOf (log : List (LoggedCall ι)) (i : ι) : List RunnerEvent :=
  (log.filter fun call => call.run = i).map LoggedCall.event

/-- A history of runs that share one cache: each makes the calls of the program up to some point. -/
structure SharedCache (inputs : ι → RunnerInput) (log : List (LoggedCall ι)) : Prop where
  runs : ∀ i, ∃ rest result, Runs (runEnricher (inputs i)) (eventsOf log i ++ rest) result
  latches : ∀ i, SignalLatches (eventsOf log i)
  clock : log.Pairwise fun earlier later => earlier.now ≤ later.now
  answers : ∀ before call after, log = before ++ call :: after →
    AnswersFrom (cacheAfter before) call.now call.event

end

/-! ### What a write is -/

/-- The lifetime of an entry: the dynamic one when it is not `undefined`, else the static one. -/
def TtlRule (input : RunnerInput) (past : List RunnerEvent) (stored : Value) (ttlMs : Rat) : Prop :=
  if input.enricher.cacheTtlMsFor = some true then
    ∃ candidate : Value, ⟨.cacheTtlMsFor stored, some (Called.value candidate)⟩ ∈ past ∧
      (candidate = .num (.fin ttlMs) ∨
        candidate.isUndefined = true ∧ staticTtl input = some ttlMs)
  else staticTtl input = some ttlMs

/-- What a run may write to its cache after the calls it has made. -/
structure WriteRule (input : RunnerInput) (past : List RunnerEvent) (key : Text) (stored : Value)
    (ttlMs : Rat) : Prop where
  fresh : ∃ (output : Value) (previousOutcomes : List (Option EnrichmentOutcome)) (ms : Option Rat),
    ⟨.enrich previousOutcomes ms, some (Bounded.value output)⟩ ∈ past ∧
      Normalized input.enricher input.base output stored
  completed : ∀ item ∈ (readReport stored).outcomes,
    ∃ outcome, item = some outcome ∧ isCompleted outcome = true
  available : ∀ outcome, some outcome ∈ (readReport stored).outcomes →
    outcome.provenance.kind ≠ .unavailable
  missed : (ledger past).hits = 0
  uncancelled : ⟨.aborted, some true⟩ ∉ past
  keyed : ∃ k, ⟨.cacheKey, some (Called.value (.str k))⟩ ∈ past ∧ key = slotKey input k
  ttl_pos : 0 < ttlMs
  ttl : TtlRule input past stored ttlMs

theorem ttlOfCandidate_some {staticTtlMs : Option Rat} {candidate : Value} {ttlMs : Rat}
    (h : (ttlOfCandidate staticTtlMs candidate).ttlMs = some ttlMs) :
    (candidate = .num (.fin ttlMs) ∧ 0 < ttlMs) ∨
      (candidate.isUndefined = true ∧ staticTtlMs = some ttlMs) := by
  match candidate with
  | .undefined => exact Or.inr ⟨rfl, h⟩
  | .num n =>
      obtain ⟨hpos, hn⟩ := positiveFinite_pos h
      exact Or.inl ⟨hn, hpos⟩
  | .null => cases h
  | .bool _ => cases h
  | .str _ => cases h
  | .arr _ => cases h
  | .obj _ => cases h
  | .other => cases h

theorem enriches_note (l : Ledger) (e : RunnerEvent) : l.enriches ≤ (l.note e).enriches := by
  obtain ⟨op, answer⟩ := e
  cases op with
  | aborted => rcases answer with _ | _ | _ <;> simp [Ledger.note]
  | _ => simp [Ledger.note]

theorem enriches_pos {trace : List RunnerEvent}
    {previousOutcomes : List (Option EnrichmentOutcome)} {ms : Option Rat} {answer : Option Bounded}
    (h : ⟨.enrich previousOutcomes ms, answer⟩ ∈ trace) : 0 < (ledger trace).enriches := by
  induction trace using List.reverseRecOn with
  | nil => cases h
  | append_singleton trace e ih =>
      rw [ledger_snoc]
      rcases List.mem_append.mp h with h | h
      · exact Nat.lt_of_lt_of_le (ih h) (enriches_note _ e)
      · rw [← List.mem_singleton.mp h]
        exact Nat.succ_pos _

section
variable {input : RunnerInput} {result : Option (Except Thrown EnricherRun)}
  {before after : List RunnerEvent}

/-- A run that has called its provider has not been served by its cache. -/
theorem missed_of_enrich (run : Runs (runEnricher input) (before ++ after) result)
    {previousOutcomes : List (Option EnrichmentOutcome)} {ms : Option Rat} {answer : Option Bounded}
    (h : ⟨.enrich previousOutcomes ms, answer⟩ ∈ before) : (ledger before).hits = 0 := by
  obtain ⟨phase, hfollows, _⟩ := phase_of_run run
  obtain ⟨s, hbefore, _⟩ := hfollows.cut
  have hledger := (pastOf_follows hbefore).ledger
  obtain ⟨_, _, _, hhits⟩ := ledger_bounds input.hasGovernor s
  have hpos := enriches_pos h
  rw [hledger] at hpos ⊢
  by_contra hne
  have hnone := (hhits (Nat.pos_of_ne_zero hne)).2
  omega

theorem writeRule_of_run {key : Text} {stored : Value} {ttlMs : Rat} {ms : Option Rat}
    {answer : Option Bounded}
    (run : Runs (runEnricher input) (before ++ ⟨.cacheSet key stored ttlMs ms, answer⟩ :: after) result)
    (latches : SignalLatches before) : WriteRule input before key stored ttlMs := by
  obtain ⟨resolution, slot, output, report, hkey, hslot, rfl, hstored, hwritten⟩ :=
    (uses_of_run run).1 before _ after rfl
  obtain ⟨keyAnswer, rest, hbefore, rfl⟩ := hkey
  obtain ⟨⟨k, rfl, rfl⟩, _⟩ := slot_of_key hslot
  rw [clone_of_normalized hwritten.normalized] at hstored
  subst hstored
  obtain ⟨previousOutcomes, timeout, hdelivered⟩ := hwritten.delivered
  have hpositive : ∀ q, staticTtl input = some q → 0 < q := fun q hq => (positiveFinite_pos hq).1
  obtain ⟨hpos, httl⟩ : 0 < ttlMs ∧ TtlRule input before stored ttlMs := by
    have httl := hwritten.ttl
    rw [TtlOf, clone_of_normalized hwritten.normalized] at httl
    rw [TtlRule]
    split at httl
    · rw [if_pos ‹_›]
      obtain ⟨candidate, hmem, hcandidate⟩ := httl
      rcases ttlOfCandidate_some hcandidate with ⟨hn, hpos⟩ | ⟨hundefined, hstatic⟩
      · exact ⟨hpos, candidate, hmem, Or.inl hn⟩
      · exact ⟨hpositive _ hstatic, candidate, hmem, Or.inr ⟨hundefined, hstatic⟩⟩
    · rw [if_neg ‹_›]
      exact ⟨hpositive _ httl, httl⟩
  refine
    { fresh := ⟨output, previousOutcomes, timeout, hdelivered, hwritten.normalized⟩
      completed := hwritten.completed
      available := fun outcome => available_of_normalized hwritten.normalized
      missed := missed_of_enrich run hdelivered
      uncancelled := ?_
      keyed := ⟨k, by simp [hbefore], rfl⟩
      ttl_pos := hpos
      ttl := httl }
  intro hfired
  obtain ⟨earlier, hlast⟩ := hwritten.unaborted
  rw [hlast] at hfired
  rcases List.mem_append.mp hfired with hfired | hfired
  · obtain ⟨a, b, rfl⟩ := List.append_of_mem hfired
    exact latches a (b ++ [⟨.aborted, some false⟩]) (by simp [hlast]) (by simp)
  · simp only [List.mem_singleton, Event.mk.injEq, heq_eq_eq, true_and] at hfired
    cases hfired

end

/-! ### What a hit is -/

section
variable {input : RunnerInput} {phase phase' : Phase} {trace : List RunnerEvent}

theorem step_of_hit {cached : Value} {e : RunnerEvent} (h : Step input (.hit cached) e phase') :
    phase' = .hit cached := by
  generalize hsource : Phase.hit cached = source at h
  cases h with
  | quiet still hop answer => rfl
  | _ => cases hsource

theorem follows_of_hit {cached : Value} (h : Follows (Step input) (.hit cached) trace phase) :
    phase = .hit cached := by
  generalize hsource : Phase.hit cached = source at h
  induction h with
  | nil => rfl
  | cons head _ ih =>
      subst hsource
      have hhead := step_of_hit head
      rw [ih hhead.symm, hhead]

theorem step_cacheGet {key : Text} {ms : Option Rat} {answer : Option Bounded}
    (h : Step input phase ⟨.cacheGet key ms, answer⟩ phase') : phase' = afterRead answer := by
  generalize hevent : (⟨.cacheGet key ms, answer⟩ : RunnerEvent) = e at h
  cases h with
  | reading answer' =>
      cases hevent
      rfl
  | quiet still hop answer' =>
      cases hevent
      cases hop
  | @completed governed output dense operation hrecord answer' => cases operation <;> cases hevent
  | _ => cases hevent

/-- A run that was served reports what the boundary made of the cached value. -/
theorem report_of_hit {run : EnricherRun} (h : Runs (runEnricher input) trace (some (.ok run)))
    {key : Text} {ms : Option Rat} {v : Value}
    (hget : ⟨.cacheGet key ms, some (Bounded.value v)⟩ ∈ trace) (hv : v.isUndefined = false) :
    ∃ source framework, ReportOf input source run.report framework ∧
      ∀ report, source = some report →
        normalizeCachedReport input.enricher v = .ok (some report) := by
  obtain ⟨phase, hfollows, hconcluded⟩ := phase_of_run h
  obtain ⟨before, after, rfl⟩ := List.append_of_mem hget
  obtain ⟨s₁, s₂, _, hstep, hafter⟩ := hfollows.split
  have hhit : s₂ = .hit v := by
    rw [step_cacheGet hstep]
    simp [afterRead, hv]
  subst hhit
  obtain ⟨_, _, source, framework, hreport, hsource⟩ := hconcluded _ rfl
  rw [follows_of_hit hafter] at hsource
  exact ⟨source, framework, hreport, hsource⟩

end

/-! ### The history -/

theorem slotKey_injective {input input' : RunnerInput} {key key' : Text}
    (h : slotKey input key = slotKey input' key') : input.token = input'.token ∧ key = key' := by
  simpa using jsonStrings_injective h

section
variable {ι : Type} [DecidableEq ι] {inputs : ι → RunnerInput}
  {log before after : List (LoggedCall ι)} {call : LoggedCall ι}

/-- The write of a report under the key of a source. -/
def LoggedCall.WritesReport (call : LoggedCall ι) (token key : Text) (report : Value) (ttlMs : Rat) :
    Prop :=
  ∃ (ms : Option Rat) (answer : Option Bounded), call.event =
    ⟨.cacheSet (jsonStrings [ENRICHMENT_CACHE_NAMESPACE, token, key]) report ttlMs ms, answer⟩

/-- The last report written for a source and a key. -/
def LastReport (log : List (LoggedCall ι)) (token key : Text) (write : LoggedCall ι) (report : Value)
    (ttlMs : Rat) : Prop :=
  ∃ before later, log = before ++ write :: later ∧ write.WritesReport token key report ttlMs ∧
    ∀ call ∈ later, ∀ report ttlMs, ¬call.WritesReport token key report ttlMs

/-- What the cache is to do for the runs that share it. -/
structure CacheDiscipline (inputs : ι → RunnerInput) (log : List (LoggedCall ι)) : Prop where
  writes : ∀ before call after, log = before ++ call :: after →
    ∀ (key : Text) (stored : Value) (ttlMs : Rat) (ms : Option Rat) (answer : Option Bounded),
      call.event = ⟨.cacheSet key stored ttlMs ms, answer⟩ →
        WriteRule (inputs call.run) (eventsOf before call.run) key stored ttlMs
  /-- What a read yields is the last report written for the same source and key, still alive. -/
  serves : ∀ before call after, log = before ++ call :: after →
    ∀ (storeKey : Text) (ms : Option Rat) (v : Value),
      call.event = ⟨.cacheGet storeKey ms, some (Bounded.value v)⟩ → v.isUndefined = false →
        ∃ key write ttlMs,
          ⟨.cacheKey, some (Called.value (.str key))⟩ ∈ eventsOf before call.run ∧
            storeKey = slotKey (inputs call.run) key ∧
            LastReport before (inputs call.run).token key write v ttlMs ∧
            write.now ≤ call.now ∧ call.now < write.now + ttlMs
  /-- A hit reports the value read, without an outcome of the framework, or refuses it. -/
  hits : ∀ i run, Runs (runEnricher (inputs i)) (eventsOf log i) (some (.ok run)) →
    ∀ (storeKey : Text) (ms : Option Rat) (v : Value),
      ⟨.cacheGet storeKey ms, some (Bounded.value v)⟩ ∈ eventsOf log i → v.isUndefined = false →
        ∃ source framework, ReportOf (inputs i) source run.report framework ∧
          ∀ report, source = some report → report = v ∧
            ∀ outcome, some outcome ∈ (readReport report).outcomes →
              outcome.provenance.kind ≠ .unavailable
  distinct : ∀ i j key key', slotKey (inputs i) key = slotKey (inputs j) key' →
    (inputs i).token = (inputs j).token ∧ key = key'

theorem eventsOf_split (hlog : log = before ++ call :: after) :
    eventsOf log call.run = eventsOf before call.run ++ call.event :: eventsOf after call.run := by
  simp [eventsOf, hlog]

theorem writeRule_of_call (h : SharedCache inputs log) (hlog : log = before ++ call :: after)
    {key : Text} {stored : Value} {ttlMs : Rat} {ms : Option Rat} {answer : Option Bounded}
    (hcall : call.event = ⟨.cacheSet key stored ttlMs ms, answer⟩) :
    WriteRule (inputs call.run) (eventsOf before call.run) key stored ttlMs := by
  obtain ⟨rest, result, run⟩ := h.runs call.run
  have hevents := eventsOf_split hlog
  rw [hevents, hcall, List.append_assoc, List.cons_append] at run
  refine writeRule_of_run run fun earlier later hsplit hmem => ?_
  refine h.latches call.run earlier (later ++ call.event :: eventsOf after call.run) ?_
    (List.mem_append_left _ hmem)
  rw [hevents, hsplit]
  simp

/-- The last write the cache has seen, as a call of the log. -/
theorem lastReport_of_lastWrite (h : SharedCache inputs log) (hlog : log = before ++ call :: after)
    {token key : Text} {stamp ttlMs : Rat} {v : Value}
    (hlast : ExpiringStore.LastWrite (storeHistory before)
      (jsonStrings [ENRICHMENT_CACHE_NAMESPACE, token, key]) stamp v ttlMs) :
    ∃ write, LastReport before token key write v ttlMs ∧ write ∈ before ∧ write.now = stamp := by
  obtain ⟨pre, later, hhistory, _, hlater⟩ := hlast
  obtain ⟨earlier, rest, rfl, _, hrest⟩ := List.filterMap_eq_append_iff.mp hhistory
  obtain ⟨skipped, write, later', rfl, _, hwrite, hlater'⟩ := List.filterMap_eq_cons_iff.mp hrest
  obtain ⟨run, now, op, answer⟩ := write
  refine ⟨⟨run, now, op, answer⟩, ⟨earlier ++ skipped, later', by simp, ?_, ?_⟩, by simp, ?_⟩
  · cases op with
    | cacheSet =>
        cases hwrite
        exact ⟨_, _, rfl⟩
    | _ => cases hwrite
  · intro other hother report ttl hwrites
    obtain ⟨ms, answer', hevent⟩ := hwrites
    obtain ⟨a, b, rfl⟩ := List.append_of_mem hother
    have hsplit : log = (earlier ++ skipped ++ ⟨run, now, op, answer⟩ :: a) ++ other ::
        (b ++ call :: after) := by
      rw [hlog]
      simp
    have hrule := writeRule_of_call h hsplit hevent
    refine hlater (other.now, .set _ report ttl) ?_ ⟨rfl, hrule.ttl_pos⟩
    rw [← hlater', List.mem_filterMap]
    exact ⟨other, by simp, by simp [hevent, storeOp]⟩
  · cases op with
    | cacheSet =>
        cases hwrite
        rfl
    | _ => cases hwrite

/-- What a read of the shared cache yields. -/
theorem read_fresh (h : SharedCache inputs log) (hlog : log = before ++ call :: after)
    {storeKey : Text} {ms : Option Rat} {v : Value}
    (hcall : call.event = ⟨.cacheGet storeKey ms, some (Bounded.value v)⟩)
    (hv : v.isUndefined = false) :
    ∃ key write ttlMs,
      ⟨.cacheKey, some (Called.value (.str key))⟩ ∈ eventsOf before call.run ∧
        storeKey = slotKey (inputs call.run) key ∧
        LastReport before (inputs call.run).token key write v ttlMs ∧
        write.now ≤ call.now ∧ call.now < write.now + ttlMs := by
  obtain ⟨rest, result, run⟩ := h.runs call.run
  rw [eventsOf_split hlog, hcall, List.append_assoc, List.cons_append] at run
  obtain ⟨resolution, slot, hkey, hslot, rfl⟩ := (uses_of_run run).1 _ _ _ rfl
  obtain ⟨keyAnswer, tail, hbefore, rfl⟩ := hkey
  obtain ⟨⟨key, rfl, rfl⟩, _⟩ := slot_of_key hslot
  have hanswer := h.answers before call after hlog
  rw [hcall] at hanswer
  obtain ⟨stamp, ttlMs, hlast, halive⟩ : ∃ stamp ttlMs,
      ExpiringStore.LastWrite (storeHistory before) (slotKey (inputs call.run) key) stamp v ttlMs ∧
        call.now < stamp + ttlMs := by
    rcases hanswer with hanswer | hanswer
    · cases hanswer
    · refine ExpiringStore.get_fresh ?_
      have hget := Bounded.value.inj hanswer
      cases hfound : (ExpiringStore.get (cacheAfter before) call.now
          (slotKey (inputs call.run) key)).1 with
      | none =>
          rw [hget, hfound] at hv
          cases hv
      | some found =>
          rw [hget, hfound, Option.getD_some]
          exact hfound
  obtain ⟨write, hwrite, hmem, rfl⟩ := lastReport_of_lastWrite h hlog hlast
  refine ⟨key, write, ttlMs, by simp [hbefore], rfl, hwrite, ?_, halive⟩
  have hclock := h.clock
  rw [hlog, List.pairwise_append] at hclock
  exact hclock.2.2 write hmem call (List.mem_cons_self ..)

/-- A value the shared cache yields is a normalized report. -/
theorem normalized_of_lastReport (h : SharedCache inputs log)
    (hlog : log = before ++ call :: after) {token key : Text} {write : LoggedCall ι} {v : Value}
    {ttlMs : Rat} (hlast : LastReport before token key write v ttlMs) :
    cloneEnrichmentReport v = v := by
  obtain ⟨earlier, later, rfl, ⟨ms, answer, hwrite⟩, _⟩ := hlast
  have hsplit : log = earlier ++ write :: (later ++ call :: after) := by
    rw [hlog]
    simp
  obtain ⟨output, previousOutcomes, timeout, _, hnormalized⟩ := (writeRule_of_call h hsplit hwrite).fresh
  exact clone_of_normalized hnormalized

end

/-! ### A write and a hit -/

section
variable {ι : Type}

/-- Every call of a log is met with what came before it. -/
def MetBy (met : List (LoggedCall ι) → LoggedCall ι → Prop) :
    List (LoggedCall ι) → List (LoggedCall ι) → Prop
  | _, [] => True
  | past, call :: rest => met past call ∧ MetBy met (past ++ [call]) rest

theorem MetBy.split {met : List (LoggedCall ι) → LoggedCall ι → Prop}
    {past log before after : List (LoggedCall ι)} {call : LoggedCall ι} (h : MetBy met past log)
    (hlog : log = before ++ call :: after) : met (past ++ before) call := by
  induction log generalizing past before with
  | nil => cases before <;> cases hlog
  | cons first rest ih =>
      cases before with
      | nil =>
          cases hlog
          simpa using h.1
      | cons b before =>
          obtain ⟨rfl, hrest⟩ := List.cons.inj hlog
          simpa using ih h.2 hrest

end

/-- A cacheable source whose entries live for a minute. -/
def cachedInput : RunnerInput where
  enricher :=
    { id := text "dns", layer := .resolution, hasCacheKey := true, cacheTtlMs := .num (.fin 60000) }
  base := governedInput.base
  previousOutcomes := []
  hasCache := true
  hasGovernor := false

def storedReport : Value :=
  cloneEnrichmentReport (legacyReport cachedInput.enricher cachedInput.base
    (text "2026-01-01T00:00:00Z") (.arr []))

def cachedKey : Text := slotKey cachedInput (text "a.example")

/-- The calls of a run up to its cache read. -/
def readCalls (cached : Value) : List RunnerEvent :=
  [⟨.aborted, some false⟩, ⟨.cacheKey, some (Called.value (.str (text "a.example")))⟩,
    ⟨.aborted, some false⟩, ⟨.cacheGet cachedKey (some 5000), some (Bounded.value cached)⟩]

/-- The rest of a run whose provider found nothing. -/
def writeCalls : List RunnerEvent :=
  [⟨.enrich [] (some 5000), some (Bounded.value (.arr []))⟩, ⟨.aborted, some false⟩,
    ⟨.clock, some (text "2026-01-01T00:00:00Z")⟩, ⟨.aborted, some false⟩,
    ⟨.cacheSet cachedKey storedReport 60000 (some 5000), some (Bounded.value .undefined)⟩]

/-- One run writes its report, and ten milliseconds later another is served with it. -/
def sharedLog : List (LoggedCall Bool) :=
  ((readCalls .undefined ++ writeCalls).map fun event => { run := false, now := 0, event }) ++
    (readCalls storedReport).map fun event => { run := true, now := 10, event }

def cachedSlot : CacheSlot := { key := cachedKey, staticTtlMs := some 60000 }

theorem slotOfKey_cached : slotOfKey cachedInput (staticTtl cachedInput)
    (.value (.str (text "a.example"))) = { slot := some cachedSlot } := by
  have hne : text "a.example" ≠ [] := by decide
  have hshort : (text "a.example").length < (text "http://a.example/").length := by decide
  have hguard : ¬((inspectionSubject cachedInput.base).kind = .url
      ∧ cachedInput.base.input.length > 0 ∧ cachedInput.base.input <:+: text "a.example") :=
    fun h => absurd h.2.2.length_le (Nat.not_le.mpr hshort)
  have hstatic : staticTtl cachedInput = some 60000 := rfl
  rw [slotOfKey, if_neg hne, namespacedSlot, if_neg hguard, hstatic, cachedSlot, cachedKey, slotKey]

theorem run_read (cached : Value) {trace : List RunnerEvent}
    {result : Option (Except Thrown EnricherRun)}
    (rest : Runs (if cached.isUndefined then runFresh cachedInput (some cachedSlot) []
      else serveCached cachedInput cached []) trace result) :
    Runs (runEnricher cachedInput) (readCalls cached ++ trace) result := by
  have hresolve : resolveSlot cachedInput = .call .cacheKey fun answer =>
      .ret ((slotOfKey cachedInput (staticTtl cachedInput) answer).slot,
        (slotOfKey cachedInput (staticTtl cachedInput) answer).degradation.toList) := by
    have hkeyless : keylessSlot cachedInput = none := rfl
    have hcache : cachedInput.hasCache = true := rfl
    rw [resolveSlot, if_pos hcache, cacheSlotFor, hkeyless]
    rfl
  refine .answered ?_
  change Runs (resolveSlot cachedInput >>= _) _ _
  rw [hresolve]
  refine .answered ?_
  beta_reduce
  rw [slotOfKey_cached]
  refine .answered (.answered ?_)
  change Runs ((if cached.isUndefined then .ret (CacheRead.miss [])
    else .ret (CacheRead.hit cached []) : RunnerProg CacheRead) >>= _) _ _
  cases hcached : cached.isUndefined with
  | true => simpa [hcached] using rest
  | false => simpa [hcached] using rest

theorem storedReport_normalized :
    Normalized cachedInput.enricher cachedInput.base (.arr []) storedReport :=
  .legacy _ rfl

theorem run_write : ∃ report, Runs (runEnricher cachedInput) (readCalls .undefined ++ writeCalls)
    (some (.ok { token := cachedInput.token, report })) := by
  refine ⟨{ outcomes := (readReport storedReport).outcomes ++ [] }, run_read _ ?_⟩
  have hfailed : outcomesSome isFailure (readReport storedReport).outcomes = .ok false := rfl
  have hcompleted : outcomesEvery isCompleted (readReport storedReport).outcomes = .ok true := rfl
  have hsettle : settleReport cachedInput (some cachedSlot) storedReport [] =
      writeCache cachedInput cachedSlot storedReport [] >>= fun degradations =>
        settleWith cachedInput (readReport storedReport) degradations := by
    rw [settleReport, hfailed, hcompleted]
    rfl
  refine .answered (.answered (.answered ?_))
  change Runs (settleReport cachedInput (some cachedSlot) storedReport []) _ _
  rw [hsettle, writeCache, clone_of_normalized storedReport_normalized]
  refine .answered (.answered ?_)
  exact .ret

theorem run_hit : ∃ report, Runs (runEnricher cachedInput) (readCalls storedReport)
    (some (.ok { token := cachedInput.token, report })) := by
  have hserve : serveCached cachedInput storedReport [] =
      settleWith cachedInput (readReport storedReport) [] := by
    rw [serveCached]
    rfl
  have hrest : Runs (serveCached cachedInput storedReport []) [] (some (.ok
      { token := cachedInput.token,
        report := { outcomes := (readReport storedReport).outcomes ++ [] } })) := by
    rw [hserve]
    exact .ret
  exact ⟨_, run_read storedReport hrest⟩

theorem sharedLog_answers : MetBy (fun past call => AnswersFrom (cacheAfter past) call.now call.event)
    [] sharedLog := by
  refine ⟨trivial, trivial, trivial, Or.inr rfl, trivial, trivial, trivial, trivial, Or.inr rfl,
    trivial, trivial, trivial, Or.inr ?_, trivial⟩
  have hlive : ¬(60000 : Rat) ≤ 10 := by decide
  simp [cacheAfter, storeHistory, storeOp, ExpiringStore.after, ExpiringStore.Op.apply,
    ExpiringStore.set, ExpiringStore.get, hlive]
  rfl

def isFired : RunnerEvent → Bool
  | ⟨.aborted, some true⟩ => true
  | _ => false

theorem latches_of_unfired {trace : List RunnerEvent} (h : trace.any isFired = false) :
    SignalLatches trace := by
  rintro before after rfl
  simp [isFired] at h

theorem eventsOf_writer : eventsOf sharedLog false = readCalls .undefined ++ writeCalls := rfl

theorem eventsOf_reader : eventsOf sharedLog true = readCalls storedReport := rfl

theorem sharedCache_sharedLog : SharedCache (fun _ => cachedInput) sharedLog where
  runs := by
    rintro (_ | _)
    · obtain ⟨report, run⟩ := run_write
      exact ⟨[], _, by simpa [eventsOf_writer] using run⟩
    · obtain ⟨report, run⟩ := run_hit
      exact ⟨[], _, by simpa [eventsOf_reader] using run⟩
  latches := by
    rintro (_ | _)
    · rw [eventsOf_writer]
      exact latches_of_unfired rfl
    · rw [eventsOf_reader]
      exact latches_of_unfired rfl
  clock := by
    simp [sharedLog, readCalls, writeCalls]
  answers := fun before call after hlog => by simpa using sharedLog_answers.split hlog

end Linklint
