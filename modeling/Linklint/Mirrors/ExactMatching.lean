import Linklint.Mirrors.FeedLookup
import Linklint.Parse.LetterCase

/-!
# Matching is exact

A feed answers for an input with the first record whose URL has the canonical text
of the input, and with no other. What it says of that record is gated by the record
and by the age of the snapshot.
-/

namespace Linklint

section
variable (P : Platform) (dates : DateApi) (api : UrlApi) (domainToASCII : Text → Text)

/-- Both texts have a canonical text, and it is the same. -/
def SameForm (raw raw' : Text) : Prop :=
  ∃ key, canonicalizeUrl P api domainToASCII raw = some key ∧
    canonicalizeUrl P api domainToASCII raw' = some key

/-- The first of the records whose URL has the canonical text of the input. -/
def FirstMatch {Record : Type} (url : Record → Text) (records : List Record) (input : Text)
    (record : Record) : Prop :=
  ∃ before after, records = before ++ record :: after ∧
    SameForm P api domainToASCII (url record) input ∧
    ∀ other ∈ before, ¬ SameForm P api domainToASCII (url other) input

/-- The observation is made before the stated expiry. -/
def FreshAt (expiresAt : Option Text) (observedAt : TimeValue) : Prop :=
  ∃ stated instant expiry, expiresAt = some stated ∧ observedAt = some instant ∧
    dates.parse stated = some expiry ∧ instant < expiry

/-- An expiry is stated and is no date. -/
def UnreadableExpiry (expiresAt : Option Text) : Prop :=
  ∃ stated, expiresAt = some stated ∧ dates.parse stated = none

/-- What a feed finds and answers for an input. -/
structure ExactFeed {Record : Type} (url : Record → Text) (records : List Record)
    (eligible : Record → Prop) (code : ReasonCode) (expiresAt : Option Text)
    (observedAt : TimeValue) (input : Text) (found : Option Record)
    (answer : Option EnrichmentOutcome) : Prop where
  first : ∀ record, found = some record ↔ FirstMatch P api domainToASCII url records input record
  absent : found = none ↔ ∀ record ∈ records, ¬ SameForm P api domainToASCII (url record) input
  thrown : answer = none ↔ observedAt = none ∨
    canonicalizeUrl P api domainToASCII input ≠ none ∧ UnreadableExpiry dates expiresAt
  finding : ∀ outcome, answer = some outcome →
    ((∃ finding, some finding ∈ outcome.findings ∧ finding.code = code) ↔
      ∃ record, FirstMatch P api domainToASCII url records input record ∧ eligible record ∧
        FreshAt dates expiresAt observedAt)
  noOther : ∀ outcome, answer = some outcome →
    outcome.findings = [] ∨ ∃ finding, outcome.findings = [some finding] ∧ finding.code = code
  success : ∀ outcome, answer = some outcome →
    (outcome.status = .success ↔ ∃ record, FirstMatch P api domainToASCII url records input record)
  evidence : ∀ outcome, answer = some outcome →
    (outcome.evidence ≠ [] ↔ ∃ record, FirstMatch P api domainToASCII url records input record)
  noHit : ∀ outcome, answer = some outcome →
    (outcome.status = .noHit ↔ canonicalizeUrl P api domainToASCII input ≠ none ∧
      ∀ record ∈ records, ¬ SameForm P api domainToASCII (url record) input)
  skipped : ∀ outcome, answer = some outcome →
    (outcome.status = .skipped ↔ canonicalizeUrl P api domainToASCII input = none)

end

variable {P : Platform} {dates : DateApi} {api : UrlApi} {domainToASCII : Text → Text}
variable {Metadata Record : Type} {url : Record → Text} {metadata : Metadata}
  {records : List Record} {input : Text} {record : Record}

/-! ### What a lookup finds -/

theorem sameForm_iff {raw : Text} : SameForm P api domainToASCII raw input ↔
    ∃ key, canonicalizeUrl P api domainToASCII input = some key ∧
      canonicalizeUrl P api domainToASCII raw = some key :=
  exists_congr fun _ => and_comm

theorem lookup_of_canonical {key : Text} (hkey : canonicalizeUrl P api domainToASCII input = some key) :
    (createIndex P api domainToASCII url metadata records).lookup P api domainToASCII input =
      records.find? fun record => canonicalizeUrl P api domainToASCII (url record) == some key := by
  rw [FeedIndex.lookup, hkey, Option.bind_some]
  apply KeyedIndex.lookup_build

theorem lookup_iff :
    (createIndex P api domainToASCII url metadata records).lookup P api domainToASCII input =
      some record ↔ FirstMatch P api domainToASCII url records input record := by
  simp only [FirstMatch, sameForm_iff]
  cases hkey : canonicalizeUrl P api domainToASCII input with
  | none => simp [FeedIndex.lookup, hkey]
  | some key =>
      rw [lookup_of_canonical hkey, List.find?_eq_some_iff_append]
      constructor
      · rintro ⟨hform, before, after, hsplit, hbefore⟩
        refine ⟨before, after, hsplit, ⟨key, rfl, by simpa using hform⟩, ?_⟩
        rintro other hother ⟨_, heq, hsame⟩
        cases heq
        simpa [hsame] using hbefore other hother
      · rintro ⟨before, after, hsplit, ⟨_, heq, hform⟩, hbefore⟩
        cases heq
        refine ⟨by simpa using hform, before, after, hsplit, ?_⟩
        intro other hother
        have hdiffer := hbefore other hother
        simpa using hdiffer

theorem lookup_none_iff :
    (createIndex P api domainToASCII url metadata records).lookup P api domainToASCII input = none ↔
      ∀ record ∈ records, ¬ SameForm P api domainToASCII (url record) input := by
  simp only [sameForm_iff]
  cases hkey : canonicalizeUrl P api domainToASCII input with
  | none => simp [FeedIndex.lookup, hkey]
  | some key =>
      rw [lookup_of_canonical hkey, List.find?_eq_none]
      simp

theorem FirstMatch.sameForm (h : FirstMatch P api domainToASCII url records input record) :
    record ∈ records ∧ SameForm P api domainToASCII (url record) input := by
  obtain ⟨before, after, rfl, hform, -⟩ := h
  exact ⟨by simp, hform⟩

theorem FirstMatch.canonical (h : FirstMatch P api domainToASCII url records input record) :
    canonicalizeUrl P api domainToASCII input ≠ none := by
  obtain ⟨-, key, -, hinput⟩ := h.sameForm
  simp [hinput]

theorem FirstMatch.unique {record' : Record}
    (h : FirstMatch P api domainToASCII url records input record)
    (h' : FirstMatch P api domainToASCII url records input record') : record = record' := by
  have hlookup := (@lookup_iff P api domainToASCII Unit Record url () records input record).mpr h
  rw [lookup_iff.mpr h'] at hlookup
  exact (Option.some.inj hlookup).symm

theorem FirstMatch.matched (h : FirstMatch P api domainToASCII url records input record) :
    ¬ ∀ record ∈ records, ¬ SameForm P api domainToASCII (url record) input :=
  fun habsent => habsent record h.sameForm.1 h.sameForm.2

/-! ### The age of the snapshot -/

theorem freshnessFor_none {capability : FreshnessCapability} (hdeclares : capability.declaresExpiry = true)
    {observedAt : TimeValue} {expiresAt : Option Text} :
    freshnessFor dates capability observedAt (expiresAt.map dates.parse) = none ↔
      UnreadableExpiry dates expiresAt := by
  cases expiresAt with
  | none => simp [freshnessFor, UnreadableExpiry]
  | some stated => simp [freshnessFor, UnreadableExpiry, hdeclares]

theorem freshnessFor_fresh {capability : FreshnessCapability}
    (hstale : capability.staleWhenExpired = true) {instant : Int} {expiresAt : Option Text}
    (hdeclares : capability.declaresExpiry = true) {freshness : EnrichmentFreshness}
    (h : freshnessFor dates capability (some instant) (expiresAt.map dates.parse) = some freshness) :
    freshness.status = .fresh ↔ FreshAt dates expiresAt (some instant) := by
  cases expiresAt with
  | none =>
      cases h
      simp [FreshAt]
  | some stated =>
      cases hparse : dates.parse stated with
      | none => simp [freshnessFor, hdeclares, hparse] at h
      | some expiry =>
          simp only [freshnessFor, Option.map_some, hdeclares, Bool.not_true, Bool.false_eq_true,
            if_false, hparse, notBefore, hstale, Bool.and_true, decide_eq_true_eq,
            Option.some.injEq] at h
          cases h
          by_cases hexpired : expiry ≤ instant
          · simp [FreshAt, hparse, hexpired, not_lt.mpr hexpired]
          · simp [FreshAt, hparse, hexpired, not_le.mp hexpired]

/-! ### What a feed answers -/

namespace FeedSource

variable {source : FeedSource Metadata Record} {observedAt : TimeValue}

/-- The finding of an eligible record. -/
def finding (source : FeedSource Metadata Record) (record : Record) : EnricherFinding :=
  { code := source.code, detail := source.detail record, confidence := some (19 / 20) }

/-- The kinds of answer and when each is given. -/
inductive Answer (P : Platform) (dates : DateApi) (api : UrlApi) (domainToASCII : Text → Text)
    (source : FeedSource Metadata Record) (url : Record → Text) (metadata : Metadata)
    (records : List Record) (observedAt : TimeValue) (input : Text)
    (outcome : EnrichmentOutcome) : Prop where
  | skipped (uncanonical : canonicalizeUrl P api domainToASCII input = none)
      (status : outcome.status = .skipped) (evidence : outcome.evidence = [])
      (findings : outcome.findings = [])
  | noHit (canonical : canonicalizeUrl P api domainToASCII input ≠ none)
      (absent : ∀ record ∈ records, ¬ SameForm P api domainToASCII (url record) input)
      (status : outcome.status = .noHit) (evidence : outcome.evidence = [])
      (findings : outcome.findings = [])
  | silent (record : Record) (first : FirstMatch P api domainToASCII url records input record)
      (gated : ¬ (source.eligible record = true ∧
        FreshAt dates (source.expiresAt metadata) observedAt))
      (status : outcome.status = .success) (evidence : outcome.evidence ≠ [])
      (findings : outcome.findings = [])
  | accused (record : Record) (first : FirstMatch P api domainToASCII url records input record)
      (gated : source.eligible record = true ∧
        FreshAt dates (source.expiresAt metadata) observedAt)
      (status : outcome.status = .success) (evidence : outcome.evidence ≠ [])
      (findings : outcome.findings = [some (source.finding record)])

theorem outcome_eq_some {status : OutcomeStatus} {freshness : EnrichmentFreshness}
    {evidence : List EnrichmentEvidence} {findings : List EnricherFinding}
    {cause : Option EnrichmentCause} {outcome : EnrichmentOutcome}
    (h : source.outcome dates status input observedAt freshness evidence findings cause =
      some outcome) :
    outcome.status = status ∧ outcome.evidence = evidence.map some ∧
      outcome.findings = findings.map some := by
  obtain ⟨instant, -, rfl⟩ := Option.map_eq_some_iff.mp h
  exact ⟨rfl, rfl, rfl⟩

theorem enrich_answer (hdeclares : source.freshness.declaresExpiry = true)
    (hstale : source.freshness.staleWhenExpired = true) {outcome : EnrichmentOutcome}
    (h : source.enrich P dates api domainToASCII
      (some (createIndex P api domainToASCII url metadata records)) observedAt input = some outcome) :
    source.Answer P dates api domainToASCII url metadata records observedAt input outcome := by
  by_cases hcanonical : canonicalizeUrl P api domainToASCII input = none
  · simp only [enrich, if_pos hcanonical] at h
    obtain ⟨hstatus, hevidence, hfindings⟩ := outcome_eq_some h
    exact .skipped hcanonical hstatus hevidence hfindings
  · simp only [enrich, if_neg hcanonical] at h
    obtain ⟨freshness, hfreshness, h⟩ := Option.bind_eq_some_iff.mp h
    cases hlookup : (createIndex P api domainToASCII url metadata records).lookup P api
        domainToASCII input with
    | none =>
        rw [hlookup] at h
        obtain ⟨hstatus, hevidence, hfindings⟩ := outcome_eq_some h
        exact .noHit hcanonical (lookup_none_iff.mp hlookup) hstatus hevidence hfindings
    | some record =>
        rw [hlookup] at h
        obtain ⟨instant, rfl, h⟩ := Option.bind_eq_some_iff.mp h
        obtain ⟨hstatus, hevidence, hfindings⟩ := outcome_eq_some h
        have hfirst := lookup_iff.mp hlookup
        have hfresh := freshnessFor_fresh hstale hdeclares hfreshness
        by_cases hgate : source.eligible record = true ∧ freshness.status = .fresh
        · rw [if_pos hgate] at hfindings
          exact .accused record hfirst ⟨hgate.1, hfresh.mp hgate.2⟩ hstatus (by simp [hevidence])
            hfindings
        · rw [if_neg hgate] at hfindings
          exact .silent record hfirst (fun hopen => hgate ⟨hopen.1, hfresh.mpr hopen.2⟩) hstatus
            (by simp [hevidence]) hfindings

theorem enrich_eq_none (hdeclares : source.freshness.declaresExpiry = true) :
    source.enrich P dates api domainToASCII
        (some (createIndex P api domainToASCII url metadata records)) observedAt input = none ↔
      observedAt = none ∨ canonicalizeUrl P api domainToASCII input ≠ none ∧
        UnreadableExpiry dates (source.expiresAt metadata) := by
  by_cases hcanonical : canonicalizeUrl P api domainToASCII input = none
  · simp [enrich, hcanonical, skippedOutcome, outcome]
  · have hread : source.snapshotFreshness dates metadata observedAt = none ↔
        UnreadableExpiry dates (source.expiresAt metadata) := freshnessFor_none hdeclares
    simp only [enrich, if_neg hcanonical]
    cases hfreshness : source.snapshotFreshness dates metadata observedAt with
    | none =>
        have hunreadable := hread.mp hfreshness
        simp [createIndex, hfreshness, hcanonical, hunreadable]
    | some freshness =>
        have hreadable : ¬ UnreadableExpiry dates (source.expiresAt metadata) := by
          rw [← hread, hfreshness]
          simp
        cases hlookup : (createIndex P api domainToASCII url metadata records).lookup P api
            domainToASCII input with
        | none => simp [createIndex, hfreshness, hreadable, noHitOutcome, outcome]
        | some record =>
            cases observedAt with
            | none => simp [createIndex, hfreshness, matchOutcome]
            | some instant => simp [createIndex, hfreshness, hreadable, matchOutcome, outcome]

theorem exactFeed (hdeclares : source.freshness.declaresExpiry = true)
    (hstale : source.freshness.staleWhenExpired = true) :
    ExactFeed P dates api domainToASCII url records (fun record => source.eligible record = true)
      source.code (source.expiresAt metadata) observedAt input
      ((createIndex P api domainToASCII url metadata records).lookup P api domainToASCII input)
      (source.enrich P dates api domainToASCII
        (some (createIndex P api domainToASCII url metadata records)) observedAt input) where
  first _ := lookup_iff
  absent := lookup_none_iff
  thrown := enrich_eq_none hdeclares
  finding outcome h := by
    cases enrich_answer hdeclares hstale h with
    | skipped uncanonical status evidence findings =>
        constructor
        · simp [findings]
        · rintro ⟨record, hfirst, -⟩
          exact absurd uncanonical hfirst.canonical
    | noHit canonical absent status evidence findings =>
        constructor
        · simp [findings]
        · rintro ⟨record, hfirst, -⟩
          exact absurd absent hfirst.matched
    | silent record first gated status evidence findings =>
        constructor
        · simp [findings]
        · rintro ⟨record', hfirst, hgate⟩
          rw [first.unique hfirst] at gated
          exact absurd hgate gated
    | accused record first gated status evidence findings =>
        constructor
        · exact fun _ => ⟨record, first, gated⟩
        · exact fun _ => ⟨source.finding record, by simp [findings], rfl⟩
  noOther outcome h := by
    cases enrich_answer hdeclares hstale h with
    | skipped uncanonical status evidence findings => exact Or.inl findings
    | noHit canonical absent status evidence findings => exact Or.inl findings
    | silent record first gated status evidence findings => exact Or.inl findings
    | accused record first gated status evidence findings => exact Or.inr ⟨_, findings, rfl⟩
  success outcome h := by
    cases enrich_answer hdeclares hstale h with
    | skipped uncanonical status evidence findings =>
        simp only [status, reduceCtorEq, false_iff, not_exists]
        exact fun _ hfirst => hfirst.canonical uncanonical
    | noHit canonical absent status evidence findings =>
        simp only [status, reduceCtorEq, false_iff, not_exists]
        exact fun _ hfirst => hfirst.matched absent
    | silent record first gated status evidence findings => simp [status, Exists.intro record first]
    | accused record first gated status evidence findings => simp [status, Exists.intro record first]
  evidence outcome h := by
    cases enrich_answer hdeclares hstale h with
    | skipped uncanonical status evidence findings =>
        simp only [evidence, ne_eq, not_true_eq_false, false_iff, not_exists]
        exact fun _ hfirst => hfirst.canonical uncanonical
    | noHit canonical absent status evidence findings =>
        simp only [evidence, ne_eq, not_true_eq_false, false_iff, not_exists]
        exact fun _ hfirst => hfirst.matched absent
    | silent record first gated status evidence findings =>
        exact iff_of_true evidence ⟨record, first⟩
    | accused record first gated status evidence findings =>
        exact iff_of_true evidence ⟨record, first⟩
  noHit outcome h := by
    cases enrich_answer hdeclares hstale h with
    | skipped uncanonical status evidence findings => simp [status, uncanonical]
    | noHit canonical absent status evidence findings =>
        exact iff_of_true status ⟨canonical, absent⟩
    | silent record first gated status evidence findings =>
        simp only [status, reduceCtorEq, false_iff, not_and]
        exact fun _ => first.matched
    | accused record first gated status evidence findings =>
        simp only [status, reduceCtorEq, false_iff, not_and]
        exact fun _ => first.matched
  skipped outcome h := by
    cases enrich_answer hdeclares hstale h with
    | skipped uncanonical status evidence findings => exact iff_of_true status uncanonical
    | noHit canonical absent status evidence findings => simp [status, canonical]
    | silent record first gated status evidence findings => simp [status, first.canonical]
    | accused record first gated status evidence findings => simp [status, first.canonical]

end FeedSource

/-! ### Both feeds -/

variable (P dates api domainToASCII)

/-- What both feeds find and answer, for every snapshot, instant and input. -/
structure ExactMatching : Prop where
  idempotent : ∀ raw key, canonicalizeUrl P api domainToASCII raw = some key →
    canonicalizeUrl P api domainToASCII key = some key
  sameTarget : ∀ raw raw', SameForm P api domainToASCII raw raw' →
    ∃ url url', api.parse raw.trim = some url ∧ api.parse raw'.trim = some url' ∧
      SameTarget P domainToASCII url url'
  urlhaus : ∀ (snapshot : UrlhausSnapshot) observedAt input,
    let index := createUrlhausIndex P api domainToASCII snapshot
    ExactFeed P dates api domainToASCII UrlhausRecord.url snapshot.records
      (fun record => record.status = .online) .malwareUrlListed snapshot.metadata.expiresAt observedAt
      input (index.lookup P api domainToASCII input)
      (urlhausSource.enrich P dates api domainToASCII (some index) observedAt input)
  phishTank : ∀ (snapshot : PhishTankSnapshot) observedAt input,
    let index := createPhishTankIndex P api domainToASCII snapshot
    ExactFeed P dates api domainToASCII PhishTankRecord.url snapshot.records
      (fun record => record.verified = true ∧ record.online = true) .verifiedPhishListed
      snapshot.metadata.expiresAt observedAt input (index.lookup P api domainToASCII input)
      (phishTankSource.enrich P dates api domainToASCII (some index) observedAt input)
  noSnapshot : ∀ observedAt input outcome,
    (urlhausSource.enrich P dates api domainToASCII none observedAt input = some outcome ∨
      phishTankSource.enrich P dates api domainToASCII none observedAt input = some outcome) →
    outcome.status = .skipped ∧ outcome.evidence = [] ∧ outcome.findings = []

variable {P dates api domainToASCII}

theorem exact_matching (laws : UrlLaws P api domainToASCII) :
    ExactMatching P dates api domainToASCII where
  idempotent _ _ := laws.canonicalizeUrl_idempotent
  sameTarget _ _ := fun ⟨_, hform, hform'⟩ => laws.sameTarget hform hform'
  urlhaus snapshot observedAt input := by
    have heligible (record : UrlhausRecord) :
        urlhausSource.eligible record = true ↔ record.status = .online := by
      simp [urlhausSource]
    have hfeed := @FeedSource.exactFeed P dates api domainToASCII _ _ UrlhausRecord.url
      snapshot.metadata snapshot.records input urlhausSource observedAt rfl rfl
    simp only [heligible] at hfeed
    exact hfeed
  phishTank snapshot observedAt input := by
    have heligible (record : PhishTankRecord) : phishTankSource.eligible record = true ↔
        record.verified = true ∧ record.online = true := by
      simp [phishTankSource]
    have hfeed := @FeedSource.exactFeed P dates api domainToASCII _ _ PhishTankRecord.url
      snapshot.metadata snapshot.records input phishTankSource observedAt rfl rfl
    simp only [heligible] at hfeed
    exact hfeed
  noSnapshot observedAt input outcome := by
    rintro (h | h)
    · exact FeedSource.outcome_eq_some h
    · exact FeedSource.outcome_eq_some h

/-! ### A listed page -/

def LISTED_PAGE : Text := text "http://example.com/a?b"

def listedPage : Url where
  protocol := text "http:"
  username := []
  password := []
  hostname := text "example.com"
  port := []
  pathname := text "/a"
  search := text "?b"
  hash := []

/-- The URL reader on the texts that are read here. -/
def listedApi : UrlApi where
  parse raw :=
    if raw = LISTED_PAGE then some listedPage
    else if raw = text "HTTP://Example.com:80/a?b#c" then some { listedPage with hash := text "#c" }
    else if raw = text "ftp://example.com/" then
      some { listedPage with protocol := text "ftp:", pathname := text "/", search := [] }
    else none
  resolve _ _ := none
  href url := url.origin ++ url.pathname ++ url.search ++ url.hash

theorem listedApi_bare {s : Text} {url : Url} (h : listedApi.parse s = some url)
    (hweb : url.protocol ≠ text "ftp:") : url.bare = listedPage := by
  simp only [listedApi] at h
  split_ifs at h
  · cases h
    rfl
  · cases h
    rfl
  · cases h
    exact absurd rfl hweb

theorem WebUrl.not_ftp {url : Url} (h : WebUrl url) : url.protocol ≠ text "ftp:" := by
  have hdistinct : text "http:" ≠ text "ftp:" ∧ text "https:" ≠ text "ftp:" := by decide
  rcases h.scheme with hscheme | hscheme
  · rw [hscheme]
    exact hdistinct.1
  · rw [hscheme]
    exact hdistinct.2

theorem listedPage_web : WebUrl listedPage where
  scheme := Or.inl rfl
  host u hu := by
    have hvisible : VisibleAscii u := visible_of_all (by decide +kernel) u hu
    have hunits : (listedPage.hostname.all fun u => asciiLower u == u && u != unit '/') = true := by
      decide +kernel
    have hunit := List.all_eq_true.mp hunits u hu
    simp only [Bool.and_eq_true, beq_iff_eq, bne_iff_ne] at hunit
    exact ⟨hvisible, hunit⟩
  literal := by decide +kernel
  port := by simp [listedPage]
  nonDefault := by decide +kernel
  rooted := by decide +kernel
  path u hu := by
    have hvisible : VisibleAscii u := visible_of_all (by decide +kernel) u hu
    have hunits : (listedPage.pathname.all fun u => u != unit '?') = true := by decide +kernel
    have hunit := List.all_eq_true.mp hunits u hu
    rw [bne_iff_ne] at hunit
    exact ⟨hvisible, hunit⟩
  search := by decide +kernel
  query := visible_of_all (by decide +kernel)

theorem WebUrl.of_bare {url : Url} (h : WebUrl url.bare) : WebUrl url :=
  ⟨h.scheme, h.host, h.literal, h.port, h.nonDefault, h.rooted, h.path, h.search, h.query⟩

theorem listedLaws : UrlLaws Platform.ascii listedApi (List.map asciiLower) where
  web s url hparse hscheme := by
    have hweb : url.protocol ≠ text "ftp:" := by
      intro hftp
      rw [hftp] at hscheme
      exact absurd hscheme (by decide +kernel)
    apply WebUrl.of_bare
    rw [listedApi_bare hparse hweb]
    exact listedPage_web
  hostname s url hparse web := by
    refine ⟨listedPage.hostname, ?_⟩
    change url.bare.hostname = _
    rw [listedApi_bare hparse web.not_ftp]
    decide +kernel
  domain s := by
    have hlower : asciiLower ∘ asciiLower = asciiLower := funext asciiLower_idem
    rw [List.map_map, hlower]
  serialized s url hparse web := by
    simp [listedApi, Url.bare, Url.origin, Url.host]
  reparsed s url hparse web := by
    rw [listedApi_bare hparse web.not_ftp]
    decide +kernel

/-- A feed finds a listed page under another spelling of its URL. -/
theorem exact_matching_listed :
    ExactMatching Platform.ascii DateApi.epochSecond listedApi (List.map asciiLower) ∧
      SameForm Platform.ascii listedApi (List.map asciiLower) LISTED_PAGE
        (text "HTTP://Example.com:80/a?b#c") :=
  ⟨exact_matching listedLaws, LISTED_PAGE, by decide +kernel, by decide +kernel⟩

def listingSnapshot : UrlhausSnapshot where
  metadata :=
    { source := URLHAUS_SOURCE_ID, version := URLHAUS_SOURCE_VERSION, etag := none
      lastModified := none, observedAt := text "1970-01-01T00:00:00.000Z", expiresAt := none
      recordCount := 1 }
  records :=
    [{ id := text "1", url := LISTED_PAGE, dateAdded := none, status := .online, lastOnline := none
       threat := none, tags := [], reporter := none }]

/-- No record matches an `ftp:` input, and the feed skips it. -/
theorem ftp_input_skipped :
    ¬ ∀ (P : Platform) (dates : DateApi) (api : UrlApi) (domainToASCII : Text → Text),
      UrlLaws P api domainToASCII → ∀ (snapshot : UrlhausSnapshot) observedAt input outcome,
        urlhausSource.enrich P dates api domainToASCII
          (some (createUrlhausIndex P api domainToASCII snapshot)) observedAt input = some outcome →
        (outcome.status = .noHit ↔
          ∀ record ∈ snapshot.records, ¬ SameForm P api domainToASCII record.url input) := by
  intro h
  have huncanonical : canonicalizeUrl Platform.ascii listedApi (List.map asciiLower)
      (text "ftp://example.com/") = none := by decide +kernel
  have hanswer := h _ .epochSecond _ _ listedLaws listingSnapshot (some 0) (text "ftp://example.com/")
  simp only [FeedSource.enrich, if_pos huncanonical] at hanswer
  have habsurd := (hanswer _ rfl).mpr fun record _ ⟨key, _, hinput⟩ => by
    rw [huncanonical] at hinput
    cases hinput
  cases habsurd

end Linklint
