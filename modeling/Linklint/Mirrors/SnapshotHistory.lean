import Linklint.Mirrors.AtomicUpdate
import Linklint.Mirrors.PhishTank
import Linklint.Reputation.RdapBootstrap

/-!
# Histories of the snapshot stores

The three updaters over any sequence of calls: every call is atomic, and what is
stored always describes itself.
-/

namespace Linklint

open Interaction

/-- The two conditional headers of a request of a CSV feed. -/
def MirrorHttpRequest.conditions (request : MirrorHttpRequest) : Option Text × Option Text :=
  (request.headers.lookup (text "If-None-Match"), request.headers.lookup (text "If-Modified-Since"))

def RdapHttpRequest.conditions (request : RdapHttpRequest) : Option Text × Option Text :=
  (request.conditional.bind (·.ifNoneMatch), request.conditional.bind (·.ifModifiedSince))

theorem lookup_conditionalHeaders (previous : Option SnapshotStamp) :
    (conditionalHeaders previous).lookup (text "If-None-Match") = previous.bind (·.etag) ∧
      (conditionalHeaders previous).lookup (text "If-Modified-Since") =
        previous.bind (·.lastModified) := by
  have hnames : (text "If-Modified-Since" == text "If-None-Match") = false := by decide
  have hnames' : (text "If-None-Match" == text "If-Modified-Since") = false := by decide
  cases previous with
  | none => exact ⟨rfl, rfl⟩
  | some stamp =>
      cases hetag : stamp.etag <;> cases hmodified : stamp.lastModified <;>
        simp [conditionalHeaders, hetag, hmodified, List.lookup_cons, hnames, hnames']

theorem conditions_of_headers {url own value : Text} {previous : Option SnapshotStamp}
    (hetag : (text "If-None-Match" == own) = false)
    (hmodified : (text "If-Modified-Since" == own) = false) :
    (MirrorHttpRequest.mk url ((own, value) :: conditionalHeaders previous)).conditions =
      (previous.bind (·.etag), previous.bind (·.lastModified)) := by
  obtain ⟨hfirst, hsecond⟩ := lookup_conditionalHeaders previous
  simp [MirrorHttpRequest.conditions, List.lookup_cons, hetag, hmodified, hfirst, hsecond]

theorem conditions_of_validators (url : Text) (previous : Option SnapshotStamp) :
    (RdapHttpRequest.mk url (conditionalValidators previous)).conditions =
      (previous.bind (·.etag), previous.bind (·.lastModified)) := by
  cases previous with
  | none => rfl
  | some stamp =>
      by_cases hnone : stamp.etag = none ∧ stamp.lastModified = none
      · simp [RdapHttpRequest.conditions, conditionalValidators, hnone]
      · simp [RdapHttpRequest.conditions, conditionalValidators, hnone]

section
variable (P : Platform) (dates : DateApi) (api : UrlApi) (parseJson : Text → Option Value)

/-- The instant of a snapshot and its expiry. -/
def Dated (now : Int) (cadenceMs : Option Rat) (stamp : SnapshotStamp) : Prop :=
  dates.toISOString now = some stamp.observedAt ∧
    match cadenceMs with
    | none => stamp.expiresAt = none
    | some cadence => ∃ expiry, stamp.expiresAt = some expiry ∧
        dates.toISOString (now + cadence) = some expiry

theorem dated_of_stamped {response : FeedResponse} {now : Int} {cadenceMs : Option Rat}
    {stamp : SnapshotStamp} (h : Feed.Stamped P dates response now cadenceMs stamp) :
    Dated dates now cadenceMs stamp := by
  refine ⟨h.observedAt, ?_⟩
  cases cadenceMs with
  | none => exact h.unlimited rfl
  | some cadence => exact h.expiresAt cadence rfl

/-- A stored snapshot of URLhaus describes its records. -/
structure UrlhausDescribes (now : Int) (cadenceMs : Option Rat) (snapshot : UrlhausSnapshot) :
    Prop where
  recordCount : snapshot.metadata.recordCount = snapshot.records.length
  dated : Dated dates now cadenceMs snapshot.metadata.toSnapshotStamp

structure PhishTankDescribes (now : Int) (cadenceMs : Option Rat) (snapshot : PhishTankSnapshot) :
    Prop where
  recordCount : snapshot.metadata.recordCount = snapshot.records.length
  dated : Dated dates now cadenceMs snapshot.metadata.toSnapshotStamp

structure RdapDescribes (now : Int) (cadenceMs : Option Rat) (snapshot : RdapBootstrapSnapshot) :
    Prop where
  serviceCount : snapshot.metadata.serviceCount = snapshot.registry.services.length
  registryVersion : snapshot.metadata.registryVersion = snapshot.registry.version
  registryPublication : snapshot.metadata.registryPublication = snapshot.registry.publication
  dated : Dated dates now cadenceMs snapshot.metadata.toSnapshotStamp

/-- The three stores of a caller. -/
structure Stores where
  urlhaus : Option UrlhausSnapshot
  phishtank : Option PhishTankSnapshot
  rdap : Option RdapBootstrapSnapshot

/-- A call of one of the updaters, with what it did and what it returned. -/
inductive UpdateCall where
  | urlhaus (options : UpdateUrlhausSnapshotOptions)
      (trace : List (FeedEvent UrlhausSnapshotMetadata UrlhausSnapshot MirrorHttpRequest))
      (result : Option
        (Option (UpdateResult UrlhausSnapshotMetadata UrlhausSnapshot UrlhausCauseCode)))
  | phishtank (options : UpdatePhishTankSnapshotOptions)
      (trace : List (FeedEvent PhishTankSnapshotMetadata PhishTankSnapshot MirrorHttpRequest))
      (result : Option
        (Option (UpdateResult PhishTankSnapshotMetadata PhishTankSnapshot PhishTankCauseCode)))
  | rdap (options : UpdateRdapBootstrapOptions)
      (trace : List (FeedEvent RdapBootstrapSnapshotMetadata RdapBootstrapSnapshot RdapHttpRequest))
      (result : Option (Option
        (UpdateResult RdapBootstrapSnapshotMetadata RdapBootstrapSnapshot RdapBootstrapCauseCode)))

/-- One call from the stores it finds to the stores it leaves. -/
inductive CallStep : Stores → UpdateCall → Stores → Prop
  | urlhaus {stores : Stores} {options : UpdateUrlhausSnapshotOptions}
      {trace : List (FeedEvent UrlhausSnapshotMetadata UrlhausSnapshot MirrorHttpRequest)}
      {result : Option
        (Option (UpdateResult UrlhausSnapshotMetadata UrlhausSnapshot UrlhausCauseCode))}
      {store' : Option UrlhausSnapshot}
      (run : Runs (updateUrlhausSnapshot P dates options) trace result)
      (serves : Follows (storeStep (·.metadata)) stores.urlhaus trace store') :
      CallStep stores (.urlhaus options trace result) { stores with urlhaus := store' }
  | phishtank {stores : Stores} {options : UpdatePhishTankSnapshotOptions}
      {trace : List (FeedEvent PhishTankSnapshotMetadata PhishTankSnapshot MirrorHttpRequest)}
      {result : Option
        (Option (UpdateResult PhishTankSnapshotMetadata PhishTankSnapshot PhishTankCauseCode))}
      {store' : Option PhishTankSnapshot}
      (run : Runs (updatePhishTankSnapshot P dates options) trace result)
      (serves : Follows (storeStep (·.metadata)) stores.phishtank trace store') :
      CallStep stores (.phishtank options trace result) { stores with phishtank := store' }
  | rdap {stores : Stores} {options : UpdateRdapBootstrapOptions}
      {trace : List (FeedEvent RdapBootstrapSnapshotMetadata RdapBootstrapSnapshot RdapHttpRequest)}
      {result : Option (Option
        (UpdateResult RdapBootstrapSnapshotMetadata RdapBootstrapSnapshot RdapBootstrapCauseCode))}
      {store' : Option RdapBootstrapSnapshot}
      (run : Runs (updateRdapBootstrap P dates api parseJson options) trace result)
      (serves : Follows (storeStep (·.metadata)) stores.rdap trace store') :
      CallStep stores (.rdap options trace result) { stores with rdap := store' }

inductive UpdateHistory : Stores → List UpdateCall → Stores → Prop
  | nil {stores : Stores} : UpdateHistory stores [] stores
  | cons {stores stores₁ stores' : Stores} {call : UpdateCall} {calls : List UpdateCall}
      (head : CallStep P dates api parseJson stores call stores₁)
      (tail : UpdateHistory stores₁ calls stores') : UpdateHistory stores (call :: calls) stores'

/-- What every call does to the stores. -/
def AtomicStep (stores : Stores) (call : UpdateCall) (stores' : Stores) : Prop :=
  match call with
  | .urlhaus options trace result =>
      stores'.phishtank = stores.phishtank ∧ stores'.rdap = stores.rdap ∧
        AtomicCall
          (fun now response snapshot =>
            Urlhaus.parseUrlhausCsv P dates response.body = some snapshot.records ∧
              UrlhausDescribes dates now (positiveMs options.cadenceMs) snapshot)
          MirrorHttpRequest.conditions (·.metadata.toSnapshotStamp) stores.urlhaus trace result
          stores'.urlhaus
  | .phishtank options trace result =>
      stores'.urlhaus = stores.urlhaus ∧ stores'.rdap = stores.rdap ∧
        AtomicCall
          (fun now response snapshot =>
            PhishTank.parsePhishTankCsv P dates response.body = some snapshot.records ∧
              PhishTankDescribes dates now
                (resolveCadence PHISHTANK_DEFAULT_CADENCE_MS options.cadenceMs) snapshot)
          MirrorHttpRequest.conditions (·.metadata.toSnapshotStamp) stores.phishtank trace result
          stores'.phishtank
  | .rdap options trace result =>
      stores'.urlhaus = stores.urlhaus ∧ stores'.phishtank = stores.phishtank ∧
        AtomicCall
          (fun now response snapshot =>
            (∃ parsed, parseBootstrapDocument parseJson response.body = some parsed ∧
              snapshot.registry =
                (applyBaseUrlSchemePolicy P parsed options.allowInsecureRdapBases).1) ∧
              RdapDescribes dates now
                (resolveCadence DEFAULT_RDAP_BOOTSTRAP_CADENCE_MS options.cadenceMs) snapshot)
          RdapHttpRequest.conditions (·.metadata.toSnapshotStamp) stores.rdap trace result
          stores'.rdap

/-- Every stored snapshot describes itself. -/
structure Described (stores : Stores) : Prop where
  urlhaus : ∀ snapshot, stores.urlhaus = some snapshot →
    ∃ now cadenceMs, UrlhausDescribes dates now cadenceMs snapshot
  phishtank : ∀ snapshot, stores.phishtank = some snapshot →
    ∃ now cadenceMs, PhishTankDescribes dates now cadenceMs snapshot
  rdap : ∀ snapshot, stores.rdap = some snapshot →
    ∃ now cadenceMs, RdapDescribes dates now cadenceMs snapshot

variable {P dates api parseJson}

theorem atomicStep {stores stores' : Stores} {call : UpdateCall}
    (step : CallStep P dates api parseJson stores call stores') :
    AtomicStep P dates parseJson stores call stores' := by
  cases step with
  | @urlhaus options trace result store' run serves =>
      refine ⟨rfl, rfl, atomicCall_of_update (fun now response snapshot h => ?_) (fun store => ?_)
        run serves⟩
      · obtain ⟨records, stamp, hparse, rfl, hstamped⟩ := Feed.gives_data h
        exact ⟨hparse, rfl, dated_of_stamped P dates hstamped⟩
      · have hconditions := @conditions_of_headers
          (options.dumpUrl.getD URLHAUS_ONLINE_DUMP_URL) AUTH_KEY_HEADER options.credential
          ((store.map (·.metadata)).map (·.toSnapshotStamp)) (by decide) (by decide)
        cases store <;> exact hconditions
  | @phishtank options trace result store' run serves =>
      refine ⟨rfl, rfl, atomicCall_of_update (fun now response snapshot h => ?_) (fun store => ?_)
        run serves⟩
      · obtain ⟨records, stamp, hparse, rfl, hstamped⟩ := Feed.gives_data h
        exact ⟨hparse, rfl, dated_of_stamped P dates hstamped⟩
      · have hconditions := @conditions_of_headers (phishTankUrl options) (text "User-Agent")
          (options.userAgent.getD DEFAULT_USER_AGENT)
          ((store.map (·.metadata)).map (·.toSnapshotStamp)) (by decide) (by decide)
        cases store <;> exact hconditions
  | @rdap options trace result store' run serves =>
      refine ⟨rfl, rfl, atomicCall_of_update (fun now response snapshot h => ?_) (fun store => ?_)
        run serves⟩
      · obtain ⟨parsed, stamp, hparse, rfl, hstamped⟩ := Feed.gives_data h
        exact ⟨⟨parsed, hparse, rfl⟩, rfl, rfl, rfl, dated_of_stamped P dates hstamped⟩
      · have hconditions := conditions_of_validators
          (options.bootstrapUrl.getD IANA_RDAP_BOOTSTRAP_URL)
          ((store.map (·.metadata)).map (·.toSnapshotStamp))
        cases store <;> exact hconditions

theorem updateHistory_split {stores stores' : Stores} {before after : List UpdateCall}
    {call : UpdateCall}
    (history : UpdateHistory P dates api parseJson stores (before ++ call :: after) stores') :
    ∃ stores₁ stores₂, UpdateHistory P dates api parseJson stores before stores₁ ∧
      CallStep P dates api parseJson stores₁ call stores₂ ∧
      UpdateHistory P dates api parseJson stores₂ after stores' := by
  induction before generalizing stores with
  | nil =>
      cases history with
      | cons head tail => exact ⟨stores, _, .nil, head, tail⟩
  | cons first before ih =>
      cases history with
      | cons head tail =>
          obtain ⟨stores₁, stores₂, hbefore, hcall, hafter⟩ := ih tail
          exact ⟨stores₁, stores₂, .cons head hbefore, hcall, hafter⟩

/-- What a call may leave in its store describes itself if what it found there does. -/
theorem stored_of_atomicCall {Snapshot Metadata Request Code : Type}
    {describes : Int → FeedResponse → Snapshot → Prop}
    {conditions : Request → Option Text × Option Text} {stamp : Snapshot → SnapshotStamp}
    {store store' : Option Snapshot} {trace : List (FeedEvent Metadata Snapshot Request)}
    {result : Option (Option (UpdateResult Metadata Snapshot Code))} {good : Snapshot → Prop}
    (hcall : AtomicCall describes conditions stamp store trace result store')
    (hgood : ∀ now response snapshot, describes now response snapshot → good snapshot)
    (hstore : ∀ snapshot, store = some snapshot → good snapshot) :
    ∀ snapshot, store' = some snapshot → good snapshot := by
  intro snapshot h
  rcases hcall.held with hheld | ⟨written, hmem, hstored⟩
  · exact hstore snapshot (hheld ▸ h)
  · obtain rfl : written = snapshot := Option.some.inj (hstored.symm.trans h)
    obtain ⟨now, request, response, _, _, _, _, hdescribes⟩ := hcall.written written hmem
    exact hgood now response written hdescribes

theorem described_step {stores stores' : Stores} {call : UpdateCall}
    (step : CallStep P dates api parseJson stores call stores') (h : Described dates stores) :
    Described dates stores' := by
  have hatomic := atomicStep step
  cases call with
  | urlhaus options trace result =>
      obtain ⟨hphishtank, hrdap, hcall⟩ := hatomic
      refine ⟨?_, hphishtank ▸ h.phishtank, hrdap ▸ h.rdap⟩
      exact stored_of_atomicCall hcall (fun now _ _ hd => ⟨now, _, hd.2⟩) h.urlhaus
  | phishtank options trace result =>
      obtain ⟨hurlhaus, hrdap, hcall⟩ := hatomic
      refine ⟨hurlhaus ▸ h.urlhaus, ?_, hrdap ▸ h.rdap⟩
      exact stored_of_atomicCall hcall (fun now _ _ hd => ⟨now, _, hd.2⟩) h.phishtank
  | rdap options trace result =>
      obtain ⟨hurlhaus, hphishtank, hcall⟩ := hatomic
      refine ⟨hurlhaus ▸ h.urlhaus, hphishtank ▸ h.phishtank, ?_⟩
      exact stored_of_atomicCall hcall (fun now _ _ hd => ⟨now, _, hd.2⟩) h.rdap

theorem described_history {stores stores' : Stores} {calls : List UpdateCall}
    (history : UpdateHistory P dates api parseJson stores calls stores') (h : Described dates stores) :
    Described dates stores' := by
  induction history with
  | nil => exact h
  | cons head _ ih => exact ih (described_step head h)

variable (P dates api parseJson)

/-- The updaters over whole histories. -/
structure AtomicUpdaters : Prop where
  atomic : ∀ stores before call after stores',
    UpdateHistory P dates api parseJson stores (before ++ call :: after) stores' →
      ∃ stores₁ stores₂, UpdateHistory P dates api parseJson stores before stores₁ ∧
        AtomicStep P dates parseJson stores₁ call stores₂ ∧
        UpdateHistory P dates api parseJson stores₂ after stores'
  described : ∀ stores calls stores',
    UpdateHistory P dates api parseJson stores calls stores' → Described dates stores →
      Described dates stores'

theorem atomic_updaters : AtomicUpdaters P dates api parseJson := by
  refine ⟨fun stores before call after stores' history => ?_,
    fun stores calls stores' history h => described_history history h⟩
  obtain ⟨stores₁, stores₂, hbefore, hcall, hafter⟩ := updateHistory_split history
  exact ⟨stores₁, stores₂, hbefore, atomicStep hcall, hafter⟩

end

end Linklint
