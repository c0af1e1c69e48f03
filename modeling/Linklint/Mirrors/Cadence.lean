import Linklint.Mirrors.SnapshotHistory
import Mathlib.Tactic.Linarith

/-!
# The refresh cadence

A snapshot has a window, from the instant it was downloaded to the end of the
cadence. Inside it no call reaches the provider and the metadata is not expired.
A provider that answers 304 confirms a snapshot without moving its window.
-/

namespace Linklint

open Interaction

/-! ### One call -/

section
variable {Metadata Snapshot Request Data Code : Type}

namespace Feed

variable (P : Platform) (dates : DateApi) (feed : Feed Metadata Snapshot Request Data Code)
  (call : FeedCall Metadata Request Code)

/-- The previous snapshot is still within its window. -/
def isWithin (previous : Option Metadata) (now : Int) : Bool :=
  match previous, call.cadenceMs with
  | some metadata, some cadence => withinCadence dates (feed.stamp metadata) now cadence
  | _, _ => false

/-- A request comes after the metadata and the clock were read, and outside the window they give. -/
def AsksOutside (past : List (FeedEvent Metadata Snapshot Request))
    (e : FeedEvent Metadata Snapshot Request) : Prop :=
  match e.op with
  | .request _ => ∃ (previous : Option Metadata) (now : Int),
      past = [⟨.aborted, some false⟩, ⟨.readMetadata, some previous⟩, ⟨.now, some now⟩] ∧
        feed.isWithin dates call previous now = false
  | _ => True

variable {P dates feed call}

theorem wp_takeResponse_asks (previous : Option Metadata) (now : Int) (cadenceMs : Option Rat)
    (response : FeedResponse) (past : List (FeedEvent Metadata Snapshot Request)) :
    wp (Records (feed.AsksOutside dates call))
      (feed.takeResponse P dates previous now cadenceMs response) (fun _ _ => True) past := by
  rw [takeResponse]
  cases feed.refusedResponse previous response with
  | some result => trivial
  | none =>
      cases feed.parse response.body with
      | none => trivial
      | some data =>
          cases hsnapshot : feed.newSnapshot P dates data response now cadenceMs with
          | none =>
              simp only [hsnapshot]
              trivial
          | some snapshot =>
              simp only [hsnapshot]
              exact wp_recorded (fun _ => trivial) fun _ => trivial

/-- The request of an update, and what its answer leads to. -/
def askProvider (P : Platform) (dates : DateApi) (feed : Feed Metadata Snapshot Request Data Code)
    (call : FeedCall Metadata Request Code) (previous : Option Metadata) (now : Int) :
    FeedProg Metadata Snapshot Request (Option (UpdateResult Metadata Snapshot Code)) :=
  .call (FeedOp.request (call.request previous)) fun (answer : Except FeedError FeedResponse) =>
    match answer with
    | .error error => .call FeedOp.aborted fun (aborted : Bool) =>
        if (aborted || feed.isAbortError error) = true then
          .ret (some (skip feed.codes.callerAborted (text "update cancelled")))
        else .ret (some (fail feed.codes.networkError (feed.describeError error)
          (feed.errorDetails error)))
    | .ok response => feed.takeResponse P dates previous now call.cadenceMs response

theorem update_eq : feed.update P dates call = .call FeedOp.aborted fun (aborted : Bool) =>
    if aborted = true then
      .ret (some (skip feed.codes.callerAborted (text "update cancelled before start")))
    else .call FeedOp.readMetadata fun (previous : Option Metadata) =>
      .call FeedOp.now fun (now : Int) =>
        match previous, feed.isWithin dates call previous now, call.refusal with
        | some metadata, true, _ => .ret (some (.unchanged metadata .withinCadence))
        | _, _, some cause => .ret (some (.failure cause))
        | previous, _, none => feed.askProvider P dates call previous now := rfl

theorem wp_askProvider_asks {previous : Option Metadata} {now : Int}
    (houtside : feed.isWithin dates call previous now = false) :
    wp (Records (feed.AsksOutside dates call)) (feed.askProvider P dates call previous now)
      (fun _ _ => True)
      [⟨.aborted, some false⟩, ⟨.readMetadata, some previous⟩, ⟨.now, some now⟩] := by
  refine wp_recorded (fun _ => ⟨previous, now, rfl, houtside⟩) fun answer => ?_
  cases answer with
  | ok response => exact wp_takeResponse_asks previous now call.cadenceMs response _
  | error error =>
      refine wp_recorded (fun _ => trivial) fun aborted => ?_
      split <;> trivial

theorem wp_update_asks : wp (Records (feed.AsksOutside dates call)) (feed.update P dates call)
    (fun _ _ => True) [] := by
  rw [update_eq]
  refine wp_recorded (fun _ => trivial) fun aborted => ?_
  cases aborted with
  | true => trivial
  | false =>
      refine wp_recorded (fun _ => trivial) fun (previous : Option Metadata) => ?_
      refine wp_recorded (fun _ => trivial) fun (now : Int) => ?_
      cases previous with
      | none =>
          cases call.refusal with
          | some cause => trivial
          | none => exact wp_askProvider_asks rfl
      | some metadata =>
          cases hwithin : feed.isWithin dates call (some metadata) now with
          | true => trivial
          | false =>
              cases call.refusal with
              | some cause => trivial
              | none => exact wp_askProvider_asks hwithin

end Feed

/-- The clock readings of a call. -/
def readClock : FeedEvent Metadata Snapshot Request → Option Int
  | ⟨.now, some (now : Int)⟩ => some now
  | _ => none

/-- The instant of a call: what it read from the clock. -/
def clockOf (trace : List (FeedEvent Metadata Snapshot Request)) : Option Int :=
  (trace.filterMap readClock).head?

theorem eq_of_askedBy {e : FeedEvent Metadata Snapshot Request} {request : Request}
    (h : askedBy e = some request) : ∃ answer, e = ⟨.request request, answer⟩ := by
  obtain ⟨op, answer⟩ := e
  cases op with
  | request other =>
      cases h
      exact ⟨answer, rfl⟩
  | _ => cases h

namespace Feed

variable {P : Platform} {dates : DateApi} {feed : Feed Metadata Snapshot Request Data Code}
  {call : FeedCall Metadata Request Code} {metadata : Snapshot → Metadata}
  {store store' : Option Snapshot} {trace : List (FeedEvent Metadata Snapshot Request)}
  {result : Option (Option (UpdateResult Metadata Snapshot Code))}

/-- A call that reaches the provider does so outside the window of what its store holds. -/
theorem asked_outside (run : Runs (feed.update P dates call) trace result)
    (serves : Follows (storeStep metadata) store trace store') {request : Request}
    (h : request ∈ askedOf trace) :
    ∃ now, clockOf trace = some now ∧ feed.isWithin dates call (store.map metadata) now = false := by
  obtain ⟨past', hfollows, -⟩ := run.follows wp_update_asks
  obtain ⟨-, hallowed⟩ := hfollows.recorded
  obtain ⟨e, he, hasked⟩ := List.mem_filterMap.mp h
  obtain ⟨answer, rfl⟩ := eq_of_askedBy hasked
  obtain ⟨before, after, rfl⟩ := List.append_of_mem he
  obtain ⟨previous, now, hbefore, houtside⟩ := hallowed before _ after rfl
  rw [List.nil_append] at hbefore
  subst hbefore
  refine ⟨now, rfl, ?_⟩
  cases serves with
  | cons hfirst htail =>
      cases htail with
      | cons hsecond _ =>
          obtain rfl := hfirst
          obtain ⟨rfl, -⟩ := hsecond
          exact houtside

/-- Inside the window of what its store holds, a call asks for nothing and writes nothing. -/
theorem quiet_within (run : Runs (feed.update P dates call) trace result)
    (serves : Follows (storeStep metadata) store trace store')
    (hwithin : ∀ now, clockOf trace = some now →
      feed.isWithin dates call (store.map metadata) now = true) :
    askedOf trace = [] ∧ store' = store := by
  have hasked : askedOf trace = [] := by
    rw [List.eq_nil_iff_forall_not_mem]
    intro request hmem
    obtain ⟨now, hclock, houtside⟩ := asked_outside run serves hmem
    rw [hwithin now hclock] at houtside
    cases houtside
  refine ⟨hasked, ?_⟩
  rcases feed.update_cases run serves with hquiet | ⟨snapshot, hwrites⟩
  · exact hquiet.stored
  · obtain ⟨now, response, answer, -, rfl⟩ := hwrites.ends
    cases hasked

/-- A call that returned `updated` leaves a snapshot dated by its clock. -/
theorem updated_stamp {snapshot : Snapshot}
    (run : Runs (feed.update P dates call) trace (some (some (.updated snapshot))))
    (serves : Follows (storeStep metadata) store trace store') :
    ∃ now data stamp, clockOf trace = some now ∧ store' = some (feed.snapshot data stamp) ∧
      Dated dates now call.cadenceMs stamp := by
  rcases feed.update_cases run serves with hquiet | ⟨other, hwrites⟩
  · have hnone := hquiet.result _ rfl
    cases hnone
  · obtain ⟨now, response, answer, hgives, rfl⟩ := hwrites.ends
    obtain ⟨data, stamp, -, rfl, hstamped⟩ := gives_data hgives
    exact ⟨now, data, stamp, rfl, (hwrites.result _ rfl).2, dated_of_stamped P dates hstamped⟩

/-- A call that returned `unchanged` leaves its store as it found it. -/
theorem unchanged_store {kept : Metadata} {reason : UnchangedReason}
    (run : Runs (feed.update P dates call) trace (some (some (.unchanged kept reason))))
    (serves : Follows (storeStep metadata) store trace store') : store' = store := by
  rcases feed.update_cases run serves with hquiet | ⟨other, hwrites⟩
  · exact hquiet.stored
  · have hupdated := (hwrites.result _ rfl).1
    cases hupdated

end Feed

end

/-! ### The three feeds -/

inductive FeedKind where
  | urlhaus
  | phishtank
  | rdap
deriving DecidableEq

/-- What a call makes of its snapshot when the provider confirmed it. -/
inductive Confirmation where
  | updated
  | notModified
deriving DecidableEq

def confirmationOf {Metadata Snapshot Code : Type} :
    Option (Option (UpdateResult Metadata Snapshot Code)) → Option Confirmation
  | some (some (.updated _)) => some .updated
  | some (some (.unchanged _ .notModified)) => some .notModified
  | _ => none

namespace UpdateCall

def kind : UpdateCall → FeedKind
  | .urlhaus _ _ _ => .urlhaus
  | .phishtank _ _ _ => .phishtank
  | .rdap _ _ _ => .rdap

/-- The cadence in effect. -/
def cadenceMs : UpdateCall → Option Rat
  | .urlhaus options _ _ => positiveMs options.cadenceMs
  | .phishtank options _ _ => resolveCadence PHISHTANK_DEFAULT_CADENCE_MS options.cadenceMs
  | .rdap options _ _ => resolveCadence DEFAULT_RDAP_BOOTSTRAP_CADENCE_MS options.cadenceMs

def clock : UpdateCall → Option Int
  | .urlhaus _ trace _ => clockOf trace
  | .phishtank _ trace _ => clockOf trace
  | .rdap _ trace _ => clockOf trace

/-- The number of requests the provider sees. -/
def requests : UpdateCall → Nat
  | .urlhaus _ trace _ => (askedOf trace).length
  | .phishtank _ trace _ => (askedOf trace).length
  | .rdap _ trace _ => (askedOf trace).length

def confirmation : UpdateCall → Option Confirmation
  | .urlhaus _ _ result => confirmationOf result
  | .phishtank _ _ result => confirmationOf result
  | .rdap _ _ result => confirmationOf result

end UpdateCall

/-- The dates a caller reads from one of the stores. -/
def Stores.stamp (stores : Stores) : FeedKind → Option SnapshotStamp
  | .urlhaus => stores.urlhaus.map (·.metadata.toSnapshotStamp)
  | .phishtank => stores.phishtank.map (·.metadata.toSnapshotStamp)
  | .rdap => stores.rdap.map (·.metadata.toSnapshotStamp)

section
variable (P : Platform) (dates : DateApi) (api : UrlApi) (parseJson : Text → Option Value)

/-- `now >= expiresAt` of metadata with an expiry. -/
def Expired (stamp : SnapshotStamp) (now : Int) : Prop :=
  ∃ expiry instant, stamp.expiresAt = some expiry ∧ dates.parse expiry = some instant ∧
    instant ≤ now

/-- What a feed's window means for the calls after it opened: no request before it ends, and no
expired metadata before `expires`. -/
structure WindowHonored (kind : FeedKind) (opened : Int) (ends expires : Rat)
    (later : List UpdateCall) (stores : Stores) : Prop where
  quiet : ∀ call ∈ later, call.kind = kind → ∀ now : Int, call.clock = some now → (now : Rat) < ends →
    call.requests = 0
  fresh : ∀ now : Int, opened ≤ now →
    (∀ call ∈ later, call.kind = kind → ∀ instant, call.clock = some instant → instant ≤ now) →
    (now : Rat) < expires → ∃ stamp, stores.stamp kind = some stamp ∧ ¬ Expired dates stamp now

/-- The calls of one feed have one cadence and a clock that never goes back. -/
structure Paced (kind : FeedKind) (cadence : Rat) (calls : List UpdateCall) : Prop where
  cadence : ∀ call ∈ calls, call.kind = kind → call.cadenceMs = some cadence
  clock : calls.Pairwise fun a b => a.kind = kind → b.kind = kind → ∀ earlier later,
    a.clock = some earlier → b.clock = some later → earlier ≤ later

variable {P dates api parseJson}

/-- Every call of one feed inside the window of its stored snapshot is quiet. -/
theorem feed_window {Metadata Snapshot Request Data Code : Type}
    {feed : Feed Metadata Snapshot Request Data Code} {call : FeedCall Metadata Request Code}
    {metadata : Snapshot → Metadata} {store store' : Option Snapshot}
    {trace : List (FeedEvent Metadata Snapshot Request)}
    {result : Option (Option (UpdateResult Metadata Snapshot Code))} {stamp : SnapshotStamp}
    {cadence : Rat} {observed : Int} (run : Runs (feed.update P dates call) trace result)
    (serves : Follows (storeStep metadata) store trace store')
    (hcadence : call.cadenceMs = some cadence)
    (hstamp : (store.map fun snapshot => feed.stamp (metadata snapshot)) = some stamp)
    (hobserved : dates.parse stamp.observedAt = some observed)
    (hclock : ∀ now : Int, clockOf trace = some now → (now : Rat) < observed + cadence) :
    (askedOf trace).length = 0 ∧ store' = store := by
  obtain ⟨snapshot, rfl, rfl⟩ := Option.map_eq_some_iff.mp hstamp
  obtain ⟨hasked, hstore⟩ := Feed.quiet_within run serves fun now hnow => by
    simp [Feed.isWithin, hcadence, withinCadence, hobserved, hclock now hnow]
  rw [hasked]
  exact ⟨rfl, hstore⟩

theorem step_window {kind : FeedKind} {cadence : Rat} {observed : Int} {stamp : SnapshotStamp}
    {stores stores' : Stores} {call : UpdateCall}
    (step : CallStep P dates api parseJson stores call stores')
    (hcadence : call.kind = kind → call.cadenceMs = some cadence)
    (hstamp : stores.stamp kind = some stamp)
    (hobserved : dates.parse stamp.observedAt = some observed)
    (hclock : call.kind = kind → ∀ now : Int, call.clock = some now → (now : Rat) < observed + cadence) :
    (call.kind = kind → call.requests = 0) ∧ stores'.stamp kind = some stamp := by
  by_cases hkind : call.kind = kind
  · subst hkind
    cases step with
    | urlhaus run serves =>
        obtain ⟨hasked, rfl⟩ :=
          feed_window run serves (hcadence rfl) hstamp hobserved (hclock rfl)
        exact ⟨fun _ => hasked, hstamp⟩
    | phishtank run serves =>
        obtain ⟨hasked, rfl⟩ :=
          feed_window run serves (hcadence rfl) hstamp hobserved (hclock rfl)
        exact ⟨fun _ => hasked, hstamp⟩
    | rdap run serves =>
        obtain ⟨hasked, rfl⟩ :=
          feed_window run serves (hcadence rfl) hstamp hobserved (hclock rfl)
        exact ⟨fun _ => hasked, hstamp⟩
  · refine ⟨fun h => absurd h hkind, ?_⟩
    rw [← hstamp]
    cases step with
    | urlhaus run serves =>
        cases kind with
        | urlhaus => exact absurd rfl hkind
        | phishtank => rfl
        | rdap => rfl
    | phishtank run serves =>
        cases kind with
        | urlhaus => rfl
        | phishtank => exact absurd rfl hkind
        | rdap => rfl
    | rdap run serves =>
        cases kind with
        | urlhaus => rfl
        | phishtank => rfl
        | rdap => exact absurd rfl hkind

/-- A whole run inside the window keeps the snapshot and asks for nothing. -/
theorem history_window {kind : FeedKind} {cadence : Rat} {observed : Int} {stamp : SnapshotStamp}
    {stores stores' : Stores} {calls : List UpdateCall}
    (history : UpdateHistory P dates api parseJson stores calls stores')
    (hcadence : ∀ call ∈ calls, call.kind = kind → call.cadenceMs = some cadence)
    (hstamp : stores.stamp kind = some stamp)
    (hobserved : dates.parse stamp.observedAt = some observed)
    (hclock : ∀ call ∈ calls, call.kind = kind → ∀ now : Int, call.clock = some now →
      (now : Rat) < observed + cadence) :
    (∀ call ∈ calls, call.kind = kind → call.requests = 0) ∧ stores'.stamp kind = some stamp := by
  induction history with
  | nil => exact ⟨(fun call hmem => by cases hmem), hstamp⟩
  | @cons stores stores₁ stores' call calls head tail ih =>
      obtain ⟨hquiet, hkept⟩ := step_window head (hcadence call List.mem_cons_self) hstamp hobserved
        (hclock call List.mem_cons_self)
      obtain ⟨hrest, hend⟩ := ih (fun c hc => hcadence c (List.mem_cons_of_mem _ hc)) hkept
        (fun c hc => hclock c (List.mem_cons_of_mem _ hc))
      refine ⟨fun c hc => ?_, hend⟩
      rcases List.mem_cons.mp hc with rfl | hc
      · exact hquiet
      · exact hrest c hc

theorem eq_updated_of_confirmation {Metadata Snapshot Code : Type}
    {result : Option (Option (UpdateResult Metadata Snapshot Code))}
    (h : confirmationOf result = some .updated) : ∃ snapshot, result = some (some (.updated snapshot)) := by
  match result, h with
  | some (some (.updated snapshot)), _ => exact ⟨snapshot, rfl⟩
  | some (some (.unchanged _ .notModified)), h => cases h

theorem eq_notModified_of_confirmation {Metadata Snapshot Code : Type}
    {result : Option (Option (UpdateResult Metadata Snapshot Code))}
    (h : confirmationOf result = some .notModified) :
    ∃ metadata, result = some (some (.unchanged metadata .notModified)) := by
  match result, h with
  | some (some (.unchanged metadata .notModified)), _ => exact ⟨metadata, rfl⟩
  | some (some (.updated _)), h => cases h

/-- A call that stored a snapshot opens a window at its own instant. -/
theorem step_updated {stores stores' : Stores} {call : UpdateCall}
    (step : CallStep P dates api parseJson stores call stores')
    (h : call.confirmation = some .updated) :
    ∃ now stamp, call.clock = some now ∧ stores'.stamp call.kind = some stamp ∧
      Dated dates now call.cadenceMs stamp := by
  cases step with
  | urlhaus run serves =>
      obtain ⟨snapshot, rfl⟩ := eq_updated_of_confirmation h
      obtain ⟨now, data, stamp, hclock, rfl, hdated⟩ := Feed.updated_stamp run serves
      exact ⟨now, stamp, hclock, rfl, hdated⟩
  | phishtank run serves =>
      obtain ⟨snapshot, rfl⟩ := eq_updated_of_confirmation h
      obtain ⟨now, data, stamp, hclock, rfl, hdated⟩ := Feed.updated_stamp run serves
      exact ⟨now, stamp, hclock, rfl, hdated⟩
  | rdap run serves =>
      obtain ⟨snapshot, rfl⟩ := eq_updated_of_confirmation h
      obtain ⟨now, data, stamp, hclock, rfl, hdated⟩ := Feed.updated_stamp run serves
      exact ⟨now, stamp, hclock, rfl, hdated⟩

theorem step_notModified {stores stores' : Stores} {call : UpdateCall}
    (step : CallStep P dates api parseJson stores call stores')
    (h : call.confirmation = some .notModified) : stores' = stores := by
  cases step with
  | urlhaus run serves =>
      obtain ⟨metadata, rfl⟩ := eq_notModified_of_confirmation h
      obtain rfl := Feed.unchanged_store run serves
      rfl
  | phishtank run serves =>
      obtain ⟨metadata, rfl⟩ := eq_notModified_of_confirmation h
      obtain rfl := Feed.unchanged_store run serves
      rfl
  | rdap run serves =>
      obtain ⟨metadata, rfl⟩ := eq_notModified_of_confirmation h
      obtain rfl := Feed.unchanged_store run serves
      rfl

/-- The metadata a call dated is not expired before the whole part of its expiry. -/
theorem not_expired_of_dated {now opened : Int} {cadence : Rat} {stamp : SnapshotStamp}
    (h : Dated dates opened (some cadence) stamp)
    (hnow : (now : Rat) < ⌊(opened : Rat) + cadence⌋) : ¬ Expired dates stamp now := by
  rintro ⟨expiry, instant, hexpiry, hparse, hexpired⟩
  obtain ⟨-, other, hother, hwritten⟩ := h
  obtain rfl : other = expiry := Option.some.inj (hother.symm.trans hexpiry)
  obtain ⟨clip, hclip, hparse'⟩ := dates.parse_toISOString hwritten
  obtain rfl : clip = instant := Option.some.inj (hparse'.symm.trans hparse)
  have hfloor := floor_le_timeClip hclip
  have hlt : now < ⌊(opened : Rat) + cadence⌋ := by exact_mod_cast hnow
  omega

end

/-- The claim of the cadence over a history: what a confirmed snapshot holds off. -/
def ConfirmedWindows (P : Platform) (dates : DateApi) (api : UrlApi)
    (parseJson : Text → Option Value) : Prop :=
  ∀ (kind : FeedKind) (cadence : Rat) (stores stores' : Stores) (before later : List UpdateCall)
    (call : UpdateCall) (opened : Int), 0 < cadence →
    UpdateHistory P dates api parseJson stores (before ++ call :: later) stores' →
    Paced kind cadence (before ++ call :: later) → call.kind = kind →
    call.confirmation.isSome = true → call.clock = some opened →
    WindowHonored dates kind opened (opened + cadence) (opened + cadence) later stores'

/-- What the updaters keep: a stored snapshot opens a window, a 304 moves none. -/
structure CadenceHonored (P : Platform) (dates : DateApi) (api : UrlApi)
    (parseJson : Text → Option Value) : Prop where
  updated : ∀ (kind : FeedKind) (cadence : Rat) (stores stores' : Stores)
    (before later : List UpdateCall) (call : UpdateCall) (opened : Int), 0 < cadence →
    UpdateHistory P dates api parseJson stores (before ++ call :: later) stores' →
    Paced kind cadence (before ++ call :: later) → call.kind = kind →
    call.confirmation = some .updated → call.clock = some opened →
    WindowHonored dates kind opened (opened + cadence) ⌊(opened : Rat) + cadence⌋ later stores'
  notModified : ∀ (stores stores' : Stores) (before later : List UpdateCall) (call : UpdateCall),
    UpdateHistory P dates api parseJson stores (before ++ call :: later) stores' →
    call.confirmation = some .notModified →
    ∃ stores₁, UpdateHistory P dates api parseJson stores before stores₁ ∧
      CallStep P dates api parseJson stores₁ call stores₁ ∧
      UpdateHistory P dates api parseJson stores₁ later stores'

theorem cadence_honored (P : Platform) (dates : DateApi) (api : UrlApi)
    (parseJson : Text → Option Value) : CadenceHonored P dates api parseJson := by
  constructor
  · intro kind cadence stores stores' before later call opened _ history paced hkind hupdated hclock
    obtain ⟨stores₁, stores₂, -, step, hlater⟩ := updateHistory_split history
    obtain ⟨now, stamp, hnow, hstamp, hdated⟩ := step_updated step hupdated
    obtain rfl : now = opened := Option.some.inj (hnow.symm.trans hclock)
    rw [hkind] at hstamp
    have hcadence := paced.cadence call (by simp) hkind
    rw [hcadence] at hdated
    have hobserved := dates.parse_toISOString_intCast hdated.1
    have hcadences : ∀ c ∈ later, c.kind = kind → c.cadenceMs = some cadence :=
      fun c hc => paced.cadence c (by simp [hc])
    refine ⟨fun c hc hckind instant hinstant hin => ?_, fun instant hopened hbound hin => ?_⟩
    · obtain ⟨between, after, rfl⟩ := List.append_of_mem hc
      obtain ⟨stores₃, stores₄, hbetween, step, -⟩ := updateHistory_split hlater
      -- the calls in between come no later than this one
      have hordered : ∀ b ∈ between, b.kind = kind → ∀ earlier, b.clock = some earlier →
          earlier ≤ instant := by
        intro b hb hbkind earlier hearlier
        have hpairs := (List.pairwise_append.mp paced.clock).2.1
        have hpairs := (List.pairwise_append.mp (List.pairwise_cons.mp hpairs).2).2.2
        exact hpairs b hb c List.mem_cons_self hbkind hckind earlier instant hearlier hinstant
      obtain ⟨-, hkept⟩ := history_window hbetween (fun b hb => hcadences b (by simp [hb])) hstamp
        hobserved fun b hb hbkind earlier hearlier => by
          have hle : (earlier : Rat) ≤ instant := by
            exact_mod_cast hordered b hb hbkind earlier hearlier
          linarith
      refine (step_window step (hcadences c (by simp)) hkept hobserved ?_).1 hckind
      intro _ other hother
      obtain rfl : instant = other := Option.some.inj (hinstant.symm.trans hother)
      exact hin
    · refine ⟨stamp, ?_, not_expired_of_dated hdated hin⟩
      refine (history_window hlater hcadences hstamp hobserved ?_).2
      intro c hc hckind earlier hearlier
      have hle : (earlier : Rat) ≤ instant := by exact_mod_cast hbound c hc hckind earlier hearlier
      have hfloor := Int.floor_le ((now : Rat) + cadence)
      linarith
  · intro stores stores' before later call history hconfirmed
    obtain ⟨stores₁, stores₂, hbefore, step, hlater⟩ := updateHistory_split history
    obtain rfl := step_notModified step hconfirmed
    exact ⟨stores₂, hbefore, step, hlater⟩

/-! ### A confirmed snapshot past its window -/

/-- A run that asks its provider. -/
theorem Feed.runs_ask {Metadata Snapshot Request Data Code : Type} {P : Platform} {dates : DateApi}
    {feed : Feed Metadata Snapshot Request Data Code} {call : FeedCall Metadata Request Code}
    {previous : Option Metadata} {now : Int} {trace : List (FeedEvent Metadata Snapshot Request)}
    {result : Option (Option (UpdateResult Metadata Snapshot Code))}
    (houtside : feed.isWithin dates call previous now = false) (hrefusal : call.refusal = none)
    (run : Runs (feed.askProvider P dates call previous now) trace result) :
    Runs (feed.update P dates call)
      (⟨.aborted, some false⟩ :: ⟨.readMetadata, some previous⟩ :: ⟨.now, some now⟩ :: trace)
      result := by
  rw [Feed.update_eq]
  refine .answered (.answered (.answered ?_))
  rw [houtside, hrefusal]
  cases previous <;> exact run

/-- A dump of ten milliseconds, downloaded at the epoch. -/
def storedDump : UrlhausSnapshot where
  metadata :=
    { source := URLHAUS_SOURCE_ID, version := URLHAUS_SOURCE_VERSION, etag := some (text "v7")
      lastModified := none, observedAt := DateApi.epochSecond.iso 0
      expiresAt := some (DateApi.epochSecond.iso 10), recordCount := 0 }
  records := []

def dumpOptions : UpdateUrlhausSnapshotOptions where
  credential := text "key"
  dumpUrl := none
  cadenceMs := some (.fin 10)

def dumpStores : Stores := { urlhaus := some storedDump, phishtank := none, rdap := none }

def dumpReads (now : Int) :
    List (FeedEvent UrlhausSnapshotMetadata UrlhausSnapshot MirrorHttpRequest) :=
  [⟨.aborted, some false⟩, ⟨.readMetadata, some (some storedDump.metadata)⟩, ⟨.now, some now⟩]

/-- Twenty milliseconds in, the provider answers 304. -/
def confirmedCall : UpdateCall :=
  .urlhaus dumpOptions
    (dumpReads 20 ++ [⟨.request ((urlhausCall dumpOptions).request (some storedDump.metadata)),
      some (.ok { status := 304, headers := [], body := [] })⟩])
    (some (some (.unchanged storedDump.metadata .notModified)))

/-- Five milliseconds later another call asks it again. -/
def repeatedCall : UpdateCall :=
  .urlhaus dumpOptions
    (dumpReads 25 ++ [⟨.request ((urlhausCall dumpOptions).request (some storedDump.metadata)), none⟩])
    none

theorem dump_outside {now : Int} (h : 10 ≤ now) :
    (urlhausFeed Platform.ascii DateApi.epochSecond).isWithin DateApi.epochSecond
      (urlhausCall dumpOptions) (some storedDump.metadata) now = false := by
  have hparse : DateApi.epochSecond.parse storedDump.metadata.observedAt = some 0 :=
    DateApi.epochSecond.parse_iso 0 (by decide)
  have hcadence : (urlhausCall dumpOptions).cadenceMs = some 10 := by
    simp [urlhausCall, dumpOptions, positiveMs]
  have hnow : ¬ (now : Rat) < 10 := not_lt.mpr (by exact_mod_cast h)
  simp only [Feed.isWithin, hcadence, withinCadence]
  rw [show (urlhausFeed Platform.ascii DateApi.epochSecond).stamp storedDump.metadata =
    storedDump.metadata.toSnapshotStamp from rfl, hparse]
  simpa using hnow

theorem serves_dump {now : Int} {request : MirrorHttpRequest}
    {answer : Option (Except FeedError FeedResponse)} :
    Follows (storeStep (·.metadata)) (some storedDump)
      (dumpReads now ++ [⟨.request request, answer⟩]) (some storedDump) :=
  .cons rfl (.cons ⟨rfl, rfl⟩ (.cons rfl (.cons rfl .nil)))

theorem confirmed_history (api : UrlApi) (parseJson : Text → Option Value) :
    UpdateHistory Platform.ascii DateApi.epochSecond api parseJson dumpStores
      [confirmedCall, repeatedCall] dumpStores := by
  have hconfirmed : CallStep Platform.ascii DateApi.epochSecond api parseJson dumpStores
      confirmedCall dumpStores := by
    refine .urlhaus ?_ serves_dump
    refine Feed.runs_ask (dump_outside (by decide)) rfl (.answered ?_)
    exact .ret
  have hrepeated : CallStep Platform.ascii DateApi.epochSecond api parseJson dumpStores
      repeatedCall dumpStores := by
    refine .urlhaus ?_ serves_dump
    exact Feed.runs_ask (dump_outside (by decide)) rfl .waiting
  exact .cons hconfirmed (.cons hrepeated .nil)

theorem confirmed_snapshot_asked_again : ¬ ∀ (P : Platform) (dates : DateApi) (api : UrlApi)
    (parseJson : Text → Option Value), ConfirmedWindows P dates api parseJson := by
  intro h
  let api : UrlApi := { parse := fun _ => none, resolve := fun _ _ => none, href := fun _ => [] }
  have hpaced : Paced .urlhaus 10 [confirmedCall, repeatedCall] :=
    { cadence := fun call hmem _ => by
        have hcadence : (UpdateCall.cadenceMs confirmedCall = some 10) ∧
            UpdateCall.cadenceMs repeatedCall = some 10 := by
          simp [UpdateCall.cadenceMs, confirmedCall, repeatedCall, dumpOptions, positiveMs]
        rcases List.mem_cons.mp hmem with rfl | hmem
        · exact hcadence.1
        · obtain rfl := List.mem_singleton.mp hmem
          exact hcadence.2
      clock := by
        refine List.pairwise_cons.mpr ⟨fun call hmem _ _ earlier later hearlier hlater => ?_,
          List.pairwise_singleton _ _⟩
        obtain rfl := List.mem_singleton.mp hmem
        cases hearlier
        cases hlater
        decide }
  have hwindow := h Platform.ascii DateApi.epochSecond api (fun _ => none) .urlhaus 10 dumpStores
    dumpStores [] [repeatedCall] confirmedCall 20 (by norm_num) (confirmed_history api _) hpaced rfl
    rfl rfl
  have hquiet := hwindow.quiet repeatedCall (List.mem_singleton_self _) rfl 25 rfl (by norm_num)
  cases hquiet

end Linklint
