import Linklint.Mirrors.FeedUpdate

/-!
# Atomic updates

What one update does to the store it was given: it writes at most once, at its
end, and what it writes is the parse of the body it received in full.
-/

namespace Linklint

open Interaction

section
variable {Metadata Snapshot Request Data Code : Type}

abbrev FeedEvent (Metadata Snapshot Request : Type) :=
  Event (FeedOp Snapshot Request) (FeedAns Metadata)

/-- The caller's store: it answers with what it holds, and a write replaces that at once. -/
def storeStep (metadata : Snapshot → Metadata) (store : Option Snapshot)
    (e : FeedEvent Metadata Snapshot Request) (store' : Option Snapshot) : Prop :=
  match e with
  | ⟨.readMetadata, some (answer : Option Metadata)⟩ =>
      answer = store.map metadata ∧ store' = store
  | ⟨.replace snapshot, some _⟩ => store' = some snapshot
  | ⟨.replace snapshot, none⟩ => store' = store ∨ store' = some snapshot
  | _ => store' = store

def writtenBy : FeedEvent Metadata Snapshot Request → Option Snapshot
  | ⟨.replace snapshot, _⟩ => some snapshot
  | _ => none

def askedBy : FeedEvent Metadata Snapshot Request → Option Request
  | ⟨.request request, _⟩ => some request
  | _ => none

/-- The snapshots a call writes. -/
def writesOf (trace : List (FeedEvent Metadata Snapshot Request)) : List Snapshot :=
  trace.filterMap writtenBy

/-- The requests a call makes. -/
def askedOf (trace : List (FeedEvent Metadata Snapshot Request)) : List Request :=
  trace.filterMap askedBy

/-- The snapshot of a call that returned `updated`; `none` also for a call that rejected. -/
def updatedOf : Option (UpdateResult Metadata Snapshot Code) → Option Snapshot
  | some (.updated snapshot) => some snapshot
  | _ => none

namespace Feed

variable (P : Platform) (dates : DateApi) (feed : Feed Metadata Snapshot Request Data Code)

/-- A response gives a snapshot: a status of success, and a body that parses in full. -/
structure Gives (now : Int) (cadenceMs : Option Rat) (response : FeedResponse)
    (snapshot : Snapshot) : Prop where
  success : 200 ≤ response.status ∧ response.status < 300
  parsed : ∃ data, feed.parse response.body = some data ∧
    feed.newSnapshot P dates data response now cadenceMs = some snapshot

/-- A call that wrote nothing. -/
structure Quiet (metadata : Snapshot → Metadata) (call : FeedCall Metadata Request Code)
    (store : Option Snapshot) (trace : List (FeedEvent Metadata Snapshot Request))
    (result : Option (Option (UpdateResult Metadata Snapshot Code))) (store' : Option Snapshot) :
    Prop where
  writes : writesOf trace = []
  stored : store' = store
  result : ∀ settled, result = some settled → updatedOf settled = none
  asked : ∀ request ∈ askedOf trace, request = call.request (store.map metadata)

/-- A call that wrote the snapshot its response gives. -/
structure Writes (metadata : Snapshot → Metadata) (call : FeedCall Metadata Request Code)
    (store : Option Snapshot) (trace : List (FeedEvent Metadata Snapshot Request))
    (result : Option (Option (UpdateResult Metadata Snapshot Code))) (store' : Option Snapshot)
    (snapshot : Snapshot) : Prop where
  ends : ∃ now response answer, feed.Gives P dates now call.cadenceMs response snapshot ∧
    trace = [⟨.aborted, some false⟩, ⟨.readMetadata, some (store.map metadata)⟩, ⟨.now, some now⟩,
      ⟨.request (call.request (store.map metadata)), some (.ok response)⟩,
      ⟨.replace snapshot, answer⟩]
  result : ∀ settled, result = some settled → settled = some (.updated snapshot) ∧
    store' = some snapshot
  stored : store' = store ∨ store' = some snapshot

variable {P dates feed} {metadata : Snapshot → Metadata} {call : FeedCall Metadata Request Code}
  {store store' : Option Snapshot} {trace : List (FeedEvent Metadata Snapshot Request)}
  {result : Option (Option (UpdateResult Metadata Snapshot Code))}

theorem takeResponse_cases {previous : Option Metadata} {now : Int} {cadenceMs : Option Rat}
    {response : FeedResponse}
    (run : Runs (feed.takeResponse P dates previous now cadenceMs response) trace result)
    (serves : Follows (storeStep metadata) store trace store') :
    (trace = [] ∧ store' = store ∧ ∃ settled, result = some settled ∧ updatedOf settled = none) ∨
    ∃ snapshot answer, feed.Gives P dates now cadenceMs response snapshot ∧
      trace = [⟨.replace snapshot, answer⟩] ∧ (store' = store ∨ store' = some snapshot) ∧
      ∀ settled, result = some settled → settled = some (.updated snapshot) ∧
        store' = some snapshot := by
  rw [takeResponse] at run
  cases hrefused : feed.refusedResponse previous response with
  | some refused =>
      rw [hrefused] at run
      obtain ⟨rfl, rfl, rfl⟩ := run.follows_ret serves
      refine Or.inl ⟨rfl, rfl, _, rfl, ?_⟩
      unfold refusedResponse at hrefused
      split at hrefused
      · cases previous <;> cases hrefused <;> rfl
      · split at hrefused
        · cases hrefused
          rfl
        · split at hrefused
          · cases hrefused
            rfl
          · cases hrefused
  | none =>
      have hsuccess : 200 ≤ response.status ∧ response.status < 300 := by
        unfold refusedResponse at hrefused
        split at hrefused
        · cases hrefused
        · split at hrefused
          · cases hrefused
          · split at hrefused
            · cases hrefused
            · omega
      rw [hrefused] at run
      cases hparse : feed.parse response.body with
      | none =>
          rw [hparse] at run
          obtain ⟨rfl, rfl, rfl⟩ := run.follows_ret serves
          exact Or.inl ⟨rfl, rfl, _, rfl, rfl⟩
      | some data =>
          simp only [hparse] at run
          cases hsnapshot : feed.newSnapshot P dates data response now cadenceMs with
          | none =>
              rw [hsnapshot] at run
              obtain ⟨rfl, rfl, rfl⟩ := run.follows_ret serves
              exact Or.inl ⟨rfl, rfl, _, rfl, rfl⟩
          | some snapshot =>
              rw [hsnapshot] at run
              have hgives : feed.Gives P dates now cadenceMs response snapshot :=
                ⟨hsuccess, data, hparse, hsnapshot⟩
              rcases run.follows_call serves with ⟨rfl, rfl, hstore⟩ | ⟨answer, rest, s₁, rfl, hs, hrest, hf⟩
              · exact Or.inr ⟨snapshot, none, hgives, rfl, hstore, fun settled h => by cases h⟩
              · obtain ⟨rfl, rfl, hs'⟩ := hrest.follows_ret hf
                have hstore : store' = some snapshot := hs'.trans hs
                exact Or.inr ⟨snapshot, some answer, hgives, rfl, Or.inr hstore,
                  fun settled h => ⟨(Option.some.inj h).symm, hstore⟩⟩

/-- The calls of an update. -/
theorem update_calls : feed.update P dates call = .call FeedOp.aborted fun (aborted : Bool) =>
    if aborted = true then
      .ret (some (skip feed.codes.callerAborted (text "update cancelled before start")))
    else .call FeedOp.readMetadata fun (previous : Option Metadata) =>
      .call FeedOp.now fun (now : Int) =>
        match previous, (match previous, call.cadenceMs with
          | some metadata, some cadence => withinCadence dates (feed.stamp metadata) now cadence
          | _, _ => false), call.refusal with
        | some metadata, true, _ => .ret (some (.unchanged metadata .withinCadence))
        | _, _, some cause => .ret (some (.failure cause))
        | previous, _, none =>
            .call (FeedOp.request (call.request previous))
              fun (answer : Except FeedError FeedResponse) =>
                match answer with
                | .error error => .call FeedOp.aborted fun (aborted : Bool) =>
                    if (aborted || feed.isAbortError error) = true then
                      .ret (some (skip feed.codes.callerAborted (text "update cancelled")))
                    else .ret (some (fail feed.codes.networkError (feed.describeError error)
                      (feed.errorDetails error)))
                | .ok response => feed.takeResponse P dates previous now call.cadenceMs response :=
  rfl

/-- Every update is quiet or writes what its response gives. -/
theorem update_cases (run : Runs (feed.update P dates call) trace result)
    (serves : Follows (storeStep metadata) store trace store') :
    Quiet metadata call store trace result store' ∨
      ∃ snapshot, feed.Writes P dates metadata call store trace result store' snapshot := by
  rw [update_calls] at run
  rcases run.follows_call serves with ⟨rfl, rfl, hs⟩ | ⟨aborted, rest₁, s₁, rfl, hs, run₁, serves₁⟩
  · exact Or.inl ⟨rfl, hs, (fun _ h => by cases h), fun _ h => by cases h⟩
  obtain rfl : s₁ = store := hs
  cases aborted with
  | true =>
      obtain ⟨rfl, rfl, rfl⟩ := run₁.follows_ret serves₁
      exact Or.inl ⟨rfl, rfl, (fun _ h => Option.some.inj h ▸ rfl), fun _ h => by cases h⟩
  | false =>
      rcases run₁.follows_call serves₁ with
        ⟨rfl, rfl, hs⟩ | ⟨previous, rest₂, s₂, rfl, hs, run₂, serves₂⟩
      · exact Or.inl ⟨rfl, hs, (fun _ h => by cases h), fun _ h => by cases h⟩
      obtain ⟨rfl, rfl⟩ : previous = s₁.map metadata ∧ s₂ = s₁ := hs
      rcases run₂.follows_call serves₂ with
        ⟨rfl, rfl, hs⟩ | ⟨now, rest₃, s₃, rfl, hs, run₃, serves₃⟩
      · exact Or.inl ⟨rfl, hs, (fun _ h => by cases h), fun _ h => by cases h⟩
      obtain rfl : s₃ = s₂ := hs
      split at run₃
      · obtain ⟨rfl, rfl, rfl⟩ := run₃.follows_ret serves₃
        exact Or.inl ⟨rfl, rfl, (fun _ h => Option.some.inj h ▸ rfl), fun _ h => by cases h⟩
      · obtain ⟨rfl, rfl, rfl⟩ := run₃.follows_ret serves₃
        exact Or.inl ⟨rfl, rfl, (fun _ h => Option.some.inj h ▸ rfl), fun _ h => by cases h⟩
      · rcases run₃.follows_call serves₃ with
          ⟨rfl, rfl, hs⟩ | ⟨answer, rest₄, s₄, rfl, hs, run₄, serves₄⟩
        · exact Or.inl ⟨rfl, hs, (fun _ h => by cases h), fun _ h => List.mem_singleton.mp h⟩
        obtain rfl : s₄ = s₃ := hs
        cases answer with
        | error error =>
            rcases run₄.follows_call serves₄ with
              ⟨rfl, rfl, hs⟩ | ⟨aborted, rest₅, s₅, rfl, hs, run₅, serves₅⟩
            · exact Or.inl ⟨rfl, hs, (fun _ h => by cases h), fun _ h => List.mem_singleton.mp h⟩
            obtain rfl : s₅ = s₄ := hs
            split at run₅
            · obtain ⟨rfl, rfl, rfl⟩ := run₅.follows_ret serves₅
              exact Or.inl ⟨rfl, rfl, (fun _ h => Option.some.inj h ▸ rfl),
                fun _ h => List.mem_singleton.mp h⟩
            · obtain ⟨rfl, rfl, rfl⟩ := run₅.follows_ret serves₅
              exact Or.inl ⟨rfl, rfl, (fun _ h => Option.some.inj h ▸ rfl),
                fun _ h => List.mem_singleton.mp h⟩
        | ok response =>
            rcases takeResponse_cases run₄ serves₄ with
              ⟨rfl, rfl, settled, hsettled, hnone⟩ | ⟨snapshot, answer, hgives, rfl, hstore, hresult⟩
            · refine Or.inl ⟨rfl, rfl, fun other h => ?_, fun _ h => List.mem_singleton.mp h⟩
              rw [hsettled] at h
              exact Option.some.inj h ▸ hnone
            · exact Or.inr ⟨snapshot, ⟨now, response, answer, hgives, rfl⟩, hresult, hstore⟩

/-- The dates and validators of a snapshot are those of the call that wrote it. -/
structure Stamped (P : Platform) (dates : DateApi) (response : FeedResponse) (now : Int)
    (cadenceMs : Option Rat) (stamp : SnapshotStamp) : Prop where
  etag : stamp.etag = headerValue P response (text "etag")
  lastModified : stamp.lastModified = headerValue P response (text "last-modified")
  observedAt : dates.toISOString now = some stamp.observedAt
  unlimited : cadenceMs = none → stamp.expiresAt = none
  expiresAt : ∀ cadence, cadenceMs = some cadence → ∃ expiry, stamp.expiresAt = some expiry ∧
    dates.toISOString (now + cadence) = some expiry

theorem stamped_of_newStamp {response : FeedResponse} {now : Int} {cadenceMs : Option Rat}
    {stamp : SnapshotStamp} (h : feed.newStamp P dates response now cadenceMs = some stamp) :
    Stamped P dates response now cadenceMs stamp := by
  unfold newStamp at h
  cases cadenceMs with
  | none =>
      simp only [Option.bind_eq_bind, Option.bind_some, Option.bind_eq_some_iff] at h
      obtain ⟨observedAt, hobserved, hstamp⟩ := h
      cases hstamp
      exact ⟨rfl, rfl, hobserved, fun _ => rfl, fun cadence h => by cases h⟩
  | some cadence =>
      simp only [Option.bind_eq_bind, Option.bind_eq_some_iff, Option.map_eq_some_iff] at h
      obtain ⟨_, ⟨expiry, hexpiry, rfl⟩, observedAt, hobserved, hstamp⟩ := h
      cases hstamp
      refine ⟨rfl, rfl, hobserved, (fun h => by cases h), fun other h => ?_⟩
      cases h
      exact ⟨expiry, rfl, hexpiry⟩

theorem gives_data {now : Int} {cadenceMs : Option Rat} {response : FeedResponse}
    {snapshot : Snapshot} (h : feed.Gives P dates now cadenceMs response snapshot) :
    ∃ data stamp, feed.parse response.body = some data ∧ snapshot = feed.snapshot data stamp ∧
      Stamped P dates response now cadenceMs stamp := by
  obtain ⟨data, hparse, hsnapshot⟩ := h.parsed
  obtain ⟨stamp, hstamp, hgives⟩ := Option.map_eq_some_iff.mp hsnapshot
  exact ⟨data, stamp, hparse, hgives.symm, stamped_of_newStamp hstamp⟩

end Feed

/-- One call of an update, as its store and its provider see it. -/
structure AtomicCall (describes : Int → FeedResponse → Snapshot → Prop)
    (conditions : Request → Option Text × Option Text) (stamp : Snapshot → SnapshotStamp)
    (store : Option Snapshot) (trace : List (FeedEvent Metadata Snapshot Request))
    (result : Option (Option (UpdateResult Metadata Snapshot Code))) (store' : Option Snapshot) :
    Prop where
  once : (writesOf trace).length ≤ 1
  exactly : ∀ settled, result = some settled → writesOf trace = (updatedOf settled).toList
  updated : ∀ settled snapshot, result = some settled → updatedOf settled = some snapshot →
    store' = some snapshot
  kept : ∀ settled, result = some settled → updatedOf settled = none → store' = store
  /-- a call that has not returned has written its snapshot or not -/
  held : store' = store ∨ ∃ snapshot ∈ writesOf trace, store' = some snapshot
  written : ∀ snapshot ∈ writesOf trace, ∃ now request response, ⟨.now, some now⟩ ∈ trace ∧
    ⟨.request request, some (.ok response)⟩ ∈ trace ∧ 200 ≤ response.status ∧
    response.status < 300 ∧ describes now response snapshot
  conditional : ∀ request ∈ askedOf trace,
    conditions request = (store.bind fun s => (stamp s).etag, store.bind fun s => (stamp s).lastModified)

theorem atomicCall_of_update {P : Platform} {dates : DateApi}
    {feed : Feed Metadata Snapshot Request Data Code} {metadata : Snapshot → Metadata}
    {call : FeedCall Metadata Request Code} {describes : Int → FeedResponse → Snapshot → Prop}
    {conditions : Request → Option Text × Option Text} {stamp : Snapshot → SnapshotStamp}
    {store store' : Option Snapshot} {trace : List (FeedEvent Metadata Snapshot Request)}
    {result : Option (Option (UpdateResult Metadata Snapshot Code))}
    (hdescribes : ∀ now response snapshot,
      feed.Gives P dates now call.cadenceMs response snapshot → describes now response snapshot)
    (hconditions : ∀ store : Option Snapshot, conditions (call.request (store.map metadata)) =
      (store.bind fun s => (stamp s).etag, store.bind fun s => (stamp s).lastModified))
    (run : Runs (feed.update P dates call) trace result)
    (serves : Follows (storeStep metadata) store trace store') :
    AtomicCall describes conditions stamp store trace result store' := by
  rcases feed.update_cases run serves with hquiet | ⟨snapshot, hwrites⟩
  · refine ⟨?_, fun settled h => ?_, fun settled snapshot h hupdated => ?_,
      fun settled h hnone => hquiet.stored, Or.inl hquiet.stored, fun snapshot h => ?_,
      fun request h => ?_⟩
    · rw [hquiet.writes]
      exact Nat.zero_le _
    · rw [hquiet.writes, hquiet.result settled h]
      rfl
    · rw [hquiet.result settled h] at hupdated
      cases hupdated
    · rw [hquiet.writes] at h
      cases h
    · rw [hquiet.asked request h, hconditions]
  · obtain ⟨now, response, answer, hgives, rfl⟩ := hwrites.ends
    refine ⟨le_refl _, fun settled h => ?_, fun settled other h hupdated => ?_,
      fun settled h hnone => ?_, ?_, fun other h => ?_, fun request h => ?_⟩
    · rw [(hwrites.result settled h).1]
      rfl
    · rw [(hwrites.result settled h).1] at hupdated
      cases hupdated
      exact (hwrites.result settled h).2
    · rw [(hwrites.result settled h).1] at hnone
      cases hnone
    · exact hwrites.stored.imp id fun h => ⟨snapshot, List.mem_singleton.mpr rfl, h⟩
    · obtain rfl : other = snapshot := List.mem_singleton.mp h
      exact ⟨now, call.request (store.map metadata), response, by simp, by simp,
        hgives.success.1, hgives.success.2, hdescribes now response other hgives⟩
    · rw [List.mem_singleton.mp h, hconditions]

end

end Linklint
