import Linklint.Lib.KeyedIndex
import Linklint.Reputation.DnsState
import Mathlib.Order.Bounds.Basic

/-!
# What the DNS source reports

What DNS told of a query is read off the circumstances of the query alone. The
evidence describes it, an unanswered batch names its dominant reason, and no
report carries a finding.
-/

namespace Linklint

open Interaction

namespace DnsState

/-! ### What DNS told -/

/-- The codes by which a resolver says that there are no records. -/
def NO_RECORD_CODES : List Text := [text "ENODATA", text "ENOTFOUND", text "ENONAME"]

/-- The rows DNS told of a query; `none` is a query that was never answered. -/
def told (request : DnsQuery) (run : QueryRun request.type) : Option (List (Row request.type)) :=
  if run.abortedBefore = true ∨ request.name = [] then none
  else
    match run.settled with
    | .ok rows => some rows
    | .error code => if code.any NO_RECORD_CODES.contains then some [] else none

/-- The reason an error code stands for. -/
inductive RejectedFor (aborted : Bool) : Option Text → DnsUnresolvedState → Prop
  | cancelled : RejectedFor aborted (some ECANCELLED) (if aborted then .aborted else .timeout)
  | listed {code : Text} {reason : DnsUnresolvedState}
      (hcode : CODE_STATES.lookup code = some (.unresolved reason)) :
      RejectedFor aborted (some code) reason
  | unlisted {code : Text} (hcancelled : code ≠ ECANCELLED) (hcode : CODE_STATES.lookup code = none) :
      RejectedFor aborted (some code) .error
  | codeless : RejectedFor aborted none .error

/-- A query that was never answered, and why. -/
inductive FailsFor (request : DnsQuery) (run : QueryRun request.type) : DnsUnresolvedState → Prop
  | aborted (h : run.abortedBefore = true) : FailsFor request run .aborted
  | nameless (h : run.abortedBefore = false) (hname : request.name = []) :
      FailsFor request run .invalidName
  | rejected {code : Option Text} {reason : DnsUnresolvedState} (h : run.abortedBefore = false)
      (hname : request.name ≠ []) (hsettled : run.settled = .error code)
      (hreason : RejectedFor run.abortedAfter code reason) : FailsFor request run reason

/-- A query that was answered with no rows. -/
inductive NoRecords {type : DnsQueryType} (run : QueryRun type) : DnsNegativeState → Prop
  | empty (h : run.settled = .ok []) : NoRecords run .nodata
  | nodata (h : run.settled = .error (some (text "ENODATA"))) : NoRecords run .nodata
  | nxdomain {code : Text} (h : run.settled = .error (some code))
      (hcode : code = text "ENOTFOUND" ∨ code = text "ENONAME") : NoRecords run .nxdomain

/-- What the port makes of what DNS told. -/
inductive Tells (request : DnsQuery) (run : QueryRun request.type) : DnsAnswer → Prop
  | nothing {reason : DnsUnresolvedState} (h : told request run = none)
      (hreason : ∀ other, FailsFor request run other ↔ other = reason) :
      Tells request run (.negative request.type (.unresolved reason))
  | noRecords {state : DnsNegativeState} (h : told request run = some [])
      (hstate : NoRecords run state) : Tells request run (.negative request.type state)
  | records {rows : List (Row request.type)} (h : told request run = some rows) (hne : rows ≠ []) :
      Tells request run (answerRows request request.type rows)

/-! ### Error codes -/

theorem lookup_ECANCELLED : CODE_STATES.lookup ECANCELLED = none := by decide

theorem rejectedFor_cancelled (aborted : Bool) {reason : DnsUnresolvedState} :
    RejectedFor aborted (some ECANCELLED) reason ↔
      reason = if aborted then .aborted else .timeout := by
  constructor
  · intro h
    cases h with
    | cancelled => rfl
    | listed hcode =>
        rw [lookup_ECANCELLED] at hcode
        cases hcode
    | unlisted hcancelled _ => exact absurd rfl hcancelled
  · rintro rfl
    exact .cancelled

theorem rejectedFor_listed {aborted : Bool} {code : Text} {state : DnsNegativeState}
    {reason : DnsUnresolvedState} (hcode : CODE_STATES.lookup code = some state) :
    RejectedFor aborted (some code) reason ↔ state = .unresolved reason := by
  constructor
  · intro h
    cases h with
    | cancelled =>
        rw [lookup_ECANCELLED] at hcode
        cases hcode
    | listed hcode' => exact Option.some.inj (hcode.symm.trans hcode')
    | unlisted _ hcode' =>
        rw [hcode'] at hcode
        cases hcode
  · rintro rfl
    exact .listed hcode

theorem rejectedFor_unlisted {aborted : Bool} {code : Text} {reason : DnsUnresolvedState}
    (hcancelled : code ≠ ECANCELLED) (hcode : CODE_STATES.lookup code = none) :
    RejectedFor aborted (some code) reason ↔ reason = .error := by
  constructor
  · intro h
    cases h with
    | cancelled => exact absurd rfl hcancelled
    | listed hcode' =>
        rw [hcode'] at hcode
        cases hcode
    | unlisted _ _ => rfl
  · rintro rfl
    exact .unlisted hcancelled hcode

/-- The codes that say that there are no records, and in which way. -/
def SaysNoRecords (code : Text) (state : DnsNegativeState) : Prop :=
  (code = text "ENODATA" ∧ state = .nodata) ∨
    ((code = text "ENOTFOUND" ∨ code = text "ENONAME") ∧ state = .nxdomain)

/-- The table tells the two kinds of codes apart. -/
theorem noRecord_cases (code : Text) {state : DnsNegativeState}
    (hcode : CODE_STATES.lookup code = some state) :
    (code ∈ NO_RECORD_CODES ∧ SaysNoRecords code state) ∨
      (code ∉ NO_RECORD_CODES ∧ ∃ reason, state = .unresolved reason) := by
  have hmem := KeyedIndex.mem_of_lookup hcode
  simp only [CODE_STATES, List.mem_cons, Prod.mk.injEq, List.not_mem_nil, or_false] at hmem
  rcases hmem with ⟨rfl, rfl⟩ | ⟨rfl, rfl⟩ | ⟨rfl, rfl⟩ | ⟨rfl, rfl⟩ | ⟨rfl, rfl⟩ | ⟨rfl, rfl⟩ |
    ⟨rfl, rfl⟩ | ⟨rfl, rfl⟩ | ⟨rfl, rfl⟩ | ⟨rfl, rfl⟩ | ⟨rfl, rfl⟩
  · exact Or.inl ⟨by decide, Or.inl ⟨rfl, rfl⟩⟩
  · exact Or.inl ⟨by decide, Or.inr ⟨Or.inl rfl, rfl⟩⟩
  · exact Or.inl ⟨by decide, Or.inr ⟨Or.inr rfl, rfl⟩⟩
  all_goals exact Or.inr ⟨by decide, _, rfl⟩

theorem unlisted_of_lookup {code : Text} (hcode : CODE_STATES.lookup code = none) :
    code ∉ NO_RECORD_CODES := by
  intro hmem
  simp only [NO_RECORD_CODES, List.mem_cons, List.not_mem_nil, or_false] at hmem
  rcases hmem with rfl | rfl | rfl <;> exact absurd hcode (by decide)

/-- A rejection says that there are no records, or it has one reason. -/
theorem stateForError_cases (code : Option Text) (aborted : Bool) :
    (code.any NO_RECORD_CODES.contains = true ∧
      ∃ known, code = some known ∧ SaysNoRecords known (stateForError code aborted)) ∨
    ∃ reason, stateForError code aborted = .unresolved reason ∧
      code.any NO_RECORD_CODES.contains = false ∧
      ∀ other, RejectedFor aborted code other ↔ other = reason := by
  cases code with
  | none =>
      refine Or.inr ⟨.error, rfl, rfl, fun other => ⟨fun h => ?_, fun heq => heq ▸ .codeless⟩⟩
      cases h
      rfl
  | some code =>
      rw [stateForError]
      by_cases hcancelled : code = ECANCELLED
      · subst hcancelled
        refine Or.inr ⟨_, if_pos rfl, by decide, fun other => rejectedFor_cancelled aborted⟩
      · rw [if_neg hcancelled]
        cases hcode : CODE_STATES.lookup code with
        | none =>
            refine Or.inr ⟨.error, rfl, ?_, fun other => rejectedFor_unlisted hcancelled hcode⟩
            simpa using unlisted_of_lookup hcode
        | some state =>
            rcases noRecord_cases code hcode with ⟨hmem, hstate⟩ | ⟨hmem, reason, rfl⟩
            · exact Or.inl ⟨by simpa using hmem, code, rfl, hstate⟩
            · refine Or.inr ⟨reason, rfl, by simpa using hmem, fun other => ?_⟩
              rw [rejectedFor_listed hcode, DnsNegativeState.unresolved.injEq]
              exact eq_comm

/-! ### The answer of the port -/

section
variable {request : DnsQuery} {run : QueryRun request.type}

theorem told_reached (h : run.abortedBefore = false) (hname : request.name ≠ []) :
    told request run = match run.settled with
      | .ok rows => some rows
      | .error code => if code.any NO_RECORD_CODES.contains then some [] else none := by
  rw [told, if_neg (by simp [h, hname])]

theorem tells_aborted (h : run.abortedBefore = true) :
    Tells request run (negative (.unresolved .aborted) request) := by
  refine .nothing (if_pos (Or.inl h)) fun other => ⟨fun hfails => ?_, fun heq => heq ▸ .aborted h⟩
  cases hfails with
  | aborted _ => rfl
  | nameless h' _ => simp [h] at h'
  | rejected h' _ _ _ => simp [h] at h'

theorem tells_nameless (h : run.abortedBefore = false) (hname : request.name = []) :
    Tells request run (negative (.unresolved .invalidName) request) := by
  refine .nothing (if_pos (Or.inr hname)) fun other =>
    ⟨fun hfails => ?_, fun heq => heq ▸ .nameless h hname⟩
  cases hfails with
  | aborted h' => simp [h] at h'
  | nameless _ _ => rfl
  | rejected _ hname' _ _ => exact absurd hname hname'

theorem tells_rows (h : run.abortedBefore = false) (hname : request.name ≠ [])
    {rows : List (Row request.type)} (hsettled : run.settled = .ok rows) :
    Tells request run (answerRows request request.type rows) := by
  have htold : told request run = some rows := by rw [told_reached h hname, hsettled]
  cases rows with
  | nil =>
      have hnone : answerRows request request.type [] = .negative request.type .nodata := by
        obtain ⟨name, type⟩ := request
        cases type <;> rfl
      rw [hnone]
      exact .noRecords htold (.empty hsettled)
  | cons row rows => exact .records htold (List.cons_ne_nil row rows)

theorem noRecords_of_code {code : Text} {state : DnsNegativeState}
    (hsettled : run.settled = .error (some code)) (h : SaysNoRecords code state) :
    NoRecords run state := by
  rcases h with ⟨rfl, rfl⟩ | ⟨hcode, rfl⟩
  · exact .nodata hsettled
  · exact .nxdomain hsettled hcode

theorem tells_rejected (h : run.abortedBefore = false) (hname : request.name ≠ [])
    {code : Option Text} (hsettled : run.settled = .error code) :
    Tells request run (negative (stateForError code run.abortedAfter) request) := by
  have htold : told request run
      = if code.any NO_RECORD_CODES.contains then some [] else none := by
    rw [told_reached h hname, hsettled]
  rcases stateForError_cases code run.abortedAfter with
    ⟨hany, known, rfl, hstate⟩ | ⟨reason, hstate, hany, hreason⟩
  · rw [if_pos hany] at htold
    exact .noRecords htold (noRecords_of_code hsettled hstate)
  · rw [hany, if_neg Bool.false_ne_true] at htold
    rw [hstate]
    refine .nothing htold fun other => ⟨fun hfails => ?_, fun heq => ?_⟩
    · cases hfails with
      | aborted h' => simp [h] at h'
      | nameless _ hname' => exact absurd hname' hname
      | rejected _ _ hsettled' hreason' =>
          rw [hsettled] at hsettled'
          cases hsettled'
          exact (hreason other).mp hreason'
    · exact .rejected h hname hsettled ((hreason other).mpr heq)

/-- The answer of the port says what DNS told, or why it told nothing. -/
theorem tells_query (request : DnsQuery) (run : QueryRun request.type) :
    Tells request run (query request run) := by
  rw [query]
  split
  · rename_i h
    exact tells_aborted h
  · rename_i h
    have h' : run.abortedBefore = false := by simpa using h
    split
    · rename_i hname
      exact tells_nameless h' hname
    · rename_i hname
      split
      · rename_i rows hsettled
        exact tells_rows h' hname hsettled
      · rename_i code hsettled
        exact tells_rejected h' hname hsettled

end

/-- What the state of an answer says of its query. -/
inductive StateSays (request : DnsQuery) (run : QueryRun request.type) : DnsAnswerState → Prop
  | ok {rows : List (Row request.type)} (h : told request run = some rows) (hne : rows ≠ []) :
      StateSays request run .ok
  | noRecords {state : DnsNegativeState} (h : told request run = some [])
      (hstate : NoRecords run state) : StateSays request run (.negative state)
  | unresolved {reason : DnsUnresolvedState} (h : told request run = none)
      (hreason : FailsFor request run reason) :
      StateSays request run (.negative (.unresolved reason))

theorem answerRows_state {request : DnsQuery} : ∀ {type : DnsQueryType} {rows : List (Row type)},
    rows ≠ [] → (answerRows request type rows).state = .ok := by
  intro type rows hne
  cases rows with
  | nil => exact absurd rfl hne
  | cons row rows => cases type <;> rfl

theorem stateSays_of_tells {request : DnsQuery} {run : QueryRun request.type} {answer : DnsAnswer}
    (h : Tells request run answer) : StateSays request run answer.state := by
  cases h with
  | nothing h hreason => exact .unresolved h ((hreason _).mpr rfl)
  | noRecords h hstate => exact .noRecords h hstate
  | records h hne =>
      rw [answerRows_state hne]
      exact .ok h hne

/-! ### Lifetimes -/

/-- The values that count. -/
def counted (values : List (Option Int)) : List Int :=
  values.filterMap fun value => value.filter fun ttl => 0 ≤ ttl

theorem mem_counted {values : List (Option Int)} {ttl : Int} :
    ttl ∈ counted values ↔ some ttl ∈ values ∧ 0 ≤ ttl := by
  rw [counted, List.mem_filterMap]
  constructor
  · rintro ⟨value, hmem, hfilter⟩
    obtain ⟨rfl, hle⟩ := Option.filter_eq_some_iff.mp hfilter
    exact ⟨hmem, by simpa using hle⟩
  · rintro ⟨hmem, hle⟩
    exact ⟨some ttl, hmem, Option.filter_eq_some_iff.mpr ⟨rfl, by simpa using hle⟩⟩

theorem foldl_lower (values : List (Option Int)) (least : Option Int) :
    values.foldl lower least = (least.toList ++ counted values).min? := by
  induction values generalizing least with
  | nil => cases least <;> rfl
  | cons value values ih =>
      rw [List.foldl_cons, ih]
      cases value with
      | none => rfl
      | some ttl =>
          by_cases hneg : ttl < 0
          · have hcounted : counted (some ttl :: values) = counted values :=
              List.filterMap_cons_none (by simp [Option.filter, hneg])
            rw [hcounted, lower, if_pos hneg]
          · have hcounted : counted (some ttl :: values) = ttl :: counted values :=
              List.filterMap_cons_some (by simp [Option.filter]; omega)
            rw [hcounted, lower, if_neg hneg]
            cases least <;> rfl

theorem minTtl_eq_some_iff {values : List (Option Int)} {ttl : Int} :
    minTtl values = some ttl ↔ IsLeast {t | some t ∈ values ∧ 0 ≤ t} ttl := by
  rw [minTtl, foldl_lower, Option.toList_none, List.nil_append, List.min?_eq_some_iff]
  constructor
  · rintro ⟨hmem, hleast⟩
    exact ⟨mem_counted.mp hmem, fun t ht => hleast t (mem_counted.mpr ht)⟩
  · rintro ⟨hmem, hleast⟩
    exact ⟨mem_counted.mpr hmem, fun t ht => hleast (mem_counted.mp ht)⟩

theorem minTtl_eq_none_iff {values : List (Option Int)} :
    minTtl values = none ↔ ∀ ttl, some ttl ∈ values → ttl < 0 := by
  rw [minTtl, foldl_lower, Option.toList_none, List.nil_append, List.min?_eq_none_iff,
    List.eq_nil_iff_forall_not_mem]
  constructor
  · intro h ttl hmem
    by_contra hneg
    exact h ttl (mem_counted.mpr ⟨hmem, by omega⟩)
  · intro h ttl hmem
    obtain ⟨hvalue, hle⟩ := mem_counted.mp hmem
    have := h ttl hvalue
    omega

/-- The least value of two lists is the least of their least ones. -/
theorem minTtl_nested (a b : List (Option Int)) :
    minTtl [minTtl a, minTtl b, none, none] = minTtl (a ++ b) := by
  have hnested : ∀ ttl, minTtl [minTtl a, minTtl b, none, none] = some ttl ↔
      IsLeast {t | (minTtl a = some t ∨ minTtl b = some t) ∧ 0 ≤ t} ttl := by
    intro ttl
    rw [minTtl_eq_some_iff]
    simp [eq_comm]
  have hleast : ∀ (values : List (Option Int)) (t : Int), some t ∈ values → 0 ≤ t →
      ∃ least, minTtl values = some least ∧ least ≤ t := by
    intro values t hmem hle
    cases hmin : minTtl values with
    | none =>
        have := minTtl_eq_none_iff.mp hmin t hmem
        omega
    | some least => exact ⟨least, rfl, (minTtl_eq_some_iff.mp hmin).2 ⟨hmem, hle⟩⟩
  refine Option.ext fun ttl => ?_
  rw [hnested, minTtl_eq_some_iff]
  constructor
  · rintro ⟨⟨hfrom, hle⟩, hlower⟩
    refine ⟨⟨?_, hle⟩, ?_⟩
    · rcases hfrom with ha | hb
      · exact List.mem_append_left b (minTtl_eq_some_iff.mp ha).1.1
      · exact List.mem_append_right a (minTtl_eq_some_iff.mp hb).1.1
    · rintro t ⟨hmem, ht⟩
      rcases List.mem_append.mp hmem with ha | hb
      · obtain ⟨least, hmin, hat⟩ := hleast a t ha ht
        exact (hlower ⟨Or.inl hmin, (minTtl_eq_some_iff.mp hmin).1.2⟩).trans hat
      · obtain ⟨least, hmin, hbt⟩ := hleast b t hb ht
        exact (hlower ⟨Or.inr hmin, (minTtl_eq_some_iff.mp hmin).1.2⟩).trans hbt
  · rintro ⟨⟨hmem, hle⟩, hlower⟩
    have hbound : ∀ t, minTtl a = some t ∨ minTtl b = some t → ttl ≤ t := by
      rintro t (ha | hb)
      · obtain ⟨hat, ht⟩ := (minTtl_eq_some_iff.mp ha).1
        exact hlower ⟨List.mem_append_left b hat, ht⟩
      · obtain ⟨hbt, ht⟩ := (minTtl_eq_some_iff.mp hb).1
        exact hlower ⟨List.mem_append_right a hbt, ht⟩
    refine ⟨⟨?_, hle⟩, fun t ht => hbound t ht.1⟩
    rcases List.mem_append.mp hmem with ha | hb
    · obtain ⟨least, hmin, hat⟩ := hleast a ttl ha hle
      have hge := hbound least (Or.inl hmin)
      obtain rfl : least = ttl := by omega
      exact Or.inl hmin
    · obtain ⟨least, hmin, hbt⟩ := hleast b ttl hb hle
      have hge := hbound least (Or.inr hmin)
      obtain rfl : least = ttl := by omega
      exact Or.inr hmin

/-! ### The normalized answers -/

/-- The rows DNS told of each query of a batch. -/
def BatchRun.aRows (runs : BatchRun) (host : Text) : Option (List AddressRow) :=
  told (A host) (runs.query (A host))

def BatchRun.aaaaRows (runs : BatchRun) (host : Text) : Option (List AddressRow) :=
  told (AAAA host) (runs.query (AAAA host))

def BatchRun.nsRows (runs : BatchRun) (zone : Text) : Option (List Text) :=
  told (NS zone) (runs.query (NS zone))

def BatchRun.mxRows (runs : BatchRun) (zone : Text) : Option (List MxRow) :=
  told (MX zone) (runs.query (MX zone))

/-- An answer over the rows that were told, the type of the query put aside. -/
inductive Says {R : Type} (rows : Option (List R)) (records : List R → DnsAnswer) : DnsAnswer → Prop
  | nothing {type : DnsQueryType} {reason : DnsUnresolvedState} (h : rows = none) :
      Says rows records (.negative type (.unresolved reason))
  | noRecords {type : DnsQueryType} {state : DnsNegativeState} (h : rows = some [])
      (hstate : state = .nodata ∨ state = .nxdomain) : Says rows records (.negative type state)
  | records {told : List R} (h : rows = some told) (hne : told ≠ []) :
      Says rows records (records told)

theorem NoRecords.cases {type : DnsQueryType} {run : QueryRun type} {state : DnsNegativeState}
    (h : NoRecords run state) : state = .nodata ∨ state = .nxdomain := by
  cases h with
  | empty _ => exact Or.inl rfl
  | nodata _ => exact Or.inl rfl
  | nxdomain _ _ => exact Or.inr rfl

theorem says_of_tells {request : DnsQuery} {run : QueryRun request.type} {answer : DnsAnswer}
    (h : Tells request run answer) :
    Says (told request run) (answerRows request request.type) answer := by
  cases h with
  | nothing h _ => exact .nothing h
  | noRecords h hstate => exact .noRecords h hstate.cases
  | records h hne => exact .records h hne

structure AddressView (rows : Option (List AddressRow)) (answer : NormalizedAddressAnswer) : Prop where
  authoritative : isAuthoritative answer.state = rows.isSome
  addresses : answer.addresses = (rows.getD []).map fun row => row.address
  ttl : answer.ttlSeconds = minTtl ((rows.getD []).map fun row => some row.ttl)

theorem addressView_of_says {rows : Option (List AddressRow)} {type : DnsQueryType}
    {request : DnsQuery} {family : Nat} {answer : DnsAnswer}
    (h : Says rows (fun told => okOrNodata type request (addressRecords told family)) answer) :
    AddressView rows (normalizeAddress answer) := by
  cases h with
  | nothing h =>
      rw [h]
      exact ⟨rfl, rfl, rfl⟩
  | noRecords h hstate =>
      rw [h]
      rcases hstate with rfl | rfl <;> exact ⟨rfl, rfl, rfl⟩
  | @records told h hne =>
      have hrecords : addressRecords told family ≠ [] := by simpa [addressRecords] using hne
      rw [h, okOrNodata, if_neg hrecords]
      refine ⟨rfl, ?_, ?_⟩
      · simp [normalizeAddress, addressRecords]
      · simp [normalizeAddress, addressRecords, Function.comp_def]

theorem answerRows_ns {request : DnsQuery} {rows : List Text} (hne : rows ≠ []) :
    answerRows request .ns rows = .nameservers (nsRecords rows) :=
  if_neg (by simpa [nsRecords] using hne)

theorem answerRows_mx {request : DnsQuery} {rows : List MxRow} (hne : rows ≠ []) :
    answerRows request .mx rows = .exchanges (mxRecords rows) :=
  if_neg (by simpa [mxRecords] using hne)

structure NsView (rows : Option (List Text)) (answer : NormalizedNsAnswer) : Prop where
  authoritative : isAuthoritative answer.state = rows.isSome
  hosts : answer.hosts = rows.getD []
  ttl : answer.ttlSeconds = none

theorem minTtl_undated {R : Type} (rows : List R) : minTtl (rows.map fun _ => some (-1)) = none := by
  rw [minTtl_eq_none_iff]
  intro ttl hmem
  obtain ⟨_, -, heq⟩ := List.mem_map.mp hmem
  cases heq
  omega

theorem nsView_of_says {rows : Option (List Text)} {request : DnsQuery} {answer : DnsAnswer}
    (h : Says rows (answerRows request .ns) answer) : NsView rows (normalizeNs answer) := by
  cases h with
  | nothing h =>
      rw [h]
      exact ⟨rfl, rfl, rfl⟩
  | noRecords h hstate =>
      rw [h]
      rcases hstate with rfl | rfl <;> exact ⟨rfl, rfl, rfl⟩
  | @records told h hne =>
      rw [h, answerRows_ns hne]
      refine ⟨rfl, ?_, ?_⟩
      · simp [normalizeNs, nsRecords, Function.comp_def]
      · simpa [normalizeNs, nsRecords, Function.comp_def] using minTtl_undated told

/-- An exchange as the port spells it. -/
def exchangeOf (row : MxRow) : NormalizedMxExchange where
  exchange := mxExchange row.exchange
  preference := row.priority

structure MxView (rows : Option (List MxRow)) (answer : NormalizedMxAnswer) : Prop where
  authoritative : isAuthoritative answer.state = rows.isSome
  ok : answer.state = .ok ↔ ∃ told, rows = some told ∧ told ≠ []
  exchanges : answer.exchanges =
    ((rows.getD []).map exchangeOf).insertionSort fun x y => x.preference ≤ y.preference
  ttl : answer.ttlSeconds = none

theorem mxView_of_says {rows : Option (List MxRow)} {request : DnsQuery} {answer : DnsAnswer}
    (h : Says rows (answerRows request .mx) answer) : MxView rows (normalizeMx answer) := by
  cases h with
  | nothing h =>
      rw [h]
      exact ⟨rfl, by simp [normalizeMx, DnsAnswer.state], rfl, rfl⟩
  | noRecords h hstate =>
      rw [h]
      rcases hstate with rfl | rfl <;>
        exact ⟨rfl, by simp [normalizeMx, DnsAnswer.state], rfl, rfl⟩
  | @records told h hne =>
      rw [h, answerRows_mx hne]
      refine ⟨rfl, ?_, ?_, ?_⟩
      · simpa [normalizeMx] using hne
      · change ((mxRecords told).insertionSort _).map _ = _
        rw [List.map_insertionSort (fun x y : DnsMxRecord => x.preference ≤ y.preference)
          (fun x y : NormalizedMxExchange => x.preference ≤ y.preference)
          (fun r => NormalizedMxExchange.mk r.exchange r.preference) (mxRecords told)
          fun _ _ _ _ => Iff.rfl]
        simp only [mxRecords, List.map_map, Function.comp_def, Option.getD_some]
        rfl
      · simpa [normalizeMx, mxRecords, Function.comp_def] using minTtl_undated told

end DnsState

end Linklint
