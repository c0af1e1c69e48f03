import Linklint.Transport.TlsDer

/-!
# What the DER reader checks

Every length is checked against the end of the buffer, so no read leaves it and
every loop ends. Against the end of the enclosing value nothing is checked: the
reader that does check it returns exactly on the certificates where every visited
value lies in its parent.
-/

namespace Linklint

/-- What a read guarantees: its result satisfies `P`, and its only faults are parse errors. -/
def SafeRead {α : Type} (P : α → Prop) : Except DerFault α → Prop
  | .ok a => P a
  | .error fault => ∃ message, fault = .parseError message

def SafeWalk {α : Type} (P : α → Prop) (walk : DerWalk α) : Prop :=
  SafeRead (fun result : List DerVisit × α => P result.2) walk

section SafeRules

variable {α β : Type} {P : α → Prop} {Q : β → Prop}

theorem safeRead_derError (message : String) : SafeRead P (derError message) := ⟨_, rfl⟩

theorem SafeRead.bind {r : Except DerFault α} {f : α → Except DerFault β} (hr : SafeRead P r)
    (hf : ∀ a, P a → SafeRead Q (f a)) : SafeRead Q (r >>= f) := by
  cases r with
  | error fault => exact hr
  | ok a => exact hf a hr

theorem SafeWalk.pure {a : α} (h : P a) : SafeWalk P (Pure.pure a : DerWalk α) := h

theorem SafeWalk.bind {m : DerWalk α} {f : α → DerWalk β} (hm : SafeWalk P m)
    (hf : ∀ a, P a → SafeWalk Q (f a)) : SafeWalk Q (m >>= f) := by
  change SafeWalk Q (DerWalk.bind m f)
  cases m with
  | error fault => exact hm
  | ok result =>
      obtain ⟨seen, a⟩ := result
      have hnext := hf a hm
      rw [DerWalk.ok_bind]
      cases hfa : f a with
      | error fault =>
          rw [hfa] at hnext
          exact hnext
      | ok result =>
          rw [hfa] at hnext
          exact hnext

theorem SafeWalk.lift {r : Except DerFault α} (hr : SafeRead P r) :
    SafeWalk P (DerWalk.lift r) := by
  cases r with
  | error fault => exact hr
  | ok a => exact hr

theorem SafeWalk.fail (message : String) : SafeWalk P (DerWalk.fail message) := ⟨_, rfl⟩

end SafeRules

/-! ## Every read is inside the buffer -/

theorem byteAt_safe {bytes : Bytes} {i : Nat} (h : i < bytes.length) :
    SafeRead (fun _ => True) (byteAt bytes i) := by
  rw [byteAt, List.getElem?_eq_getElem h]
  trivial

theorem foldlM_safe {α σ : Type} {f : σ → α → Except DerFault σ} {xs : List α}
    (h : ∀ s, ∀ x ∈ xs, SafeRead (fun _ => True) (f s x)) (s : σ) :
    SafeRead (fun _ => True) (xs.foldlM f s) := by
  induction xs generalizing s with
  | nil => trivial
  | cons x xs ih =>
      rw [List.foldlM_cons]
      exact (h s x List.mem_cons_self).bind
        fun s' _ => ih (fun s y hy => h s y (List.mem_cons_of_mem _ hy)) s'

theorem readLength_safe (bytes : Bytes) (cursor : Nat) (first : UInt8) :
    SafeRead (fun result => cursor ≤ result.2) (readLength bytes cursor first) := by
  unfold readLength
  split
  · exact le_refl cursor
  dsimp only
  split
  · exact safeRead_derError _
  split
  · exact safeRead_derError _
  split
  · exact safeRead_derError _
  rename_i hinside
  refine SafeRead.bind (P := fun _ => True) ?_ fun length _ => Nat.le_add_right _ _
  refine foldlM_safe (fun length i hi => ?_) 0
  have hi : i < (first &&& 0x7f).toNat := List.mem_range.mp hi
  exact (byteAt_safe (by omega)).bind fun _ _ => trivial

/-- A value takes at least its two header bytes, and ends in the buffer. -/
theorem readTlv_safe (bytes : Bytes) (pos : Nat) :
    SafeRead (fun tlv => pos + 2 ≤ tlv.contentEnd ∧ tlv.contentEnd ≤ bytes.length)
      (readTlv bytes pos) := by
  unfold readTlv
  split
  · exact safeRead_derError _
  rename_i hpos
  refine (byteAt_safe (by omega)).bind fun tag _ => ?_
  refine (byteAt_safe (by omega)).bind fun first _ => ?_
  refine (readLength_safe bytes (pos + 2) first).bind fun ⟨length, cursor⟩ hcursor => ?_
  dsimp only at hcursor ⊢
  split
  · exact safeRead_derError _
  · change pos + 2 ≤ cursor + length ∧ cursor + length ≤ bytes.length
    omega

theorem scanOid_safe {bytes : Bytes} {start stop : Nat} (h : stop ≤ bytes.length) :
    SafeRead (fun _ => True) (scanOid bytes start stop) := by
  refine foldlM_safe (fun scan i hi => ?_) _
  have hi := List.mem_range'_1.mp hi
  refine (byteAt_safe (by omega)).bind fun byte _ => ?_
  dsimp only [OidScan.step]
  split
  · exact safeRead_derError _
  · trivial

theorem decodeOid_safe {bytes : Bytes} {start stop : Nat} (h : stop ≤ bytes.length) :
    SafeRead (fun _ => True) (decodeOid bytes start stop) := by
  unfold decodeOid
  split
  · exact safeRead_derError _
  · refine (scanOid_safe h).bind fun scan _ => ?_
    split
    · trivial
    · exact safeRead_derError _

/-! ## The walk is safe with any check -/

section Walk

variable (check : DerVisit → Bool) (bytes : Bytes)

/-- The value ends in the buffer. -/
def InBuffer (tlv : Tlv) : Prop := tlv.contentEnd ≤ bytes.length

theorem visit_safe (v : DerVisit) : SafeWalk (fun _ => True) (visit check v) := by
  unfold visit
  split
  · trivial
  · exact SafeWalk.fail _

theorem readChild_safe (within : List Tlv) (pos : Nat) :
    SafeWalk (fun tlv => pos + 2 ≤ tlv.contentEnd ∧ InBuffer bytes tlv)
      (readChild check bytes within pos) := by
  refine (SafeWalk.lift (readTlv_safe bytes pos)).bind fun tlv htlv => ?_
  exact (visit_safe check _).bind fun _ _ => SafeWalk.pure htlv

theorem firstChild_safe (parent : Tlv) (above : List Tlv) :
    SafeWalk (fun child => ∀ tlv ∈ child, InBuffer bytes tlv)
      (firstChild check bytes parent above) := by
  unfold firstChild
  split
  · refine (readChild_safe check bytes _ _).bind fun tlv htlv => SafeWalk.pure ?_
    intro t ht
    cases ht
    exact htlv.2
  · exact SafeWalk.pure (by simp)

variable {σ : Type} {inv : σ → Prop} {parent : Tlv} {above : List Tlv}
  {body : σ → Tlv → DerWalk (ForInStep σ)}

/-- The body keeps `inv` for every value it may be called with. -/
def KeepsInv (inv : σ → Prop) (body : σ → Tlv → DerWalk (ForInStep σ)) : Prop :=
  ∀ s, inv s → ∀ tlv, InBuffer bytes tlv → SafeWalk (fun turn => inv turn.value) (body s tlv)

/-- The position grows with every value, so the bound on the turns is never reached. -/
theorem forChildren_safe (hbody : KeepsInv bytes inv body) {fuel pos : Nat}
    (hfuel : parent.contentEnd ≤ pos + fuel) {s : σ} (hs : inv s) :
    SafeWalk inv (forChildren check bytes parent above body fuel pos s) := by
  induction fuel generalizing pos s with
  | zero =>
      rw [forChildren, if_neg (by omega)]
      exact SafeWalk.pure hs
  | succ fuel ih =>
      rw [forChildren]
      split
      · refine (readChild_safe check bytes _ pos).bind fun tlv htlv => ?_
        refine (hbody s hs tlv htlv.2).bind fun turn hturn => ?_
        cases turn with
        | done s' => exact SafeWalk.pure hturn
        | yield s' => exact ih (by omega) hturn
      · exact SafeWalk.pure hs

theorem childrenOf_safe (hbody : KeepsInv bytes inv body) {init : σ} (hinit : inv init) :
    SafeWalk inv (childrenOf check bytes parent above init body) :=
  forChildren_safe check bytes hbody (by omega) hinit

theorem readField_safe (above : List Tlv) :
    KeepsInv bytes (fun _ => True) (readField check bytes above) := by
  intro _ _ field _
  unfold readField
  split
  · exact (firstChild_safe check bytes field above).bind fun _ _ => SafeWalk.pure trivial
  · exact SafeWalk.pure trivial

theorem readPolicyInfo_safe (above : List Tlv) :
    KeepsInv bytes (fun _ => True) (readPolicyInfo check bytes above) := by
  intro oids _ info _
  refine (firstChild_safe check bytes info above).bind fun child hchild => ?_
  cases child with
  | none => exact SafeWalk.fail _
  | some idOid =>
      dsimp only
      split
      · exact (SafeWalk.lift (decodeOid_safe (hchild idOid rfl))).bind
          fun _ _ => SafeWalk.pure trivial
      · exact SafeWalk.fail _

theorem readPolicies_safe (above parts : List Tlv) :
    SafeWalk (fun _ => True) (readPolicies check bytes above parts) := by
  unfold readPolicies
  split
  · exact SafeWalk.fail _
  split
  · refine (firstChild_safe check bytes _ above).bind fun child _ => ?_
    cases child with
    | none => exact SafeWalk.fail _
    | some policySeq =>
        dsimp only
        split
        · exact childrenOf_safe check bytes (readPolicyInfo_safe check bytes _) trivial
        · exact SafeWalk.fail _
  · exact SafeWalk.fail _

theorem readExtension_safe (above : List Tlv) :
    KeepsInv bytes (fun _ => True) (readExtension check bytes above) := by
  intro _ _ extension _
  have hparts : KeepsInv bytes (fun parts => ∀ part ∈ parts, InBuffer bytes part)
      (fun parts part => (return .yield (parts ++ [part]) : DerWalk (ForInStep (List Tlv)))) := by
    intro parts hparts part hpart
    refine SafeWalk.pure fun tlv htlv => ?_
    rcases List.mem_append.mp htlv with htlv | htlv
    · exact hparts tlv htlv
    · rwa [List.mem_singleton.mp htlv]
  refine (childrenOf_safe check bytes hparts (by simp)).bind fun parts hin => ?_
  split
  · exact SafeWalk.pure trivial
  rename_i idPart hhead
  split
  · have hid : InBuffer bytes idPart := hin idPart (List.mem_of_mem_head? hhead)
    refine (SafeWalk.lift (decodeOid_safe hid)).bind fun id _ => ?_
    split
    · exact (readPolicies_safe check bytes _ _).bind fun _ _ => SafeWalk.pure trivial
    · exact SafeWalk.pure trivial
  · exact SafeWalk.pure trivial

theorem readTbs_safe (outer tbs : Tlv) :
    SafeWalk (fun _ => True) (readTbs check bytes outer tbs) := by
  refine (childrenOf_safe check bytes (readField_safe check bytes _) trivial).bind
    fun found _ => ?_
  match found with
  | none => exact SafeWalk.pure trivial
  | some (field, extensions) =>
      dsimp only
      split
      · exact (childrenOf_safe check bytes (readExtension_safe check bytes _) trivial).bind
          fun _ _ => SafeWalk.pure trivial
      · exact SafeWalk.pure trivial

/-- With any check the only faults are parse errors: no read outside the buffer, and
no loop without an end. -/
theorem readPolicyOidsWith_safe : SafeWalk (fun _ => True) (readPolicyOidsWith check bytes) := by
  refine (SafeWalk.lift (readTlv_safe bytes 0)).bind fun outer _ => ?_
  split
  · refine (firstChild_safe check bytes outer []).bind fun child _ => ?_
    cases child with
    | none => exact SafeWalk.fail _
    | some tbs =>
        dsimp only
        split
        · exact readTbs_safe check bytes outer tbs
        · exact SafeWalk.fail _
  · exact SafeWalk.fail _

end Walk

/-! ## The check that is missing -/

def nestedCheck (v : DerVisit) : Bool := decide v.Nested

/-- The same reader with every value checked against the values around it. -/
def readNestedPolicyOids (bytes : Bytes) : DerWalk (List Text) :=
  readPolicyOidsWith nestedCheck bytes

/-- What the unchecked walk returns, the checked one returns too when every visited
value was nested; otherwise it fails. -/
def Guards {α : Type} (unchecked checked : DerWalk α) : Prop :=
  ∀ seen a, unchecked = .ok (seen, a) →
    ((∀ v ∈ seen, v.Nested) ∧ checked = .ok (seen, a))
      ∨ ((∃ v ∈ seen, ¬ v.Nested) ∧ ∃ fault, checked = .error fault)

section GuardRules

variable {α β σ : Type}

theorem Guards.pure (a : α) : Guards (Pure.pure a) (Pure.pure a) := by
  intro seen b h
  cases h
  exact Or.inl ⟨by simp, rfl⟩

theorem Guards.lift (r : Except DerFault α) : Guards (DerWalk.lift r) (DerWalk.lift r) := by
  intro seen a h
  cases r with
  | error fault => cases h
  | ok b =>
      cases h
      exact Or.inl ⟨by simp, rfl⟩

theorem Guards.fail (message : String) :
    Guards (DerWalk.fail message : DerWalk α) (DerWalk.fail message) :=
  Guards.lift _

/-- The visits of a sequence are those of its parts, and the first failure is final. -/
theorem Guards.bind {m m' : DerWalk α} {f f' : α → DerWalk β} (hm : Guards m m')
    (hf : ∀ a, Guards (f a) (f' a)) : Guards (m >>= f) (m' >>= f') := by
  intro seen b h
  change DerWalk.bind m f = _ at h
  cases m with
  | error fault => cases h
  | ok result =>
      obtain ⟨first, a⟩ := result
      rw [DerWalk.ok_bind] at h
      cases hfa : f a with
      | error fault =>
          rw [hfa] at h
          cases h
      | ok result =>
          obtain ⟨second, b⟩ := result
          rw [hfa] at h
          cases h
          change _ ∨ _ ∧ ∃ fault, DerWalk.bind m' f' = .error fault
          rcases hm first a rfl with ⟨hnested, rfl⟩ | ⟨⟨v, hv, hout⟩, fault, rfl⟩
          · rcases hf a second b hfa with ⟨hnested', heq⟩ | ⟨⟨v, hv, hout⟩, fault, heq⟩
            · refine Or.inl ⟨?_, ?_⟩
              · intro v hv
                exact (List.mem_append.mp hv).elim (hnested v) (hnested' v)
              · change DerWalk.bind (.ok (first, a)) f' = _
                rw [DerWalk.ok_bind, heq]
            · refine Or.inr ⟨⟨v, List.mem_append_right _ hv, hout⟩, fault, ?_⟩
              rw [DerWalk.ok_bind, heq]
          · exact Or.inr ⟨⟨v, List.mem_append_left _ hv, hout⟩, fault, rfl⟩

theorem guards_visit (v : DerVisit) : Guards (visit (fun _ => true) v) (visit nestedCheck v) := by
  intro seen a h
  cases h
  unfold visit nestedCheck
  by_cases hnested : v.Nested
  · refine Or.inl ⟨by simpa using hnested, ?_⟩
    rw [if_pos (decide_eq_true hnested)]
    rfl
  · refine Or.inr ⟨⟨v, List.mem_singleton_self v, hnested⟩, ?_⟩
    rw [if_neg (by simpa using hnested)]
    exact ⟨_, rfl⟩

variable (bytes : Bytes)

theorem guards_readChild (within : List Tlv) (pos : Nat) :
    Guards (readChild (fun _ => true) bytes within pos) (readChild nestedCheck bytes within pos) :=
  (Guards.lift _).bind fun _ => (guards_visit _).bind fun _ => Guards.pure _

theorem guards_firstChild (parent : Tlv) (above : List Tlv) :
    Guards (firstChild (fun _ => true) bytes parent above)
      (firstChild nestedCheck bytes parent above) := by
  unfold firstChild
  split
  · exact (guards_readChild bytes _ _).bind fun _ => Guards.pure _
  · exact Guards.pure _

theorem guards_forChildren {parent : Tlv} {above : List Tlv}
    {body body' : σ → Tlv → DerWalk (ForInStep σ)}
    (hbody : ∀ s tlv, Guards (body s tlv) (body' s tlv)) (fuel pos : Nat) (s : σ) :
    Guards (forChildren (fun _ => true) bytes parent above body fuel pos s)
      (forChildren nestedCheck bytes parent above body' fuel pos s) := by
  induction fuel generalizing pos s with
  | zero =>
      rw [forChildren, forChildren]
      split
      · exact Guards.lift _
      · exact Guards.pure _
  | succ fuel ih =>
      rw [forChildren, forChildren]
      split
      · refine (guards_readChild bytes _ pos).bind fun tlv => (hbody s tlv).bind fun turn => ?_
        cases turn with
        | done s' => exact Guards.pure _
        | yield s' => exact ih tlv.contentEnd s'
      · exact Guards.pure _

theorem guards_readField (above : List Tlv) (found : Option (Tlv × Tlv)) (field : Tlv) :
    Guards (readField (fun _ => true) bytes above found field)
      (readField nestedCheck bytes above found field) := by
  unfold readField
  split
  · exact (guards_firstChild bytes field above).bind fun _ => Guards.pure _
  · exact Guards.pure _

theorem guards_readPolicyInfo (above : List Tlv) (oids : List Text) (info : Tlv) :
    Guards (readPolicyInfo (fun _ => true) bytes above oids info)
      (readPolicyInfo nestedCheck bytes above oids info) := by
  refine (guards_firstChild bytes info above).bind fun child => ?_
  cases child with
  | none => exact Guards.fail _
  | some idOid =>
      dsimp only
      split
      · exact (Guards.lift _).bind fun _ => Guards.pure _
      · exact Guards.fail _

theorem guards_readPolicies (above parts : List Tlv) :
    Guards (readPolicies (fun _ => true) bytes above parts)
      (readPolicies nestedCheck bytes above parts) := by
  unfold readPolicies
  split
  · exact Guards.fail _
  split
  · refine (guards_firstChild bytes _ above).bind fun child => ?_
    cases child with
    | none => exact Guards.fail _
    | some policySeq =>
        dsimp only
        split
        · exact guards_forChildren bytes (guards_readPolicyInfo bytes _) _ _ _
        · exact Guards.fail _
  · exact Guards.fail _

theorem guards_readExtension (above : List Tlv) (found : Option (List Text)) (extension : Tlv) :
    Guards (readExtension (fun _ => true) bytes above found extension)
      (readExtension nestedCheck bytes above found extension) := by
  refine (guards_forChildren bytes (fun _ _ => Guards.pure _) _ _ _).bind fun parts => ?_
  split
  · exact Guards.pure _
  split
  · refine (Guards.lift _).bind fun id => ?_
    split
    · exact (guards_readPolicies bytes _ parts).bind fun _ => Guards.pure _
    · exact Guards.pure _
  · exact Guards.pure _

theorem guards_readTbs (outer tbs : Tlv) :
    Guards (readTbs (fun _ => true) bytes outer tbs) (readTbs nestedCheck bytes outer tbs) := by
  refine (guards_forChildren bytes (guards_readField bytes _) _ _ _).bind fun found => ?_
  match found with
  | none => exact Guards.pure _
  | some (field, extensions) =>
      dsimp only
      split
      · exact (guards_forChildren bytes (guards_readExtension bytes _) _ _ _).bind
          fun _ => Guards.pure _
      · exact Guards.pure _

theorem guards_readPolicyOids :
    Guards (readCertificatePolicyOids bytes) (readNestedPolicyOids bytes) := by
  refine (Guards.lift _).bind fun outer => ?_
  split
  · refine (guards_firstChild bytes outer []).bind fun child => ?_
    cases child with
    | none => exact Guards.fail _
    | some tbs =>
        dsimp only
        split
        · exact guards_readTbs bytes outer tbs
        · exact Guards.fail _
  · exact Guards.fail _

end GuardRules

/-! ## The exact condition -/

/-- A certificate whose policies are read with every length checked: each visited value
lies in the values around it, every read is inside the buffer, and the reader ends. -/
structure NestingChecked (bytes : Bytes) : Prop where
  nested : ∀ seen oids, readCertificatePolicyOids bytes = .ok (seen, oids) → ∀ v ∈ seen, v.Nested
  inBuffer : ∀ index, readCertificatePolicyOids bytes ≠ .error (.outside index)
  ends : readCertificatePolicyOids bytes ≠ .error .exhausted

theorem fault_is_parseError {bytes : Bytes} {fault : DerFault}
    (h : readCertificatePolicyOids bytes = .error fault) :
    ∃ message, fault = .parseError message := by
  have hsafe : SafeWalk (fun _ => True) (readCertificatePolicyOids bytes) :=
    readPolicyOidsWith_safe (fun _ => true) bytes
  rw [h] at hsafe
  exact hsafe

/-- A certificate that ends where its policies would begin: the SEQUENCE in the extnValue
claims the ten bytes behind the certificate. -/
def policiesBehindCertificate : Bytes :=
  [0x30, 0x11, 0x30, 0x0f, 0xa3, 0x0d, 0x30, 0x0b, 0x30, 0x09,
    0x06, 0x03, 0x55, 0x1d, 0x20, 0x04, 0x02, 0x30, 0x0a,
    0x30, 0x08, 0x06, 0x06, 0x67, 0x81, 0x0c, 0x01, 0x02, 0x01]

end Linklint
