import Linklint.Js.Text
import Linklint.Transport.Outcome
import Mathlib.Data.List.Infix

/-!
# The bounded DER reader for certificate policies

A read outside the buffer and a loop that never ends are faults of their own, so
that a theorem can say that neither occurs. A walk keeps the values it visited,
each with the values it was reached through.
-/

namespace Linklint

inductive DerFault where
  | parseError (message : Text)
  | outside (index : Nat)
  | exhausted
deriving DecidableEq

structure Tlv where
  tag : UInt8
  contentStart : Nat
  contentEnd : Nat
deriving DecidableEq

/-- A value found at `pos` below the values of `within`, the nearest one first. -/
structure DerVisit where
  within : List Tlv
  pos : Nat
  tlv : Tlv
deriving DecidableEq

/-- The header and the content lie in the content range of every enclosing value. -/
def DerVisit.Nested (v : DerVisit) : Prop :=
  ∀ outer ∈ v.within, outer.contentStart ≤ v.pos ∧ v.tlv.contentEnd ≤ outer.contentEnd

instance (v : DerVisit) : Decidable v.Nested := by
  unfold DerVisit.Nested
  infer_instance

def derError {α : Type} (message : String) : Except DerFault α :=
  .error (.parseError (text message))

def byteAt (bytes : Bytes) (i : Nat) : Except DerFault UInt8 :=
  match bytes[i]? with
  | some b => .ok b
  | none => .error (.outside i)

/-- The length of a value and where its content starts. -/
def readLength (bytes : Bytes) (cursor : Nat) (first : UInt8) : Except DerFault (Nat × Nat) :=
  if first &&& 0x80 = 0 then .ok (first.toNat, cursor)
  else
    let byteCount := (first &&& 0x7f).toNat
    if byteCount = 0 then derError "indefinite length is not allowed"
    else if 4 < byteCount then derError "length field too large"
    else if bytes.length < cursor + byteCount then derError "truncated length"
    else do
      let length ← (List.range byteCount).foldlM
        (fun length i => do return length * 256 + (← byteAt bytes (cursor + i)).toNat) 0
      return (length, cursor + byteCount)

def readTlv (bytes : Bytes) (pos : Nat) : Except DerFault Tlv :=
  if bytes.length ≤ pos + 1 then derError "truncated tag/length"
  else do
    let tag ← byteAt bytes pos
    let first ← byteAt bytes (pos + 1)
    let (length, cursor) ← readLength bytes (pos + 2) first
    if bytes.length < cursor + length then derError "content exceeds buffer"
    else return { tag, contentStart := cursor, contentEnd := cursor + length }

/-! ## Object identifiers -/

structure OidScan where
  arcs : List Nat
  value : Nat
  started : Bool
deriving DecidableEq

/-- `value * 128 + (byte & 0x7f)`, the largest number the decoder forms. -/
def OidScan.accumulate (scan : OidScan) (byte : UInt8) : Nat :=
  scan.value * 128 + (byte &&& 0x7f).toNat

def MAX_SAFE_INTEGER : Nat := 2 ^ 53 - 1

/-- The scan after a byte: an arc ends with a byte whose high bit is clear, and the
first one stands for two. -/
def OidScan.push (scan : OidScan) (byte : UInt8) : OidScan :=
  let value := scan.accumulate byte
  if byte &&& 0x80 = 0 then
    let arcs :=
      if scan.started then scan.arcs ++ [value]
      else [min 2 (value / 40), value - min 2 (value / 40) * 40]
    { arcs, value := 0, started := true }
  else { scan with value }

/-- A division by a power of two is exact, so both sides of the guard are multiplied. -/
def OidScan.step (scan : OidScan) (byte : UInt8) : Except DerFault OidScan :=
  let next := scan.push byte
  if MAX_SAFE_INTEGER < next.value * 128 then derError "OID arc overflow" else .ok next

def scanOid (bytes : Bytes) (start stop : Nat) : Except DerFault OidScan :=
  (List.range' start (stop - start)).foldlM
    (fun scan i => do scan.step (← byteAt bytes i)) { arcs := [], value := 0, started := false }

/-- `arcs.join(".")`. -/
def oidText (arcs : List Nat) : Text := Text.join (text ".") (arcs.map decimalText)

def decodeOid (bytes : Bytes) (start stop : Nat) : Except DerFault Text :=
  if stop ≤ start then derError "empty OID"
  else do
    let scan ← scanOid bytes start stop
    if scan.started then return oidText scan.arcs else derError "truncated OID"

/-! ## The walk -/

/-- A result with the visits that were made for it. -/
def DerWalk (α : Type) : Type := Except DerFault (List DerVisit × α)

namespace DerWalk

variable {α β σ : Type}

def pure (a : α) : DerWalk α := .ok ([], a)

def bind (m : DerWalk α) (f : α → DerWalk β) : DerWalk β :=
  match m with
  | .error fault => .error fault
  | .ok (seen, a) =>
      match f a with
      | .error fault => .error fault
      | .ok (more, b) => .ok (seen ++ more, b)

instance : Monad DerWalk where
  pure := pure
  bind := bind

theorem ok_bind (seen : List DerVisit) (a : α) (f : α → DerWalk β) :
    DerWalk.bind (.ok (seen, a)) f
      = match f a with
        | .error fault => .error fault
        | .ok (more, b) => .ok (seen ++ more, b) := rfl

/-- A step of the walk that visits nothing. -/
def lift (r : Except DerFault α) : DerWalk α :=
  match r with
  | .error fault => .error fault
  | .ok a => .ok ([], a)

def note (v : DerVisit) : DerWalk Unit := .ok ([v], ())

def fail (message : String) : DerWalk α := lift (derError message)

end DerWalk

section Reader

variable (check : DerVisit → Bool) (bytes : Bytes)

def visit (v : DerVisit) : DerWalk Unit :=
  if check v then DerWalk.note v else DerWalk.fail "value exceeds its parent"

/-- One value of `childrenOf`, once `check` accepts where it was found. -/
def readChild (within : List Tlv) (pos : Nat) : DerWalk Tlv := do
  let tlv ← DerWalk.lift (readTlv bytes pos)
  visit check ⟨within, pos, tlv⟩
  return tlv

/-- `childrenOf(…).next().value`. -/
def firstChild (parent : Tlv) (above : List Tlv) : DerWalk (Option Tlv) :=
  if parent.contentStart < parent.contentEnd then do
    let tlv ← readChild check bytes (parent :: above) parent.contentStart
    return some tlv
  else return none

/-- `for (const tlv of childrenOf(…))`, whose body may end the loop. Every value is
at least two bytes long, so `fuel` may be any bound on the length of the range. -/
def forChildren {σ : Type} (parent : Tlv) (above : List Tlv)
    (body : σ → Tlv → DerWalk (ForInStep σ)) : Nat → Nat → σ → DerWalk σ
  | fuel, pos, s =>
      if pos < parent.contentEnd then
        match fuel with
        | 0 => DerWalk.lift (.error .exhausted)
        | fuel + 1 => do
            let tlv ← readChild check bytes (parent :: above) pos
            match ← body s tlv with
            | .done s => return s
            | .yield s => forChildren parent above body fuel tlv.contentEnd s
      else return s

def childrenOf {σ : Type} (parent : Tlv) (above : List Tlv) (init : σ)
    (body : σ → Tlv → DerWalk (ForInStep σ)) : DerWalk σ :=
  forChildren check bytes parent above body (parent.contentEnd - parent.contentStart)
    parent.contentStart init

def OID_CERTIFICATE_POLICIES : Text := text "2.5.29.32"
def CONTEXT_EXTENSIONS : UInt8 := 0xa3
def TAG_SEQUENCE : UInt8 := 0x30
def TAG_OID : UInt8 := 0x06
def TAG_OCTET_STRING : UInt8 := 0x04

/-- The body of the loop over the fields of the tbsCertificate: `[3] EXPLICIT` wraps
the extensions, and is kept beside them. -/
def readField (above : List Tlv) (_ : Option (Tlv × Tlv)) (field : Tlv) :
    DerWalk (ForInStep (Option (Tlv × Tlv))) :=
  if field.tag = CONTEXT_EXTENSIONS then do
    let extensions ← firstChild check bytes field above
    return .done (extensions.map fun extensions => (field, extensions))
  else return .yield none

/-- The body of the loop over the policies. -/
def readPolicyInfo (above : List Tlv) (oids : List Text) (info : Tlv) :
    DerWalk (ForInStep (List Text)) := do
  match ← firstChild check bytes info above with
  | none => DerWalk.fail "malformed policyIdentifier"
  | some idOid =>
      if idOid.tag = TAG_OID then do
        let oid ← DerWalk.lift (decodeOid bytes idOid.contentStart idOid.contentEnd)
        return .yield (oids ++ [oid])
      else DerWalk.fail "malformed policyIdentifier"

/-- The policies of an extension whose identifier is that of `certificatePolicies`. -/
def readPolicies (above : List Tlv) (parts : List Tlv) : DerWalk (List Text) :=
  match parts.getLast? with
  | none => DerWalk.fail "malformed extnValue"
  | some value =>
      if value.tag = TAG_OCTET_STRING then do
        match ← firstChild check bytes value above with
        | none => DerWalk.fail "malformed policies"
        | some policySeq =>
            if policySeq.tag = TAG_SEQUENCE then
              childrenOf check bytes policySeq (value :: above) []
                (readPolicyInfo check bytes (policySeq :: value :: above))
            else DerWalk.fail "malformed policies"
      else DerWalk.fail "malformed extnValue"

/-- The body of the loop over the extensions. -/
def readExtension (above : List Tlv) (_ : Option (List Text)) (extension : Tlv) :
    DerWalk (ForInStep (Option (List Text))) := do
  let parts ← childrenOf check bytes extension above ([] : List Tlv)
    fun parts part => return .yield (parts ++ [part])
  match parts.head? with
  | none => return .yield none
  | some idPart =>
      if idPart.tag = TAG_OID then do
        let id ← DerWalk.lift (decodeOid bytes idPart.contentStart idPart.contentEnd)
        if id = OID_CERTIFICATE_POLICIES then do
          return .done (some (← readPolicies check bytes (extension :: above) parts))
        else return .yield none
      else return .yield none

def readTbs (outer tbs : Tlv) : DerWalk (List Text) := do
  match ← childrenOf check bytes tbs [outer] none (readField check bytes [tbs, outer]) with
  | none => return []
  | some (field, extensions) =>
      if extensions.tag = TAG_SEQUENCE then do
        let oids ← childrenOf check bytes extensions [field, tbs, outer] none
          (readExtension check bytes [extensions, field, tbs, outer])
        return oids.getD []
      else return []

/-- `readCertificatePolicyOids` with a check on where each value was found. -/
def readPolicyOidsWith : DerWalk (List Text) := do
  let outer ← DerWalk.lift (readTlv bytes 0)
  if outer.tag = TAG_SEQUENCE then do
    match ← firstChild check bytes outer [] with
    | none => DerWalk.fail "missing tbsCertificate"
    | some tbs =>
        if tbs.tag = TAG_SEQUENCE then readTbs check bytes outer tbs
        else DerWalk.fail "missing tbsCertificate"
  else DerWalk.fail "certificate is not a SEQUENCE"

end Reader

/-- The source checks a value against the end of the buffer only. -/
def readCertificatePolicyOids (bytes : Bytes) : DerWalk (List Text) :=
  readPolicyOidsWith (fun _ => true) bytes

end Linklint
