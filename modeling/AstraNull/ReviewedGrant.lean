import Mathlib
import AstraNull.CanonicalEncoders
import AstraNull.ReviewedOperations

/-!
# Reviewed execution grants

`buildReviewedExecutionGrantEnvelope` and `validateReviewedExecutionGrantEnvelope` of
`reviewedExecutionGrant.mjs`. A grant is built at a time; validation rebuilds it at that time, in
the context it is given, and compares canonical texts. The objects of the two calls have exactly
the properties of `Context` and `Signer`; an object with others is refused and is none of these.
-/
namespace AstraNull.ReviewedGrant
open JsonText CanonicalJson ScriptText ScriptValue ScriptObject Custody CanonicalEncoders
open ReviewedOperations

/-- A value given as the current time. -/
inductive Instant where
  /-- A `Date`, with its time unless it is invalid. -/
  | date (time : Option ℤ)
  /-- A finite number. -/
  | number (value : ℚ)
  | text (s : JsString)
  | other

structure Context where
  originalJob : Content
  reservation : Content
  check : Content
  tenantId : Content
  workerId : Content
  leasedAt : Content
  now : Instant

structure Signer where
  algorithm : JsVal
  keyReference : JsVal
  fingerprint : JsVal

inductive GrantError where
  | inputInvalid
  | originalJobInvalid
  | tenantMismatch
  | clockInvalid
  | expired
  | operation (gap : Gap)
  | reviewRequired
  | envelopeInvalid
  | bindingMismatch
deriving DecidableEq

inductive Mode where
  | current
  | historical
deriving DecidableEq

/-- The JSON value of an admitted content. -/
def admitted (c : Content) : Option JsVal := if reviewedGrantJson c then some (reading c) else none

def member (c : Content) (name : String) : Content :=
  match c with
  | .obj _ members => ((members.find? fun p => p.1 = js name).map Prod.snd).getD .undefined
  | _ => .undefined

def reviewedGrantRecord : Content → Bool
  | .obj .none members => members.all fun p => p.1 ≠ js "__proto__"
  | _ => false

/-- A primitive JSON value or `undefined`; nothing for any other value. -/
def primitive : Content → Option JsVal
  | .undefined => some .undefined
  | .null => some .null
  | .bool b => some (.bool b)
  | .num n => some (.num n)
  | .negativeZero => some (.num .zero)
  | .str s => some (.str s)
  | _ => none

/-- A string of a canonical text, in code units. -/
def ofText (t : List Char) : JsString := t.flatMap units

section
variable (S : Services)

def reviewedGrantUtc : JsVal → Option ℤ
  | .str s =>
      if fits millisTemplate s then (S.parseDate s).filter fun t => S.toISOString t = s else none
  | _ => none

def reviewedGrantClock (now : Instant) : Option ℤ :=
  (match now with
    | .date time => time
    | .number value => if value.den = 1 then some value.num else none
    | .text s => reviewedGrantUtc S (.str s)
    | .other => none).filter fun t => 0 ≤ t ∧ t ≤ maxTime

def originalJobSignedKeys : List String :=
  ["check_id","constraints","id","nonce_hash","probe_profile","target","tenant_id","test_run_id"]

def requiredConstraints : List String :=
  ["authority_version","issued_at","not_after","execution_attempts","timeout_ms",
    "max_probe_requests","min_destination_resolver_attempts","max_destination_resolver_attempts",
    "max_total_operations","max_requests","ownership_binding","reviewed_operation_binding"]

def optionalConstraints : List String :=
  ["max_events","max_duration_seconds","max_concurrent_runs_per_target_group"]

def maxPayloadLength : ℕ := 131072

/-- The object of the signed fields. -/
def signedFields (job : Content) : Content :=
  .obj .none (originalJobSignedKeys.map fun key => (js key,member job key))

def constraintsOk (c : JsVal) : Bool :=
  record c && requiredConstraints.all (has c) &&
    keysWithin c (requiredConstraints++optionalConstraints) &&
    optionalConstraints.all fun key => !has c key || positiveSafe (field c key)

def jobSignature (job : Content) : Option JsString :=
  match member job "job_signature" with
  | .str s => if isHex s then some s else none
  | _ => none

def targetIdOf (job : Content) : JsVal := (primitive (member job "target_id")).getD .undefined

def payloadOk (job : Content) (payload : JsVal) : Bool :=
  let target := field payload "target"
  constraintsOk (field payload "constraints") &&
    (["id","tenant_id","test_run_id","check_id"].all fun key => idOk (field payload key)) &&
    digestOk (field payload "nonce_hash") && (jobSignature job).isSome && record target &&
    isId (toStr (field target "id")) &&
    (primitive (member job "target_id")).any fun v => strictEq v (field target "id")

/-- The signed fields with their canonical text. -/
def originalPayload (job : Content) : Option (JsVal × List Char) :=
  if !reviewedGrantRecord job then none
  else (admitted (signedFields job)).bind fun payload =>
    if !payloadOk job payload then none
    else (canonicalJsonStringify (signedFields job)).bind fun canonical =>
      if (ofText canonical).length ≤ maxPayloadLength then some (payload,canonical) else none

/-- What a grant is made of. -/
structure Grant where
  payload : JsVal
  canonical : List Char
  targetId : JsVal
  signature : JsString
  tenantId : JsVal
  workerId : JsVal
  leasedAt : JsVal
  reservation : JsVal
  issuedAt : ℤ

namespace Grant

def constraints (g : Grant) : JsVal := field g.payload "constraints"

def binding (g : Grant) : JsVal := field g.constraints "reviewed_operation_binding"

def job (g : Grant) : JsVal :=
  .obj [(js "id",field g.payload "id"),(js "test_run_id",field g.payload "test_run_id"),
    (js "check_id",field g.payload "check_id"),(js "target_id",g.targetId),
    (js "nonce_hash",field g.payload "nonce_hash")]

def budgets (g : Grant) : JsVal :=
  .obj [(js "max_probe_requests",field g.constraints "max_probe_requests"),
    (js "max_destination_resolver_attempts",
      field g.constraints "max_destination_resolver_attempts"),
    (js "max_total_operations",field g.constraints "max_total_operations"),
    (js "execution_attempts",field g.constraints "execution_attempts"),
    (js "timeout_ms",field g.constraints "timeout_ms")]

def authority (g : Grant) : JsVal :=
  .obj [(js "issued_at",field g.constraints "issued_at"),
    (js "original_not_after",field (field g.binding "authority") "original_not_after"),
    (js "not_after",field g.constraints "not_after"),
    (js "grant_issued_at",.str (S.toISOString g.issuedAt))]

end Grant

def envelopeVersion : String := "reviewed-execution-grant-envelope.v1"

def purpose : String := "astranull.reviewed-operation.execution-grant"

def signatureHash (s : JsString) : JsString := ProbeJobSigning.hex (S.sha256 (utf8 s))

def envelope (signer : Signer) (g : Grant) : JsVal :=
  .obj [(js "version",.str (js envelopeVersion)),(js "purpose",.str (js purpose)),
    (js "content_canonicalization",.str (js contentCanonicalization)),
    (js "algorithm",signer.algorithm),(js "key_reference",signer.keyReference),
    (js "public_key_fingerprint_sha256",signer.fingerprint),(js "tenant_id",g.tenantId),
    (js "job",g.job),(js "original_job_payload",.str (ofText g.canonical)),
    (js "original_job_signature_sha256",.str (signatureHash S g.signature)),
    (js "worker",.obj [(js "id",g.workerId),(js "leased_at",g.leasedAt)]),
    (js "reservation",g.reservation),(js "budgets",g.budgets),(js "authority",g.authority S)]

def isKeyReference (s : JsString) : Bool :=
  (js "key://").isPrefixOf s && match s.drop 6 with
    | [] => false
    | u::us => isAlphanumeric u.toNat && decide (us.length ≤ 255) && us.all fun w =>
        isAlphanumeric w.toNat || w.toNat = 46 || w.toNat = 95 || w.toNat = 47 || w.toNat = 45

def signerOk (signer : Signer) : Bool :=
  is signer.algorithm "ed25519" && digestOk signer.fingerprint &&
    match signer.keyReference with
    | .str s => isKeyReference s
    | _ => false

/-- The texts of a binding and a reservation that have to be times. -/
def clockTexts (binding reservation : JsVal) : List JsVal :=
  [field (field binding "authority") "issued_at",
    field (field binding "authority") "original_not_after",
    field (field binding "authority") "not_after",
    field (field binding "approval") "approved_at",
    field (field binding "ownership") "transitioned_at",field (field binding "plan") "expires_at",
    field reservation "reserved_at"]

/-- The binding checks that come before the time is compared; a read of `null` throws. -/
def clockGap (binding reservation : JsVal) : Option GrantError :=
  if !reviewedGrantJson (embed binding) then some .clockInvalid
  else if nullish binding then some .inputInvalid
  else if !record (field binding "authority") then some .clockInvalid
  else if nullish reservation then some .inputInvalid
  else if (clockTexts binding reservation).all fun v => (reviewedGrantUtc S v).isSome then none
  else some .clockInvalid

def leaseOf (ctx : Context) : Lease where
  workerId := (primitive ctx.workerId).getD .undefined
  leasedAt := (primitive ctx.leasedAt).getD .undefined
  jobLeasedBy := (primitive (member ctx.originalJob "leased_by")).getD .undefined
  jobLeasedAt := (primitive (member ctx.originalJob "leased_at")).getD .undefined

/-- The comparison of the clocks and the checks behind it. -/
def buildAt (grant : Grant) (check : JsVal) (lease : Lease) (at_ issued until_ : ℤ) :
    Except GrantError Grant :=
  match clockGap S grant.binding grant.reservation with
  | some error => .error error
  | none =>
      if at_ < issued ∨ until_ ≤ at_ then .error .expired
      else match validateReservation S ⟨grant.payload,grant.targetId⟩ grant.reservation check lease
          at_ with
        | none => .error .reviewRequired
        | some (some gap) => .error (.operation gap)
        | some none => .ok grant

def tenantOk (tenantId : JsVal) (payload : JsVal) : Bool :=
  idOk tenantId && strictEq tenantId (field payload "tenant_id")

def buildGrant (ctx : Context) : Except GrantError Grant :=
  match admitted ctx.reservation,admitted ctx.check with
  | some reservation,some check =>
      match originalPayload ctx.originalJob with
      | none => .error .originalJobInvalid
      | some (payload,canonical) =>
          let tenantId := (primitive ctx.tenantId).getD .undefined
          let lease := leaseOf ctx
          let c := field payload "constraints"
          if !tenantOk tenantId payload then .error .tenantMismatch
          else match reviewedGrantClock S ctx.now,reviewedGrantUtc S lease.leasedAt,
              reviewedGrantUtc S (field c "issued_at"),reviewedGrantUtc S (field c "not_after") with
            | some at_,some _,some issued,some until_ =>
                buildAt S ⟨payload,canonical,targetIdOf ctx.originalJob,
                  (jobSignature ctx.originalJob).getD [],tenantId,lease.workerId,lease.leasedAt,
                  reservation,at_⟩ check lease at_ issued until_
            | _,_,_,_ => .error .clockInvalid
  | _,_ => .error .inputInvalid

def buildReviewedExecutionGrantEnvelope (ctx : Context) (signer : Signer) :
    Except GrantError JsVal :=
  if !signerOk signer then .error .inputInvalid else (buildGrant S ctx).map (envelope S signer)

def envelopeKeys : List String :=
  ["version","purpose","content_canonicalization","algorithm","key_reference",
    "public_key_fingerprint_sha256","tenant_id","job","original_job_payload",
    "original_job_signature_sha256","worker","reservation","budgets","authority"]

def envelopeOk (env : JsVal) : Bool :=
  exact env envelopeKeys && is (field env "version") envelopeVersion &&
    is (field env "purpose") purpose &&
    is (field env "content_canonicalization") contentCanonicalization &&
    is (field env "algorithm") "ed25519" &&
    exact (field env "authority") ["issued_at","original_not_after","not_after","grant_issued_at"]

def signerOf (env : JsVal) : Signer :=
  ⟨field env "algorithm",field env "key_reference",field env "public_key_fingerprint_sha256"⟩

def validateReviewedExecutionGrantEnvelope (envelope : Content) (ctx : Context) (mode : Mode) :
    Except GrantError Unit :=
  match admitted envelope with
  | none => .error .envelopeInvalid
  | some env =>
      if !envelopeOk env then .error .envelopeInvalid
      else match reviewedGrantUtc S (field (field env "authority") "grant_issued_at"),
          reviewedGrantClock S ctx.now with
        | some grantedAt,some now =>
            if now < grantedAt then .error .clockInvalid
            else match buildReviewedExecutionGrantEnvelope S
                { ctx with now := .number grantedAt } (signerOf env) with
              | .error error => .error error
              | .ok rebuilt =>
                  if canonicalJsonStringify envelope ≠ canonicalJsonStringify (embed rebuilt) then
                    .error .bindingMismatch
                  else if mode = .current ∧
                      (reviewedGrantUtc S (field (field env "authority") "not_after")).any (· ≤ now)
                    then .error .expired
                  else .ok ()
        | _,_ => .error .clockInvalid

end

end AstraNull.ReviewedGrant
