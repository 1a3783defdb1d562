import Mathlib
import AstraNull.Custody
import AstraNull.ScriptObject

/-!
# Signed reviewed operations

The structural checks of `reviewedOperationBinding.mjs` that a reservation goes through: the shape
of a binding and its clocks (`shapeGap`), its agreement with the signed job (`signedGap`) and with
the reservation (`reservationGap`). Every value has passed the JSON gate of the grant before, so
the checks are over JSON values; the time is the number the grant hands down.
-/
namespace AstraNull.ReviewedOperations
open JsonText ScriptText ScriptValue ScriptObject Custody

structure Url where
  href : JsString
  protocol : JsString
  hostname : JsString
  port : JsString
  username : JsString
  password : JsString
  search : JsString
  hash : JsString

/-- The last millisecond of the year 9999. -/
def maxTime : ℤ := 253402300799999

/-- Characters of a text against a template, where `d` stands for a digit. -/
def fits (template : String) (s : JsString) : Bool :=
  s.length = template.toList.length &&
    (s.zip template.toList).all fun p =>
      if p.2 = 'd' then decide (48 ≤ p.1.toNat) && decide (p.1.toNat ≤ 57)
      else p.1.toNat = p.2.toNat

def millisTemplate : String := "dddd-dd-ddTdd:dd:dd.dddZ"

def secondsTemplate : String := "dddd-dd-ddTdd:dd:ddZ"

/-- What the contracts take from the runtime and from other modules. -/
structure Services where
  sha256 : ByteArray → List UInt8
  /-- `Date.parse`, nothing for an invalid date. -/
  parseDate : JsString → Option ℤ
  toISOString : ℤ → JsString
  parseUrl : JsString → Option Url
  isIP : JsString → Bool
  /-- Nothing when the profile is refused. -/
  buildProbeProfile : JsVal → Option JsVal
  checkVersion : JsVal → JsVal
  checkDigest : JsVal → JsVal
  approvedScenarioVersion : JsVal → JsVal
  iso_fits : ∀ t,0 ≤ t → t ≤ maxTime → fits millisTemplate (toISOString t) = true
  parse_iso : ∀ t,0 ≤ t → t ≤ maxTime → parseDate (toISOString t) = some t

inductive Gap where
  | bindingInvalid
  | clockInvalid
  | operationExpired
  | authorityExpired
  | destinationMismatch
  | checkChanged
  | deliveryUnavailable
  | profileMismatch
  | authorityInvalid
  | budgetInvalid
  | ownershipMismatch
  | originalJobMutated
  | reservationMismatch
deriving DecidableEq

def record : JsVal → Bool
  | .obj _ => true
  | _ => false

/-- An object with exactly these members. -/
def exact (v : JsVal) (keys : List String) : Bool :=
  record v && (members v).length = keys.length && keys.all (has v)

/-- A letter or digit, then at most 127 letters, digits or `_.:-`. -/
def isId : JsString → Bool
  | [] => false
  | u::us => isAlphanumeric u.toNat && decide (us.length ≤ 127) && us.all fun w =>
      isAlphanumeric w.toNat || w.toNat = 95 || w.toNat = 46 || w.toNat = 58 || w.toNat = 45

def idOk : JsVal → Bool
  | .str s => isId s
  | _ => false

def isHex (s : JsString) : Bool :=
  s.length = 64 && s.all fun u => (97 ≤ u.toNat && u.toNat ≤ 102) || (48 ≤ u.toNat && u.toNat ≤ 57)

def digestOk : JsVal → Bool
  | .str s => isHex s
  | _ => false

/-- A string of at most this many code units. -/
def textUpTo (n : ℕ) : JsVal → Bool
  | .str s => s.length ≤ n
  | _ => false

def same (a b : JsVal) : Bool :=
  canonicalJsonStringify (embed a) = canonicalJsonStringify (embed b)

/-- `a > b` as numbers. -/
def above (a b : JsVal) : Bool := (toNumber b).lt (toNumber a)

/-- `value > k` for a natural number. -/
def aboveNat (v : JsVal) (k : ℕ) : Bool := (natNumber k).lt (toNumber v)

/-- `value === k` for a natural number. -/
def isNat (v : JsVal) (k : ℕ) : Bool := sameNumber v (natNumber k)

/-- A safe integer that is at least one. -/
def positiveSafe (v : JsVal) : Bool := isSafeInteger v && positive v

section
variable (S : Services)

def hash (v : JsVal) : Option JsString := sha256CanonicalJson S.sha256 (embed v)

/-- `value === hash(v)`. -/
def isHash (value v : JsVal) : Bool :=
  match hash S v with
  | some h => strictEq value (.str h)
  | none => false

/-- The time of a UTC text, with or without milliseconds. -/
def utc : JsVal → Option ℤ
  | .str s =>
      if fits millisTemplate s then (S.parseDate s).filter fun t => S.toISOString t = s
      else if fits secondsTemplate s then
        (S.parseDate s).filter fun t => S.toISOString t = s.dropLast++js ".000Z"
      else none
  | _ => none

def endpoint : JsVal → Option Url
  | .str s =>
      if 4096 < s.length then none
      else (S.parseUrl s).filter fun url =>
        (url.protocol = js "http:" || url.protocol = js "https:") && url.hostname ≠ [] &&
          url.username = [] && url.password = [] && url.search = [] && url.hash = [] &&
          url.href = s
  | _ => none

def planKeys : List String :=
  ["version","tenant_id","target_id","target_definition_digest","check_id","check_version",
    "check_definition_digest","scenario_version","endpoint","method","template","semantics",
    "side_effects","request_schema","expires_at","maximum_body_bytes","maximum_probe_operations"]

def bindingKeys : List String :=
  ["version","review_id","plan_digest","plan","approval","ownership","probe_profile_digest",
    "authority"]

def maxLifetimeMs : ℤ := 24*60*60*1000

def shapeOk (binding : JsVal) : Bool :=
  exact binding bindingKeys && is (field binding "version") "reviewed-operation-binding.v1" &&
    idOk (field binding "review_id") && digestOk (field binding "plan_digest") &&
    digestOk (field binding "probe_profile_digest") && exact (field binding "plan") planKeys &&
    exact (field binding "approval") ["kind","id","role","approved_at"] &&
    is (field (field binding "approval") "kind") "human" &&
    idOk (field (field binding "approval") "id") &&
    oneOf (field (field binding "approval") "role") ["owner","admin"] &&
    exact (field binding "ownership") ["kind","state","target_id","transitioned_at"] &&
    is (field (field binding "ownership") "kind") "dns_txt" &&
    is (field (field binding "ownership") "state") "dns_verified" &&
    exact (field binding "authority") ["issued_at","original_not_after","not_after"]

def planOk (binding : JsVal) : Bool :=
  let p := field binding "plan"
  let query := is (field p "template") "marker-query-v1"
  is (field p "version") "reviewed-inert-operation.v1" && idOk (field p "tenant_id") &&
    idOk (field p "target_id") && idOk (field p "check_id") &&
    digestOk (field p "target_definition_digest") && digestOk (field p "check_definition_digest") &&
    textUpTo 128 (field p "check_version") && !is (field p "check_version") "" &&
    (strictEq (field p "scenario_version") .null || textUpTo 128 (field p "scenario_version")) &&
    (endpoint S (field p "endpoint")).isSome &&
    oneOf (field p "template") ["marker-query-v1","inert-json-v1"] &&
    is (field p "method") (if query then "GET" else "POST") &&
    is (field p "request_schema")
      (if query then "fixed-asn-probe-query.v1" else "fixed-asn-marker-json.v1") &&
    isNat (field p "maximum_body_bytes") (if query then 0 else 1024) &&
    is (field p "semantics") "inert_diagnostic" && is (field p "side_effects") "none" &&
    isNat (field p "maximum_probe_operations") 4 &&
    strictEq (field (field binding "ownership") "target_id") (field p "target_id") &&
    isHash S (field binding "plan_digest") p

/-- The six clocks of a binding. -/
structure Clocks where
  approved : ℤ
  expiry : ℤ
  owned : ℤ
  issued : ℤ
  original : ℤ
  until_ : ℤ

def clocks (binding : JsVal) : Option Clocks := do
  let approved ← utc S (field (field binding "approval") "approved_at")
  let expiry ← utc S (field (field binding "plan") "expires_at")
  let owned ← utc S (field (field binding "ownership") "transitioned_at")
  let issued ← utc S (field (field binding "authority") "issued_at")
  let original ← utc S (field (field binding "authority") "original_not_after")
  let until_ ← utc S (field (field binding "authority") "not_after")
  some ⟨approved,expiry,owned,issued,original,until_⟩

def clocksOk (c : Clocks) (at_ : ℤ) : Bool :=
  c.approved ≤ at_ && c.owned ≤ at_ && c.approved ≤ c.issued && c.owned ≤ c.issued &&
    c.issued ≤ at_ && c.approved < c.expiry && c.expiry-c.approved ≤ maxLifetimeMs &&
    c.issued < c.original && c.original-c.issued ≤ 120000 &&
    c.until_ = min c.original c.expiry && c.issued < c.until_

def shapeGap (binding : JsVal) (at_ : ℤ) : Option Gap :=
  if !shapeOk binding || !planOk S binding then some .bindingInvalid
  else match clocks S binding with
    | none => some .clockInvalid
    | some c =>
        if !clocksOk c at_ then some .clockInvalid
        else if c.expiry ≤ at_ then some .operationExpired
        else if c.until_ ≤ at_ then some .authorityExpired
        else none

def profileKeys : List String :=
  ["kind","max_requests","timeout_ms","marker","evasion_transform","marker_class",
    "scenario_family","marker_type","expected_action","nonce_hash_only","collect",
    "observation_only","scenario_version","delivery_supported","requires_complete_comparison"]

def supportedEvasionTransforms : List String :=
  ["double_url","mixed_url","unicode_normalization","homoglyph","overlong_utf8","html_entity",
    "js_escape","css_escape","base64_wrap","numeric_repr","whitespace","case_fold","control_char",
    "parser_hpp","parameter_location","benign_padding"]

/-- `check?.supported_targets?.includes('url')`; a value without `includes` throws, which the
caller turns into a refusal. -/
def supportsUrl : JsVal → Bool
  | .arr vs => vs.any fun v => is v "url"
  | .str s => decide (js "url" <:+: s)
  | _ => false

def keysWithin (v : JsVal) (keys : List String) : Bool :=
  (members v).all fun p => keys.any fun key => p.1 = js key

def reviewedOperationDelivery (plan check profile : JsVal) : Bool :=
  let p := field check "probe_profile"
  is (field plan "template") "marker-query-v1" && is (field plan "method") "GET" &&
    is (field plan "request_schema") "fixed-asn-probe-query.v1" &&
    isNat (field plan "maximum_body_bytes") 0 && is (field check "safety_class") "safe" &&
    supportsUrl (field check "supported_targets") && record p && keysWithin p profileKeys &&
    is (field p "kind") "waf_evasion_marker_probe" &&
    oneOf (field p "evasion_transform") supportedEvasionTransforms &&
    !is (field p "evasion_transform") "parameter_location" &&
    oneOf (field p "marker_class") ["sqli","xss","path_traversal"] &&
    is (field p "scenario_family") "marker" && is (field p "marker_type") "query" &&
    is (field p "expected_action") "block" && isTrue (field p "nonce_hash_only") &&
    isFalse (field p "observation_only") &&
    is (field p "scenario_version") "marker-comparison-v4" &&
    isTrue (field p "delivery_supported") && isTrue (field p "requires_complete_comparison") &&
    positiveSafe (field p "max_requests") && !aboveNat (field p "max_requests") 4 &&
    positiveSafe (field p "timeout_ms") && !aboveNat (field p "timeout_ms") 5000 &&
    textUpTo 128 (field p "marker") && !is (field p "marker") "" &&
    (match field p "collect" with
      | .arr vs => vs.all fun v => match v with
          | .str _ => true
          | _ => false
      | _ => false) &&
    record profile && (match S.buildProbeProfile p with
      | some built => same profile built
      | none => false)

/-- The signed fields of a job, with the column that repeats its target. -/
structure SignedJob where
  payload : JsVal
  targetId : JsVal

namespace SignedJob

def constraints (job : SignedJob) : JsVal := field job.payload "constraints"

def binding (job : SignedJob) : JsVal := field job.constraints "reviewed_operation_binding"

end SignedJob

def targetKeys : List String :=
  ["id","kind","value","expected_behavior","port","protocol","metadata"]

def defaultPort (url : Url) : Numeric :=
  if url.port ≠ [] then toNumber (.str url.port)
  else natNumber (if url.protocol = js "https:" then 443 else 80)

def targetOk (job : SignedJob) (p : JsVal) : Bool :=
  let t := field job.payload "target"
  strictEq (field job.payload "tenant_id") (field p "tenant_id") &&
    strictEq job.targetId (field p "target_id") &&
    strictEq (field job.payload "check_id") (field p "check_id") && record t &&
    strictEq (field t "id") (field p "target_id") && is (field t "kind") "url" &&
    keysWithin t targetKeys

def destinationOk (job : SignedJob) (p : JsVal) (url : Url) : Bool :=
  let t := field job.payload "target"
  match field t "value" with
  | .str value =>
      match S.parseUrl value with
      | some actual =>
          strictEq (.str actual.href) (field p "endpoint") && actual.username = [] &&
            actual.password = [] && actual.search = [] && actual.hash = [] &&
            (nullish (field t "port") || sameNumber (field t "port") (defaultPort url)) &&
            (nullish (field t "protocol") ||
              strictEq (field t "protocol") (.str url.protocol) ||
              strictEq (field t "protocol") (.str url.protocol.dropLast))
      | none => false
  | _ => false

def checkOk (p check : JsVal) : Bool :=
  strictEq (field check "check_id") (field p "check_id") &&
    strictEq (S.checkVersion check) (field p "check_version") &&
    strictEq (S.checkDigest check) (field p "check_definition_digest") &&
    strictEq (S.approvedScenarioVersion check) (field p "scenario_version")

def authorityOk (c binding : JsVal) : Bool :=
  is (field c "authority_version") "probe-authority-v2" &&
    strictEq (field c "issued_at") (field (field binding "authority") "issued_at") &&
    strictEq (field c "not_after") (field (field binding "authority") "not_after")

/-- The host without the brackets of an address literal. -/
def stripBrackets (host : JsString) : JsString :=
  let rest := if host.head? = some 91 then host.tail else host
  if rest.getLast? = some 93 then rest.dropLast else rest

def resolverAttempts (url : Url) : ℕ := if S.isIP (stripBrackets url.hostname) then 0 else 2

/-- `total === part + k`. -/
def sumIs (total part : JsVal) (k : ℕ) : Bool :=
  match total,part with
  | .num m,.num n => rational m = rational n+k
  | _,_ => false

def budgetOk (c profile : JsVal) (resolver : ℕ) : Bool :=
  positiveSafe (field c "max_probe_requests") && !aboveNat (field c "max_probe_requests") 4 &&
    !above (field c "max_probe_requests") (field profile "max_requests") &&
    isNat (field c "min_destination_resolver_attempts") resolver &&
    isNat (field c "max_destination_resolver_attempts") resolver &&
    sumIs (field c "max_total_operations") (field c "max_probe_requests") resolver &&
    strictEq (field c "max_requests") (field c "max_total_operations") &&
    isNat (field c "execution_attempts") 1 && positiveSafe (field c "timeout_ms") &&
    !above (field c "timeout_ms") (field profile "timeout_ms") &&
    ["retry_attempts","retries","refunds","budget_refunds"].all fun key => !has c key

def signedGap (job : SignedJob) (check : JsVal) (at_ : ℤ) : Option Gap :=
  let binding := job.binding
  let p := field binding "plan"
  let profile := field job.payload "probe_profile"
  if !record job.constraints then some .bindingInvalid
  else match shapeGap S binding at_ with
    | some gap => some gap
    | none =>
        match endpoint S (field p "endpoint") with
        | none => some .bindingInvalid
        | some url =>
            if !targetOk job p || !destinationOk S job p url then some .destinationMismatch
            else if !checkOk S p check then some .checkChanged
            else if !reviewedOperationDelivery S p check profile then some .deliveryUnavailable
            else if !isHash S (field binding "probe_profile_digest") profile then
              some .profileMismatch
            else if !authorityOk job.constraints binding then some .authorityInvalid
            else if !budgetOk job.constraints profile (resolverAttempts S url) then
              some .budgetInvalid
            else if !same (field job.constraints "ownership_binding") (field binding "ownership")
              then some .ownershipMismatch
            else none

/-- The authenticated lease, with the columns of the job that name it. -/
structure Lease where
  workerId : JsVal
  leasedAt : JsVal
  jobLeasedBy : JsVal
  jobLeasedAt : JsVal

def reservationKeys : List String :=
  ["version","id","worker_id","leased_at","reserved_at","not_after","max_probe_requests",
    "max_destination_resolver_attempts","max_total_operations","state","reviewed_operation"]

def copiedConstraints : List String :=
  ["not_after","max_probe_requests","max_destination_resolver_attempts","max_total_operations"]

def operationReference (b : JsVal) : JsVal :=
  .obj [(js "binding_version",field b "version"),(js "review_id",field b "review_id"),
    (js "plan_version",field (field b "plan") "version"),(js "plan_digest",field b "plan_digest")]

def reservationOk (job : SignedJob) (reservation : JsVal) (lease : Lease) : Bool :=
  exact reservation reservationKeys &&
    is (field reservation "version") "execution-reservation.v1" &&
    is (field reservation "state") "reserved_unknown" && idOk (field reservation "id") &&
    idOk (field reservation "worker_id") && idOk lease.workerId &&
    (utc S lease.leasedAt).isSome && strictEq lease.jobLeasedBy lease.workerId &&
    strictEq lease.jobLeasedAt lease.leasedAt &&
    strictEq (field reservation "worker_id") lease.workerId &&
    strictEq (field reservation "leased_at") lease.leasedAt &&
    exact (field reservation "reviewed_operation")
      ["binding_version","review_id","plan_version","plan_digest"] &&
    same (field reservation "reviewed_operation") (operationReference job.binding) &&
    copiedConstraints.all fun key => strictEq (field reservation key) (field job.constraints key)

def reservationGap (job : SignedJob) (reservation : JsVal) (lease : Lease) (at_ : ℤ) :
    Option Gap :=
  if !reservationOk S job reservation lease then some .reservationMismatch
  else match utc S (field reservation "reserved_at"),utc S (field reservation "leased_at") with
    | some reserved,some leased =>
        -- A comparison with an invalid time is false.
        if (utc S (field job.constraints "issued_at")).any (leased < ·) ||
            reserved < leased ||
            (utc S (field job.constraints "not_after")).any (· ≤ reserved) || at_ < reserved then
          some .reservationMismatch
        else none
    | _,_ => some .reservationMismatch

/-- What `validateReviewedOperationReservation` finds; `none` for a job without a binding. -/
def validateReservation (job : SignedJob) (reservation check : JsVal) (lease : Lease) (at_ : ℤ) :
    Option (Option Gap) :=
  if !has job.constraints "reviewed_operation_binding" then none
  else if has job.constraints "execution_reservation" then some (some .originalJobMutated)
  else match signedGap S job check at_ with
    | some gap => some (some gap)
    | none => some (reservationGap S job reservation lease at_)

end

end AstraNull.ReviewedOperations
