import Mathlib
import AstraNull.JsonText
import AstraNull.ScriptText
import AstraNull.ScriptObject
import AstraNull.OwnershipTransitions
import AstraNull.DnsOwnership

/-!
# Ownership of a target

Two readers of the verification history. `effectiveTargetVerifications` projects the rows of a
whole tenant; `targetOwnershipProof` decides for one target whether live traffic may be aimed at
it. A discovered subdomain without proof of its own takes that of the parent its tag names.
Provider verifications count while the connector's last successful snapshot still backs them.
-/
namespace AstraNull.TargetOwnership
open JsonText ScriptText ScriptValue ScriptObject OwnershipTransitions
open DnsOwnership (TargetKind withoutLastPoint)

structure Platform where
  toLowerCase : JsString → JsString
  /-- `Date.parse(text)`, nothing when it is not finite. -/
  parseDate : JsString → Option ℤ
  toISOString : ℤ → JsString
  /-- The variable `ASTRANULL_DEMO_AUTO_VERIFY_TENANTS`. -/
  demoAutoVerifyTenants : JsString

structure Target where
  id : JsString
  tenantId : JsString
  targetGroupId : JsString
  kind : TargetKind
  value : JsVal
  normalizedValue : JsVal
  metadata : JsVal
  metadataJson : JsVal
  tags : JsVal
  createdAt : JsString
  deleted : Bool

/-- Connectors and snapshots are objects as they were stored. -/
structure Store where
  now : ℤ
  targets : List Target
  targetVerifications : List Verification
  wafConnectors : List JsVal
  wafConnectorSnapshots : List JsVal

def verificationRank (state : JsString) : ℕ :=
  if state = js "pending" then 1
  else if state = js "dns_verified" then 2
  else if state = js "provider_verified" then 2
  else if state = js "user_confirmed" then 4
  else 0

def minProofRank : ℕ := verificationRank (js "dns_verified")

inductive ProofSource where
  | target
  | parent
deriving DecidableEq

structure Proof where
  verified : Bool
  state : JsString
  source : Option ProofSource
  inheritedFromTargetId : Option JsString

def ownershipProofFromStates (targetState : Option JsString) : Proof :=
  let target := targetState.getD (js "unverified")
  if minProofRank ≤ verificationRank target then ⟨true,target,some .target,none⟩
  else ⟨false,target,none,none⟩

section
variable (P : Platform)

def matchesDemoAccount (tenantId : JsString) : Bool :=
  tenantId ≠ [] && (trim tenantId = js "Astra-D1TrtI4HMTSrwKRW-9" ||
    P.toLowerCase (trim tenantId) = P.toLowerCase (js "admin@demo.astranull.local"))

def demoAutoVerifyTenants : List JsString :=
  ((P.demoAutoVerifyTenants.splitOn 44).map trim).filter fun t => t ≠ []

def isDemoAutoVerifyTenant (tenantId : JsString) : Bool :=
  if tenantId = [] then false
  else if matchesDemoAccount P tenantId then true
  else if trim tenantId = [] then false
  else
    let configured := demoAutoVerifyTenants P
    configured.contains (js "*") || configured.contains (js "all") ||
      configured.contains (trim tenantId)

def lower : JsVal → JsString
  | .str s => P.toLowerCase (trim s)
  | _ => []

def subdomainParentTagPrefix : JsString := js "subdomain-of:"

def texts (vs : List JsVal) : List JsString :=
  vs.filterMap fun
    | .str s => some s
    | _ => none

def targetTagsFromRecord (target : Target) : List JsString :=
  let metadata := orElse target.metadata target.metadataJson
  let stored := if isObject metadata then field metadata "tags" else .undefined
  match stored,target.tags with
  | .arr vs,_ => texts vs
  | _,.arr vs => texts vs
  | _,_ => []

/-- The parent named by the tag; empty for a target that was not discovered. -/
def subdomainParentId (target : Target) : JsString :=
  let tag := ((targetTagsFromRecord target).map fun t => lower P (.str t)).find? fun t =>
    subdomainParentTagPrefix.isPrefixOf t
  match tag with
  | some t => t.drop subdomainParentTagPrefix.length
  | none => []

def isDiscoveredSubdomain (target : Target) : Bool := subdomainParentId P target ≠ []

def hostnameOf (target : Target) : JsString :=
  withoutLastPoint (lower P (orElse target.normalizedValue target.value))

def isStrictSubdomain (hostname parentHostname : JsString) : Bool :=
  let host := withoutLastPoint (lower P (.str hostname))
  let parent := withoutLastPoint (lower P (.str parentHostname))
  host ≠ [] && parent ≠ [] && host ≠ parent && (46::parent).isSuffixOf host

def ownershipParentFor (target : Target) (candidates : List Target) : Option Target :=
  if target.kind ≠ .fqdn then none
  else
    let parentId := subdomainParentId P target
    if parentId = [] then none
    else
      let parent := candidates.find? fun candidate =>
        lower P (.str candidate.id) == parentId && candidate.kind == .fqdn && !candidate.deleted &&
          (candidate.tenantId == [] || target.tenantId == [] ||
            candidate.tenantId == target.tenantId) &&
          (candidate.targetGroupId == [] || candidate.targetGroupId == target.targetGroupId)
      match parent with
      | none => none
      | some parent =>
          if isDiscoveredSubdomain P parent then none
          else if isStrictSubdomain P (hostnameOf P target) (hostnameOf P parent) then some parent
          else none

def providerVerifiedDnsProviders : List JsString :=
  [js "cloudflare",js "akamai_edgedns",js "namecheap",js "godaddy",js "ibm_ns1"]

def providerOwnershipMaxAgeMs : ℤ := 24*60*60*1000

/-- `String(value ?? '')` -/
def textOf (v : JsVal) : JsString := toStr (orElse v (.str []))

def sameInstant (left right : JsVal) : Bool :=
  match P.parseDate (textOf left),P.parseDate (textOf right) with
  | some l,some r => l = r
  | _,_ => false

def asPlainObject (v : JsVal) : JsVal := if isObject v && !isArray v then v else .obj []

def normalizedMarker (v : JsVal) : JsString := P.toLowerCase (trim (textOf v))

def markerFromTags (tags : JsVal) (name : String) : JsVal :=
  let start := js (name++":")
  match ((elements tags).map (normalizedMarker P)).find? fun entry => start.isPrefixOf entry with
  | some tag => .str (tag.drop start.length)
  | none => .null

def markerBoolean (v : JsVal) : Bool := ScriptValue.isTrue v || normalizedMarker P v = js "true"

/-- `summary ?? summary_json` as a plain object. -/
def summaryOf (snapshot : JsVal) : JsVal :=
  asPlainObject (orElse (field snapshot "summary") (field snapshot "summary_json"))

/-- A marker of the snapshot, of its summary, or of the summary's tags. -/
def snapshotMarker (snapshot : JsVal) (name : String) : JsVal :=
  orElse (field snapshot name) (orElse (field (summaryOf snapshot) name)
    (markerFromTags P (field (summaryOf snapshot) "tags") name))

/-- `ownership_eligible` of `getProviderSnapshotProofMetadata`. -/
def ownershipEligible (snapshot : JsVal) (provider : JsString) : Bool :=
  let marker := snapshotMarker P snapshot "ownership_eligible"
  let resourceStatus := normalizedMarker P (snapshotMarker P snapshot "resource_status")
  let environment := normalizedMarker P (snapshotMarker P snapshot "provider_environment")
  !nullish marker && markerBoolean P marker && resourceStatus = js "active" &&
    (normalizedMarker P (.str provider) ≠ js "namecheap" || environment = js "production")

/-- `Number(value ?? 0)` when it is a safe integer. -/
def revision (v : JsVal) : Option NumberText.Number :=
  match toNumber (orElse v (.num .zero)) with
  | .finite n => if isSafeInteger (.num n) then some n else none
  | _ => none

def isCurrentSuccessfulProviderSnapshot (now : ℤ) (connector snapshot : JsVal) : Bool :=
  is (field snapshot "evidence_source") "provider_api" &&
  (match revision (field connector "last_success_revision"),
      revision (field snapshot "poll_revision") with
    | some c,some p => c = p
    | _,_ => false) &&
  sameInstant P (field snapshot "observed_at") (field connector "last_success_at") &&
  match P.parseDate (textOf (field connector "last_success_at")) with
  | some success => success ≤ now && now-success ≤ providerOwnershipMaxAgeMs
  | none => false

/-- Trim, drop the points at the end, lower-case. -/
def normalizeHostname (v : JsVal) : JsString :=
  P.toLowerCase ((trim (textOf v)).reverse.dropWhile (· = 46)).reverse

def hasSecret (connector : JsVal) : Bool :=
  ScriptValue.isTrue (field connector "has_secret") || match field connector "secret_id" with
    | .str s => trim s ≠ []
    | _ => false

/-- The connector's last successful snapshot still binds the hostname of the target to the
resource that was verified. -/
def isCurrentProviderDnsOwnershipProof (now : ℤ) (connector snapshot sourceRef : JsVal)
    (target : Target) : Bool :=
  let provider := normalizedMarker P (field connector "provider")
  let source := asPlainObject sourceRef
  let host := normalizeHostname P (orElse target.normalizedValue target.value)
  let hostnames := ((elements (field (summaryOf snapshot) "hostnames")).map
    (normalizeHostname P)).filter fun h => h ≠ []
  let status := normalizedMarker P (field connector "status")
  providerVerifiedDnsProviders.contains provider &&
  (status = js "active" || status = js "degraded") &&
  hasSecret connector &&
  truthy (field connector "id") &&
  textOf (field source "connector_id") = toStr (field connector "id") &&
  normalizedMarker P (field source "provider") = provider &&
  is (field source "snapshot_kind") "dns_zone" &&
  is (field source "evidence_source") "provider_api" &&
  trim (textOf (field source "snapshot_id")) ≠ [] &&
  trim (textOf (field source "resource_ref_hash")) ≠ [] &&
  sameInstant P (field source "observed_at") (field source "poll_generation") &&
  truthy (field snapshot "id") &&
  textOf (field snapshot "connector_id") = toStr (field connector "id") &&
  normalizedMarker P (orElse (field snapshot "provider") (.str provider)) = provider &&
  is (field snapshot "snapshot_kind") "dns_zone" &&
  is (field snapshot "evidence_source") "provider_api" &&
  textOf (field snapshot "resource_ref_hash") = toStr (field source "resource_ref_hash") &&
  isCurrentSuccessfulProviderSnapshot P now connector snapshot &&
  (target.kind = .fqdn || target.kind = .dnsZone) &&
  host ≠ [] &&
  hostnames.contains host &&
  ownershipEligible P snapshot provider

/-- A connector of the tenant and one of its snapshots prove the target now. -/
def providerProofIsCurrent (store : Store) (tenantId : JsString) (sourceRef : JsVal)
    (target : Target) : Bool :=
  let source := asPlainObject sourceRef
  match store.wafConnectors.find? fun candidate =>
      strictEq (field candidate "id") (field source "connector_id") &&
        strictEq (field candidate "tenant_id") (.str tenantId) with
  | none => false
  | some connector => store.wafConnectorSnapshots.any fun snapshot =>
      strictEq (field snapshot "tenant_id") (.str tenantId) &&
      strictEq (field snapshot "connector_id") (field connector "id") &&
      strictEq (field snapshot "resource_ref_hash") (field source "resource_ref_hash") &&
      isCurrentProviderDnsOwnershipProof P store.now connector snapshot source target

/-- A row as the projection returns it. -/
structure Row where
  id : JsString
  tenantId : JsString
  targetId : JsString
  targetGroupId : Option JsString
  state : JsString
  effectiveState : Option JsString
  sourceKind : JsString
  sourceRef : JsVal
  transitionedAt : JsString
  inheritedFromTargetId : Option JsString

def Row.ofStored (v : Verification) : Row :=
  ⟨v.id,v.tenantId,v.targetId,none,v.state,none,v.sourceKind,v.sourceRef,v.transitionedAt,none⟩

def Row.pending (row : Row) : Row :=
  { row with state := js "pending", effectiveState := some (js "pending") }

def ownershipAmbiguous : JsString := js "ownership_ambiguous"

def Row.ambiguous (row : Row) : Row :=
  { row.pending with sourceKind := ownershipAmbiguous, sourceRef := .obj [] }

/-- The latest row so far; without an instant its time cannot be read. -/
structure Latest where
  row : Verification
  instant : Option Instant
  ambiguous : Bool

/-- The two rows say the same. -/
def sameClaim (a b : Verification) : Bool :=
  a.state = b.state && a.sourceKind = b.sourceKind &&
    isDeepStrictEqual (orElse a.sourceRef (.obj [])) (orElse b.sourceRef (.obj []))

/-- The entry of a target after one more of its rows. -/
def nextLatest (previous : Option Latest) (row : Verification) : Latest :=
  match ownershipTransitionInstant row.transitionedAt,previous with
  | none,_ => ⟨row,none,true⟩
  | some instant,none => ⟨row,some instant,false⟩
  | some instant,some l => match l.instant with
    | none => l
    | some last => match compareOwnershipInstants instant last with
      | .gt => ⟨row,some instant,false⟩
      | .eq => if sameClaim row l.row then l else { l with ambiguous := true }
      | .lt => l

/-- The maps of the source, as functions of the target id. -/
abbrev ByTarget (α : Type) := JsString → Option α

def latestStep (tenantId : JsString) (wanted : Option (List JsString)) (latest : ByTarget Latest)
    (row : Verification) : ByTarget Latest :=
  if row.tenantId ≠ tenantId || wanted.any fun ids => !ids.contains row.targetId then latest
  else fun id => if id = row.targetId then some (nextLatest (latest id) row) else latest id

def Latest.projected (l : Latest) : Row :=
  if l.ambiguous then (Row.ofStored l.row).ambiguous else Row.ofStored l.row

def latestRows (store : Store) (tenantId : JsString) (targetIds : Option (List JsString)) :
    ByTarget Row := fun id =>
  (store.targetVerifications.foldl (latestStep tenantId targetIds) (fun _ => none) id).map
    Latest.projected

def effectiveTargetVerification (store : Store) (verification : Row) (target : Option Target) :
    Row :=
  if verification.state ≠ js "provider_verified" then verification
  else if target.any (providerProofIsCurrent P store verification.tenantId verification.sourceRef)
    then verification
  else verification.pending

/-- The state of the row, if there is one, has the rank of a proof. -/
def Row.isProof (row : Option Row) : Bool :=
  (ownershipProofFromStates (row.map Row.state)).verified

def isAmbiguous (row : Option Row) : Bool := row.any fun r => r.sourceKind = ownershipAmbiguous

/-- The row of the parent, passed on. -/
def inherit (target parent : Target) (parentRow : Row) : Row :=
  { parentRow with
    targetId := target.id
    targetGroupId := some target.targetGroupId
    sourceKind := js "inherited_parent"
    inheritedFromTargetId := some parent.id }

def demoRow (store : Store) (tenantId : JsString) (target : Target) : Row :=
  ⟨js "tv_demo_"++target.id,tenantId,target.id,some target.targetGroupId,js "user_confirmed",none,
    js "manual_override",.obj [(js "method",.str (js "demo_auto_verify")),(js "demo",.bool true)],
    if target.createdAt = [] then P.toISOString store.now else target.createdAt,none⟩

def tenantTargets (store : Store) (tenantId : JsString) : List Target :=
  store.targets.filter fun t => t.tenantId = tenantId

/-- The wanted targets by id; a later target replaces an earlier one. -/
def targetsById (store : Store) (tenantId : JsString) (targetIds : Option (List JsString)) :
    ByTarget Target := fun id =>
  ((tenantTargets store tenantId).filter fun t =>
    targetIds.all fun ids => ids.contains t.id).reverse.find? fun t => t.id = id

def ownRow (store : Store) (tenantId : JsString) (target : Target) : Option Row :=
  (latestRows store tenantId (some [target.id]) target.id).map fun row =>
    effectiveTargetVerification P store row (some target)

/-- The row of a target after the loop over inherited proofs. -/
def withInherited (store : Store) (tenantId : JsString) (target : Target) (row : Option Row) :
    Option Row :=
  if isAmbiguous row || Row.isProof row then row
  else match ownershipParentFor P target (tenantTargets store tenantId) with
    | none => row
    | some parent => match ownRow P store tenantId parent with
      | some parentRow =>
          if Row.isProof (some parentRow) then some (inherit target parent parentRow) else row
      | none => row

def withDemo (store : Store) (tenantId : JsString) (target : Target) (row : Option Row) :
    Option Row :=
  if isAmbiguous row || Row.isProof row then row else some (demoRow P store tenantId target)

def effectiveTargetVerifications (store : Store) (tenantId : JsString)
    (targetIds : Option (List JsString)) : ByTarget Row := fun id =>
  let target := targetsById store tenantId targetIds id
  let row := (latestRows store tenantId targetIds id).map fun row =>
    effectiveTargetVerification P store row target
  match target with
  | none => row
  | some target =>
      let row := withInherited P store tenantId target row
      if isDemoAutoVerifyTenant P tenantId then withDemo P store tenantId target row else row

end

end AstraNull.TargetOwnership
