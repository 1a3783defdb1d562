import Mathlib
import AstraNull.ProbeProfile
import AstraNull.ProbeJobSigning

/-!
# Destinations of a signed job

The last step before signing binds the destinations of the merged profile to the
target: `bindProbeProfileDestinationsToTarget` and `buildSignedProbeJobRecord` of
`probeJobs.mjs`. Destinations named by the request are kept as they were merged.

What the record takes from other modules and does not put into the profile's
destinations is a parameter: constraints and times, declarations, the identity pair
review, the nonce and the identifier.
-/
namespace AstraNull.SignedDestinations
open JsonText ScriptText ScriptValue ScriptObject IpText ProbeEndpoint ProbeProfile

section Hosts
variable (pl : Platform)

/-- A leading and a trailing square bracket are left out. -/
def unbracket (s : JsString) : JsString :=
  let s := if s.head? = some 91 then s.tail else s
  if s.getLast? = some 93 then s.dropLast else s

def unbracketHost (value : JsVal) : JsString :=
  unbracket (trim (toStr (orElse value (.str []))))

def comparableHost (value : JsVal) : Option JsString :=
  let candidate := unbracketHost value
  if candidate = [] then none
  else if isIP pl candidate ≠ 0 then some (pl.toLowerCase candidate)
  else some (dropDot (pl.toLowerCase candidate))

/-- A value or `null`. -/
def ofOption : Option JsString → JsVal
  | some s => .str s
  | none => .null

/-- An empty text is no host. -/
def nonEmpty (s : JsString) : Option JsString := if s = [] then none else some s

def lowerAscii (s : JsString) : JsString :=
  s.map fun u => if 65 ≤ u.toNat ∧ u.toNat ≤ 90 then UInt16.ofNat (u.toNat+32) else u

/-- The scheme test, blind to case. -/
def isHttpUrl (s : JsString) : Bool :=
  startsWith (lowerAscii s) "http://" || startsWith (lowerAscii s) "https://"

def targetValue (target : JsVal) : JsString := trim (toStr (orElse (field target "value") (.str [])))

/-- At least one digit and nothing else. -/
def isDigits (s : JsString) : Bool := s ≠ [] && s.all fun u => 48 ≤ u.toNat && u.toNat ≤ 57

/-- The text between brackets, with an optional port after them. -/
def bracketed (s : JsString) : Option JsString :=
  match s with
  | 91::rest =>
      let inner := rest.takeWhile (· ≠ 93)
      match rest.dropWhile (· ≠ 93) with
      | [93] => nonEmpty inner
      | 93::58::port => if isDigits port then nonEmpty inner else none
      | _ => none
  | _ => none

/-- The text before a port. -/
def hostPort (s : JsString) : Option JsString :=
  match s.dropWhile (· ≠ 58) with
  | 58::port => if isDigits port then nonEmpty (s.takeWhile (· ≠ 58)) else none
  | _ => none

def targetLogicalHost (target : JsVal) : Option JsString :=
  let value := targetValue target
  if value = [] then none
  else if isHttpUrl value then
    (pl.urlHostname value).bind fun host => nonEmpty (unbracketHost (.str host))
  else match bracketed value with
    | some inner => some inner
    | none =>
        if isIP pl value ≠ 0 then some value
        else match hostPort value with
          | some host => some host
          | none => nonEmpty (value.takeWhile (· ≠ 47))

/-- A host that is an address. -/
def literalHost (host : JsString) : Option JsString := if isIP pl host ≠ 0 then some host else none

def targetLiteralIpAddress (target : JsVal) : Option JsString :=
  let value := targetValue target
  if isHttpUrl value then
    (pl.urlHostname value).bind fun host => literalHost pl (unbracketHost (.str host))
  else if is (field target "kind") "ip" then literalHost pl (unbracketHost (.str value))
  else none

def isExactTargetHost (value targetHost : JsVal) : Bool :=
  match comparableHost pl value with
  | some candidate => comparableHost pl targetHost = some candidate
  | none => false

end Hosts

section Bind
variable (pl : Platform)

def profileSocketDestinationKeys : List String := ["direct_ip","resolver_host","scan_host"]

def profileExactTargetHostKeys : List String := ["zone","recursion_test_name"]

/-- A socket destination stays when the request named it or it is the target's address. -/
def bindSocket (targetIp : Option JsString) (supplied : String → Bool) (bound : JsVal)
    (key : String) : JsVal :=
  if supplied key && !nullish (field bound key) then bound
  else match targetIp with
    | some ip => if isExactTargetHost pl (field bound key) (.str ip) then bound else remove bound key
    | none => remove bound key

/-- The canonical target host, if the value is a spelling of it. -/
def exactHost (canonical : Option JsString) (value : JsVal) : Option JsString :=
  canonical.filter fun host => isExactTargetHost pl value (.str host)

def bindHost (canonical : Option JsString) (supplied : String → Bool) (bound : JsVal)
    (key : String) : JsVal :=
  match exactHost pl canonical (field bound key) with
  | some host => put bound key (.str host)
  | none => if supplied key && !nullish (field bound key) then bound else remove bound key

def canonicalResolver (canonical : Option JsString) (value : JsVal) : JsVal :=
  match exactHost pl canonical value with
  | some host => .str host
  | none => value

def bindNameservers (canonical : Option JsString) (supplied : String → Bool) (bound : JsVal) :
    JsVal :=
  let value := field bound "secondary_nameservers"
  let resolvers := elements value
  if supplied "secondary_nameservers" && !nullish value && !resolvers.isEmpty then
    put bound "secondary_nameservers" (.arr (resolvers.map (canonicalResolver pl canonical)))
  else match canonical with
    | some host =>
        if host ≠ [] ∧
            resolvers.any fun v => strictEq (canonicalResolver pl canonical v) (.str host) then
          put bound "secondary_nameservers" (.arr [.str host])
        else remove bound "secondary_nameservers"
    | none => remove bound "secondary_nameservers"

def bindProbeProfileDestinationsToTarget (profile target : JsVal) (supplied : String → Bool) :
    Throws JsVal :=
  let canonical := comparableHost pl (ofOption (targetLogicalHost pl target))
  let targetIp := targetLiteralIpAddress pl target
  let bound := profileSocketDestinationKeys.foldl (bindSocket pl targetIp supplied) (spread profile)
  let bound := profileExactTargetHostKeys.foldl (bindHost pl canonical supplied) bound
  buildProbeProfile pl (bindNameservers pl canonical supplied bound)

def callerDestinationAccepted (key : String) (value : JsVal) : Bool :=
  if key = "secondary_nameservers" then
    match value with
    | .arr raw => (filterArrayOverride pl key raw).isSome
    | _ => false
  else match value with
    | .str s =>
        if trim s = [] then false
        else if key = "direct_ip" then isIP pl (trim s) ≠ 0
        else isHostShapedValueSafe pl value
    | _ => false

def destinationKeys : List String :=
  profileSocketDestinationKeys++(profileExactTargetHostKeys++["secondary_nameservers"])

/-- The destinations of the request that the merge left in the resolved profile. -/
def callerDestinationKeys (check override : JsVal) : Throws (String → Bool) :=
  if isRecord override then do
    let resolved ← resolveJobProbeProfile pl check override
    .ok fun key => key ∈ destinationKeys && key ∈ benignProbeProfileOverrideKeys &&
      has override key && callerDestinationAccepted pl key (field override key) &&
      !nullish (field resolved key)
  else .ok fun _ => false

/-- The profile before scopes and declarations are added. -/
def resolvedProbeProfile (check target override : JsVal) : Throws JsVal := do
  let resolved ← resolveJobProbeProfile pl check override
  let enriched ← enrichProbeProfileFromTarget pl resolved target
  let supplied ← callerDestinationKeys pl check override
  bindProbeProfileDestinationsToTarget pl enriched target supplied

end Bind

/-- Parts of the record that come from other modules. -/
structure Services where
  normalizeJobConstraints : JsVal → JsVal → JsVal → Throws JsVal
  /-- The times of issue and expiry, from the run, the check and the clock. -/
  authorityTimes : JsVal → JsVal → Throws (JsVal × JsVal)
  controlDeclarationsFromTarget : JsVal → JsVal
  probeDeclarationsSubset : JsVal → JsVal → JsVal
  mapDeclaredBlockSignatureForProbe : JsVal → JsVal
  declaredPortsForBoundedScan : JsVal → List JsVal
  requiredPerspectiveIdForJob : JsVal → JsVal → JsVal
  signedOriginIdentityPair : JsVal → Bool
  hmac : ByteArray → ByteArray → List UInt8

/-- The arguments of `buildSignedProbeJobRecord`, with the nonce and the identifier that
are drawn during the call. -/
structure Request where
  run : JsVal
  check : JsVal
  target : JsVal
  probeProfile : JsVal
  ownershipBinding : JsVal
  declarations : JsVal
  probeWorkerSecret : JsString
  nonce : JsString
  nonceHash : JsString
  id : JsVal
  createdAt : JsVal

section Record
variable (pl : Platform) (sv : Services)

/-- An exception with a message, when a condition holds. -/
def refuse (condition : Bool) (message : String) : Throws Unit :=
  if condition then .error (js message) else .ok ()

/-- The trimmed binding identifier, empty when there is none. -/
def originBindingId (run : JsVal) : JsString :=
  match field run "origin_binding_id" with
  | .str s => trim s
  | _ => []

def lowerTrimmed (v : JsVal) : JsString :=
  match v with
  | .str s => pl.toLowerCase (trim s)
  | _ => []

def scopePathOk (path : JsString) : Bool :=
  startsWith path "/" && !startsWith path "//" && !includes path "\\" && !includes path "@" &&
    !includes path "?" && !includes path "#" && !includes path "://" &&
    !path.any (fun u => u.toNat ≤ 0x20 || u.toNat = 0x7f) && path.length ≤ 256

def validatedOriginScopeSnapshot (candidate : JsVal) : Option JsVal :=
  if isRecord candidate then
    let host := lowerTrimmed pl (field candidate "host")
    let sni := lowerTrimmed pl (field candidate "sni")
    let port := field candidate "port"
    let path := field candidate "path"
    if host = [] ∨ sni = [] ∨ host ≠ sni ∨ isHostShapedValueSafe pl (.str host) = false then none
    else if !nullish port && !integerIn port 1 65535 then none
    else if !nullish path && !(isString path && scopePathOk (toStr path)) then none
    else some (.obj [(js "host",.str host),(js "sni",.str sni),
      (js "port",orElse port .null),(js "path",orElse path .null)])
  else none

def runBoundOriginScope (run check : JsVal) : Option JsVal :=
  if !oneOf (field (field check "probe_profile") "kind") ["host_sni_bypass","origin_identity_pair"]
  then none
  else if originBindingId run = [] then none
  else validatedOriginScopeSnapshot pl (field (field run "provenance_json") "origin_scope")

def isOriginLockdownHostnameCheck (check target : JsVal) : Bool :=
  is (field check "check_id") "nfw.origin_lockdown.safe" &&
    is (field (field check "probe_profile") "kind") "host_sni_bypass" &&
    (targetLiteralIpAddress pl target).isNone

def publicOriginAddress (value : JsVal) : Option JsString :=
  let address := if isString value then unbracketHost value else []
  if address = [] ∨ isIP pl address = 0 then none
  else if (assertProbeDestinationAllowed pl.net (chars address) {}).isOk then some address
  else none

def runOriginLockdownScope (run check target : JsVal) : Option JsVal :=
  if isOriginLockdownHostnameCheck pl check target then
    let stored := field (field run "provenance_json") "origin_lockdown"
    if isRecord stored then
      match validatedOriginScopeSnapshot pl stored,publicOriginAddress pl (field stored "address")
        with
      | some scope,some address =>
          let bindingId := match field stored "binding_id" with
            | .str s => trim s
            | _ => []
          if bindingId = [] then none
          else if isExactTargetHost pl (field scope "host")
              (ofOption (targetLogicalHost pl target)) then
            some (put (put scope "address" (.str address)) "binding_id" (.str bindingId))
          else none
      | _,_ => none
    else none
  else none

/-- One key of the metadata of a target, if it may be signed. -/
def safeMetadataValue (target : JsVal) (key : String) (candidate : JsString) : Option JsString :=
  let targetHost := targetLogicalHost pl target
  let canonical := comparableHost pl (ofOption targetHost)
  if key = "declared_apex_domain" ∨ key = "zone" then exactHost pl canonical (.str candidate)
  else if key = "direct_origin_ip" ∨ key = "resolver_host" then
    match targetLiteralIpAddress pl target with
    | some ip =>
        if isExactTargetHost pl (.str candidate) (.str ip) then some (slice candidate 512) else none
    | none => none
  else if key = "alert_webhook_url" ∨ key = "webhook_url" then
    match targetHost,pl.urlHostname candidate with
    | some host,some webhook =>
        if isExactTargetHost pl (.str (unbracketHost (.str webhook))) (.str host) then
          some (slice candidate 512)
        else none
    | _,_ => none
  else some (slice candidate 512)

def safeTargetMetadataKeys : List String :=
  ["alert_webhook_url","webhook_url","direct_origin_ip","declared_apex_domain",
    "protected_host","resolver_host","zone","graphql_path"]

def safeTargetMetadata (target : JsVal) : Option JsVal :=
  match targetMetadata target with
  | none => none
  | some raw =>
      let kept := safeTargetMetadataKeys.filterMap fun key =>
        match field raw key with
        | .str s =>
            if trim s = [] then none
            else (safeMetadataValue pl target key (trim s)).map fun v => (js key,JsVal.str v)
        | _ => none
      if kept.isEmpty then none else some (.obj kept)

def targetDescriptor (target : JsVal) : Throws JsVal := do
  refuse (nullish target) "TypeError"
  .ok (applySteps
    [("port",!nullish (field target "port"),field target "port"),
      ("protocol",!nullish (field target "protocol"),field target "protocol"),
      ("metadata",(safeTargetMetadata pl target).isSome,
        (safeTargetMetadata pl target).getD .undefined)]
    (.obj [(js "id",field target "id"),(js "kind",field target "kind"),
      (js "value",field target "value"),
      (js "expected_behavior",orElse (field target "expected_behavior") .null)]))

def attachControlDeclarationsToProfile (profile check declarations : JsVal) : JsVal :=
  if isRecord declarations then
    let mapped := sv.mapDeclaredBlockSignatureForProbe declarations
    let ports := sv.declaredPortsForBoundedScan declarations
    applySteps
      [("declarations",true,sv.probeDeclarationsSubset declarations check),
        ("declared_block_signature",truthy mapped,mapped),
        ("declared_ports",is (field profile "kind") "port_scan_bounded" && !ports.isEmpty,
          .arr ports)] profile
  else profile

/-- The approved scope or the lockdown scope, written over the profile. -/
def scopedProfile (profile : JsVal) (bindingScope lockdownScope : Option JsVal) : JsVal :=
  applySteps
    [("protected_host",bindingScope.isSome,field (bindingScope.getD .null) "host"),
      ("protected_host",lockdownScope.isSome,field (lockdownScope.getD .null) "host"),
      ("direct_ip",lockdownScope.isSome,field (lockdownScope.getD .null) "address")] profile

def signedOriginScope (bindingScope lockdownScope : Option JsVal) : Option JsVal :=
  match bindingScope,lockdownScope with
  | some scope,_ => some scope
  | none,some scope => some (.obj (["host","sni","port","path"].map fun k => (js k,field scope k)))
  | none,none => none

def jobConstraints (rq : Request) (base issued notAfter : JsVal) (scope : Option JsVal)
    (perspective : JsVal) : JsVal :=
  let provenance := field rq.run "provenance_json"
  let authority := orElse (field provenance "origin_authority")
    (field (field provenance "origin_lockdown") "authority")
  applySteps
    [("authority_version",true,.str (js "probe-authority-v2")),
      ("issued_at",true,issued),
      ("not_after",true,notAfter),
      ("execution_attempts",true,numeral 1),
      ("ownership_binding",isObject rq.ownershipBinding,rq.ownershipBinding),
      ("origin_scope",scope.isSome,scope.getD .undefined),
      ("origin_authority",truthy authority,authority),
      ("origin_identity_pair",is (field (field rq.check "probe_profile") "kind")
        "origin_identity_pair",orElse (field provenance "origin_identity_pair") .null),
      ("required_perspective_id",truthy perspective,perspective)] (spread base)

def unsignedJob (rq : Request) (profile constraints target : JsVal) : JsVal :=
  .obj [(js "id",rq.id),
    (js "tenant_id",field rq.run "tenant_id"),
    (js "test_run_id",field rq.run "id"),
    (js "target_id",field rq.target "id"),
    (js "check_id",field rq.check "check_id"),
    (js "vector_family",field rq.check "vector_family"),
    (js "status",.str (js "pending")),
    (js "created_at",rq.createdAt),
    (js "nonce_hash",.str rq.nonceHash),
    (js "nonce",.str rq.nonce),
    (js "probe_profile",profile),
    (js "constraints",constraints),
    (js "target",target),
    (js "worker_metadata",.obj [
      (js "check_title",orElse (field rq.check "title") (field rq.check "check_id")),
      (js "safety_class",orElse (orElse (field rq.check "safety_class")
        (field rq.check "risk_class")) .null)]),
    (js "leased_at",.null),
    (js "leased_by",.null),
    (js "completed_at",.null)]

def buildSignedProbeJobRecord (rq : Request) : Throws JsVal := do
  refuse (has (field rq.run "safety_constraints") "reviewed_operation_binding")
    "reviewed_operation_execution_unavailable"
  let bindingScope := runBoundOriginScope pl rq.run rq.check
  refuse (originBindingId rq.run ≠ [] && bindingScope.isNone)
    "bound_run_missing_approved_origin_scope"
  let lockdownScope := runOriginLockdownScope pl rq.run rq.check rq.target
  refuse (isOriginLockdownHostnameCheck pl rq.check rq.target && lockdownScope.isNone)
    "origin_lockdown_binding_missing"
  let declarations := if rq.declarations.isUndefined then
    sv.controlDeclarationsFromTarget rq.target else rq.declarations
  let merged ← resolvedProbeProfile pl rq.check rq.target rq.probeProfile
  let signedTarget ← targetDescriptor pl rq.target
  let profile := attachControlDeclarationsToProfile sv
    (scopedProfile merged bindingScope lockdownScope) rq.check declarations
  refuse (nullish rq.run || nullish rq.check) "TypeError"
  let base ← sv.normalizeJobConstraints (field rq.run "safety_constraints") profile signedTarget
  let times ← sv.authorityTimes rq.run rq.check
  let constraints := jobConstraints rq base times.1 times.2
    (signedOriginScope bindingScope lockdownScope)
    (sv.requiredPerspectiveIdForJob rq.check declarations)
  let job := unsignedJob rq profile constraints signedTarget
  refuse (is (field (field rq.check "probe_profile") "kind") "origin_identity_pair" &&
    !sv.signedOriginIdentityPair job) "origin_identity_review_required"
  .ok (put job "job_signature"
    (.str (ProbeJobSigning.signProbeJob sv.hmac job rq.probeWorkerSecret)))

end Record

section Confinement
variable (pl : Platform)

/-- Equal up to case. -/
def sameCase (s t : JsString) : Prop := pl.toLowerCase s = pl.toLowerCase t

/-- Equal up to case and one trailing point. -/
def sameHost (s t : JsString) : Prop :=
  sameCase pl s t ∨ pl.toLowerCase s++[46] = pl.toLowerCase t ∨
    pl.toLowerCase s = pl.toLowerCase t++[46]

/-- The host of a target without brackets. -/
def ownHost (target : JsVal) : Option JsString :=
  (targetLogicalHost pl target).map fun host => unbracketHost (.str host)

def OwnIp (target v : JsVal) : Prop :=
  ∃ ip s,targetLiteralIpAddress pl target = some ip ∧ v = .str s ∧ sameCase pl s ip

def OwnHost (target v : JsVal) : Prop :=
  ∃ host s,ownHost pl target = some host ∧ v = .str s ∧ sameHost pl s host

/-- The value is a text of the request, trimmed, that passes the host check. -/
def Named (entry v : JsVal) : Prop :=
  ∃ s,entry = .str s ∧ isHostShapedValueSafe pl (.str (trim s)) = true ∧ v = .str (trim s)

/-- Every destination of a profile is the target's own or named by the request. -/
structure Confined (target override profile : JsVal) : Prop where
  socket : ∀ key ∈ profileSocketDestinationKeys,(field profile key).isUndefined = false →
    OwnIp pl target (field profile key) ∨ Named pl (field override key) (field profile key)
  host : ∀ key ∈ profileExactTargetHostKeys,(field profile key).isUndefined = false →
    OwnHost pl target (field profile key) ∨ Named pl (field override key) (field profile key)
  nameservers : (field profile "secondary_nameservers").isUndefined = false →
    ∃ vs,field profile "secondary_nameservers" = .arr vs ∧ ∀ v ∈ vs,OwnHost pl target v ∨
      ∃ entry ∈ elements (field override "secondary_nameservers"),Named pl entry v

/-- The socket destination of the catalog, or else that of the metadata. -/
def inherited (check target : JsVal) (key : String) : JsVal :=
  if nullish (catalogField check key) then metadataDestination pl target key
  else catalogField check key

def canonicalTargetHost (target : JsVal) : Option JsString :=
  comparableHost pl (ofOption (targetLogicalHost pl target))

/-- The requests whose destinations reach the signature as they were named, and the
inherited addresses that are written as the target's. -/
structure PlainDestinations (check target override : JsVal) : Prop where
  /-- A safe address or resolver of the request is not cut, unless to the target's own. -/
  uncut : ∀ key ∈ socketKeys,∀ host,hostOverride pl key (field override key) = some host →
    (trim (toStr (field override key))).length ≤ 128 ∨ OwnIp pl target (.str host)
  /-- An address of the request that the gate refuses meets no address of the catalog but
  the target's own. -/
  unshielded : ∀ s,field override "direct_ip" = .str s → isIP pl (trim s) ≠ 0 →
    isHostShapedValueSafe pl (.str s) = false → nullish (catalogField check "direct_ip") = false →
    OwnIp pl target (catalogField check "direct_ip")
  /-- An inherited spelling of the target's address differs from it in case only. -/
  spelled : ∀ key ∈ socketKeys,hostOverride pl key (field override key) = none →
    ∀ ip,targetLiteralIpAddress pl target = some ip →
    isExactTargetHost pl (inherited pl check target key) (.str ip) = true →
    OwnIp pl target (inherited pl check target key) ∨
      Named pl (field override key) (inherited pl check target key)
  /-- A safe zone or lookup name that is not the target's is written without outer blanks
  and is not cut. -/
  trimmed : ∀ key ∈ hostKeys,∀ s,field override key = .str s →
    isHostShapedValueSafe pl (.str s) = true →
    exactHost pl (canonicalTargetHost pl target) (.str (slice s 128)) = none →
    slice s 128 = trim s ∨ OwnHost pl target (.str (slice s 128))

end Confinement

section Spec
variable {pl : Platform}

theorem bindSocket_other {targetIp : Option JsString} {supplied : String → Bool} {v : JsVal}
    {key k : String} (hk : js key ≠ js k) :
    field (bindSocket pl targetIp supplied v k) key = field v key := by
  unfold bindSocket
  split_ifs
  · rfl
  · cases targetIp with
    | none => exact field_remove_other hk
    | some ip =>
        simp only
        split_ifs
        · rfl
        · exact field_remove_other hk

theorem bindHost_other {canonical : Option JsString} {supplied : String → Bool} {v : JsVal}
    {key k : String} (hk : js key ≠ js k) :
    field (bindHost pl canonical supplied v k) key = field v key := by
  unfold bindHost
  split
  · exact field_put_other hk
  · split_ifs
    · rfl
    · exact field_remove_other hk

theorem bindNameservers_other {canonical : Option JsString} {supplied : String → Bool} {v : JsVal}
    {key : String} (hk : js key ≠ js "secondary_nameservers") :
    field (bindNameservers pl canonical supplied v) key = field v key := by
  unfold bindNameservers
  simp only
  split_ifs
  · exact field_put_other hk
  · cases canonical with
    | none => exact field_remove_other hk
    | some host =>
        simp only
        split_ifs
        · exact field_put_other hk
        · exact field_remove_other hk

/-- The profile that the last build starts from. -/
theorem bound_other {targetIp canonical : Option JsString} {supplied : String → Bool} {e : JsVal}
    {key : String} (h : ∀ k ∈ destinationKeys,js key ≠ js k) :
    field (bindNameservers pl canonical supplied
      (profileExactTargetHostKeys.foldl (bindHost pl canonical supplied)
        (profileSocketDestinationKeys.foldl (bindSocket pl targetIp supplied) (spread e)))) key =
      field e key := by
  rw [bindNameservers_other (h _ (by decide)),
    field_foldl_other fun k hk v => bindHost_other (h k (by simp [destinationKeys,hk])),
    field_foldl_other fun k hk v => bindSocket_other (h k (by simp [destinationKeys,hk])),
    field_spread]

/-- The keys a binding pass leaves alone. -/
theorem destination_keys_apart :
    (∀ k ∈ profileSocketDestinationKeys,∀ key ∈ carriedKeys,k ≠ key → js key ≠ js k) ∧
    (∀ k ∈ profileExactTargetHostKeys,∀ key ∈ carriedKeys,k ≠ key → js key ≠ js k) ∧
    (∀ key ∈ carriedKeys,key ≠ "secondary_nameservers" → js key ≠ js "secondary_nameservers") := by
  decide

/-- The address of the target admits a value as its own spelling. -/
def admits (pl : Platform) (target v : JsVal) : Bool :=
  (targetLiteralIpAddress pl target).any fun ip => isExactTargetHost pl v (.str ip)

theorem bind_socket {e target q : JsVal} {supplied : String → Bool} {key : String}
    (hkey : key ∈ socketKeys)
    (h : bindProbeProfileDestinationsToTarget pl e target supplied = .ok q) :
    field q key = present (if (supplied key && !nullish (field e key)) || admits pl target (field e key)
      then field e key else .undefined) := by
  obtain ⟨hsocket,hhost,hname⟩ := destination_keys_apart
  have hcarried := socket_carried hkey
  have hmem : key ∈ profileSocketDestinationKeys ∧ key ∉ profileExactTargetHostKeys ∧
      key ≠ "secondary_nameservers" := by
    revert key
    decide
  unfold bindProbeProfileDestinationsToTarget at h
  rw [build_field hcarried h,bindNameservers_other (hname key hcarried hmem.2.2),
    field_foldl_other fun k hk v => bindHost_other (hhost k hk key hcarried
      fun heq => hmem.2.1 (heq ▸ hk))]
  obtain ⟨m,hm,hfold⟩ := field_foldl (by decide) hmem.1
    (fun k hk hne v => bindSocket_other (hsocket k hk key hcarried hne)) (spread e)
    (f := bindSocket pl (targetLiteralIpAddress pl target) supplied)
  rw [field_spread] at hm
  rw [hfold]
  congr 1
  unfold bindSocket admits
  rw [hm]
  cases hs : supplied key && !nullish (field e key) with
  | true => simpa using hm
  | false =>
      cases targetLiteralIpAddress pl target with
      | none => simp
      | some ip =>
          cases hexact : isExactTargetHost pl (field e key) (.str ip) with
          | true => simpa [hexact] using hm
          | false => simp [hexact]

theorem bind_host {e target q : JsVal} {supplied : String → Bool} {key : String}
    (hkey : key ∈ hostKeys)
    (h : bindProbeProfileDestinationsToTarget pl e target supplied = .ok q) :
    field q key = match exactHost pl (canonicalTargetHost pl target) (field e key) with
      | some host => .str host
      | none => if supplied key && !nullish (field e key) then field e key else .undefined := by
  obtain ⟨hsocket,hhost,hname⟩ := destination_keys_apart
  have hcarried := host_carried hkey
  have hmem : key ∉ profileSocketDestinationKeys ∧ key ∈ profileExactTargetHostKeys ∧
      key ≠ "secondary_nameservers" := by
    revert key
    decide
  unfold bindProbeProfileDestinationsToTarget at h
  rw [build_field hcarried h,bindNameservers_other (hname key hcarried hmem.2.2)]
  obtain ⟨m,hm,hfold⟩ := field_foldl (by decide) hmem.2.1
    (fun k hk hne v => bindHost_other (hhost k hk key hcarried hne))
    (profileSocketDestinationKeys.foldl
      (bindSocket pl (targetLiteralIpAddress pl target) supplied) (spread e))
    (f := bindHost pl (canonicalTargetHost pl target) supplied)
  rw [field_foldl_other (fun k hk v => bindSocket_other (hsocket k hk key hcarried
    fun heq => hmem.1 (heq ▸ hk))),field_spread] at hm
  change present (field (profileExactTargetHostKeys.foldl
    (bindHost pl (canonicalTargetHost pl target) supplied) _) key) = _
  rw [hfold,bindHost,hm]
  cases exactHost pl (canonicalTargetHost pl target) (field e key) with
  | some host => simp [present,nullish]
  | none =>
      cases hs : supplied key && !nullish (field e key) with
      | true =>
          simp only [Bool.and_eq_true,Bool.not_eq_true'] at hs
          simp only [if_true]
          rw [hm,present_of_some hs.2]
      | false => simp [present,nullish]

theorem bindNameservers_self (canonical : Option JsString) (supplied : String → Bool) (v : JsVal) :
    (supplied "secondary_nameservers" = true ∧
      field (bindNameservers pl canonical supplied v) "secondary_nameservers" =
        .arr ((elements (field v "secondary_nameservers")).map (canonicalResolver pl canonical))) ∨
    (∃ host,canonical = some host ∧
      field (bindNameservers pl canonical supplied v) "secondary_nameservers" = .arr [.str host]) ∨
    field (bindNameservers pl canonical supplied v) "secondary_nameservers" = .undefined := by
  unfold bindNameservers
  simp only
  split_ifs with hs
  · simp only [Bool.and_eq_true] at hs
    exact Or.inl ⟨hs.1.1,field_put_self _ _ _⟩
  · cases canonical with
    | none => exact Or.inr (Or.inr (field_remove_self _ _))
    | some host =>
        simp only
        split_ifs
        · exact Or.inr (Or.inl ⟨host,rfl,field_put_self _ _ _⟩)
        · exact Or.inr (Or.inr (field_remove_self _ _))

/-- The nameservers after binding: those of the request, the target alone, or none. -/
theorem bind_nameservers {e target q : JsVal} {supplied : String → Bool}
    (h : bindProbeProfileDestinationsToTarget pl e target supplied = .ok q) :
    (supplied "secondary_nameservers" = true ∧ field q "secondary_nameservers" =
      .arr ((elements (field e "secondary_nameservers")).map
        (canonicalResolver pl (canonicalTargetHost pl target)))) ∨
    (∃ host,canonicalTargetHost pl target = some host ∧
      field q "secondary_nameservers" = .arr [.str host]) ∨
    field q "secondary_nameservers" = .undefined := by
  obtain ⟨hsocket,hhost,_⟩ := destination_keys_apart
  have hcarried : "secondary_nameservers" ∈ carriedKeys := by decide
  unfold bindProbeProfileDestinationsToTarget at h
  have hq := build_field hcarried h
  have he : field (profileExactTargetHostKeys.foldl
      (bindHost pl (canonicalTargetHost pl target) supplied)
      (profileSocketDestinationKeys.foldl
        (bindSocket pl (targetLiteralIpAddress pl target) supplied) (spread e)))
      "secondary_nameservers" = field e "secondary_nameservers" := by
    rw [field_foldl_other fun k hk v => bindHost_other (hhost k hk _ hcarried ?_),
      field_foldl_other fun k hk v => bindSocket_other (hsocket k hk _ hcarried ?_),field_spread]
    · rintro rfl
      revert hk
      decide
    · rintro rfl
      revert hk
      decide
  have hself := @bindNameservers_self pl (canonicalTargetHost pl target) supplied
    (profileExactTargetHostKeys.foldl (bindHost pl (canonicalTargetHost pl target) supplied)
      (profileSocketDestinationKeys.foldl
        (bindSocket pl (targetLiteralIpAddress pl target) supplied) (spread e)))
  rw [he] at hself
  rcases hself with ⟨hs,hself⟩ | ⟨host,hc,hself⟩ | hself
  · exact Or.inl ⟨hs,hq.trans (congrArg present hself)⟩
  · exact Or.inr (Or.inl ⟨host,hc,hq.trans (congrArg present hself)⟩)
  · exact Or.inr (Or.inr (hq.trans (congrArg present hself)))

theorem bind_scan_host {e target q : JsVal} {supplied : String → Bool}
    (h : bindProbeProfileDestinationsToTarget pl e target supplied = .ok q) :
    field q "scan_host" = .undefined :=
  build_scan_host h

theorem bind_ok {α β : Type} {x : Throws α} {f : α → Throws β} {b : β}
    (h : (x >>= f) = .ok b) : ∃ a,x = .ok a ∧ f a = .ok b := by
  cases x with
  | error m => cases h
  | ok a => exact ⟨a,rfl,h⟩

theorem resolved_cases {check target override q : JsVal}
    (h : resolvedProbeProfile pl check target override = .ok q) :
    ∃ r e supplied,resolveJobProbeProfile pl check override = .ok r ∧
      enrichProbeProfileFromTarget pl r target = .ok e ∧
      callerDestinationKeys pl check override = .ok supplied ∧
      bindProbeProfileDestinationsToTarget pl e target supplied = .ok q := by
  unfold resolvedProbeProfile at h
  obtain ⟨r,hr,h⟩ := bind_ok h
  obtain ⟨e,he,h⟩ := bind_ok h
  obtain ⟨supplied,hs,h⟩ := bind_ok h
  exact ⟨r,e,supplied,hr,he,hs,h⟩

theorem record_of_field {v : JsVal} {key : String} (h : nullish (field v key) = false) :
    isRecord v = true := by
  cases v <;> first | rfl | cases h

/-- A destination counts as named by the request when it was accepted and something is
left under its key. -/
theorem supplied_iff {check override r : JsVal} {supplied : String → Bool} {key : String}
    (hkey : key ∈ carriedKeys) (hr : resolveJobProbeProfile pl check override = .ok r)
    (h : callerDestinationKeys pl check override = .ok supplied) :
    supplied key = true ↔ callerDestinationAccepted pl key (field override key) = true ∧
      nullish (field r key) = false := by
  have hmem : key ∈ destinationKeys := by
    revert key
    decide
  have haccepted : callerDestinationAccepted pl key (field override key) = true →
      nullish (field override key) = false := by
    intro ha
    unfold callerDestinationAccepted at ha
    cases hv : field override key with
    | undefined =>
        rw [hv] at ha
        split_ifs at ha
    | null =>
        rw [hv] at ha
        split_ifs at ha
    | _ => rfl
  unfold callerDestinationKeys at h
  cases ho : isRecord override with
  | false =>
      rw [ho] at h
      cases h
      constructor
      · nofun
      · rintro ⟨ha,_⟩
        rw [record_of_field (haccepted ha)] at ho
        cases ho
  | true =>
      rw [ho,if_pos rfl,hr] at h
      cases h
      simp only [Bool.and_eq_true,decide_eq_true_eq,Bool.not_eq_true']
      constructor
      · rintro ⟨⟨_,ha⟩,hn⟩
        exact ⟨ha,hn⟩
      · rintro ⟨ha,hn⟩
        refine ⟨⟨⟨⟨hmem,carried_benign hkey⟩,?_⟩,ha⟩,hn⟩
        apply has_of_field
        have := haccepted ha
        cases hv : field override key <;> first | rfl | (rw [hv] at this; cases this)

theorem safe_string {v : JsVal} (h : isHostShapedValueSafe pl v = true) :
    ∃ s,v = .str s ∧ trim s ≠ [] := by
  cases v with
  | str s =>
      refine ⟨s,rfl,?_⟩
      intro hs
      simp [isHostShapedValueSafe,hs] at h
  | _ => cases h

theorem safe_trim (s : JsString) :
    isHostShapedValueSafe pl (.str (trim s)) = isHostShapedValueSafe pl (.str s) := by
  unfold isHostShapedValueSafe
  simp only [trim_trim]

theorem named_iff {s : JsString} {v : JsVal} :
    Named pl (.str s) v ↔ isHostShapedValueSafe pl (.str s) = true ∧ v = .str (trim s) := by
  constructor
  · rintro ⟨t,ht,hsafe,hv⟩
    cases ht
    exact ⟨safe_trim s ▸ hsafe,hv⟩
  · rintro ⟨hsafe,hv⟩
    exact ⟨s,rfl,(safe_trim s).symm ▸ hsafe,hv⟩

theorem hostOverride_some {key : String} {v : JsVal} {host : JsString}
    (h : hostOverride pl key v = some host) :
    ∃ s,v = .str s ∧ isHostShapedValueSafe pl (.str s) = true ∧ host = slice (trim s) 128 ∧
      (key = "direct_ip" → isIP pl (trim s) ≠ 0) := by
  unfold hostOverride at h
  split_ifs at h with h1 h2
  obtain ⟨s,rfl,_⟩ := safe_string h2
  cases h
  refine ⟨s,rfl,h2,rfl,?_⟩
  intro hd hzero
  exact h1 ⟨hd,fun hc => hc.2 hzero⟩

theorem hostOverride_none {key : String} {s : JsString} (h : hostOverride pl key (.str s) = none)
    (hip : key = "direct_ip" → isIP pl (trim s) ≠ 0) :
    isHostShapedValueSafe pl (.str s) = false := by
  unfold hostOverride at h
  split_ifs at h with h1 h2
  · exact absurd ⟨rfl,hip h1.1⟩ h1.2
  · simpa using h2

theorem resolve_socket {check override r : JsVal} {key : String} (hkey : key ∈ socketKeys)
    (h : resolveJobProbeProfile pl check override = .ok r) :
    present (field r key) = ((hostOverride pl key (field override key)).map JsVal.str).getD
      (present (catalogField check key)) := by
  obtain ⟨m,hm,hr⟩ := resolve_field (socket_carried hkey) h
  rw [hr]
  cases ho : isRecord override with
  | true =>
      rw [if_pos rfl,merge_socket hkey]
      cases hostOverride pl key (field override key) with
      | none => exact hm
      | some host => rfl
  | false =>
      have hn : nullish (field override key) = true := by
        cases hv : nullish (field override key) with
        | true => rfl
        | false =>
            rw [record_of_field hv] at ho
            cases ho
      rw [if_neg Bool.false_ne_true,hostOverride_nullish hn]
      exact hm

theorem admits_present (target v : JsVal) :
    admits pl target (present v) = admits pl target v := by
  cases v <;> rfl

theorem not_admits_nullish {target v : JsVal} (h : nullish v = true) :
    admits pl target v = false := by
  unfold admits
  cases targetLiteralIpAddress pl target with
  | none => rfl
  | some ip => cases v <;> first | rfl | cases h

/-- The address of the request that the gate refuses but the binding counts as named. -/
def Shielded (pl : Platform) (check override : JsVal) (key : String) : Prop :=
  key = "direct_ip" ∧ nullish (catalogField check key) = false ∧
    ∃ s,field override key = .str s ∧ isIP pl (trim s) ≠ 0 ∧
      isHostShapedValueSafe pl (.str s) = false

theorem shielded_accepted {check override : JsVal} {key : String}
    (h : Shielded pl check override key) :
    callerDestinationAccepted pl key (field override key) = true := by
  obtain ⟨rfl,_,s,hs,hip,_⟩ := h
  rw [hs]
  have htrim : trim s ≠ [] := by
    intro h0
    apply hip
    rw [h0]
    rcases pl.net.isIP_other [] with h4 | h6 | h0
    · obtain ⟨q,hq⟩ := (pl.net.isIP_four []).mp h4
      have hdot : '.' ∈ q.text := by simp [Quad.text,Quad.octets,quadText]
      rw [← hq] at hdot
      cases hdot
    · obtain ⟨l,zone,_,hl⟩ := (pl.net.isIP_six []).mp h6
      have hcolon := List.mem_append_left (zoneText zone) l.colon_mem
      rw [← hl] at hcolon
      cases hcolon
    · exact h0
  simp [callerDestinationAccepted,htrim,hip]

theorem accepted_socket {override : JsVal} {key : String} (hkey : key ∈ socketKeys)
    (hnone : hostOverride pl key (field override key) = none)
    (h : callerDestinationAccepted pl key (field override key) = true) :
    key = "direct_ip" ∧ ∃ s,field override key = .str s ∧ isIP pl (trim s) ≠ 0 ∧
      isHostShapedValueSafe pl (.str s) = false := by
  have hname : key ≠ "secondary_nameservers" := by
    rintro rfl
    revert hkey
    decide
  unfold callerDestinationAccepted at h
  rw [if_neg hname] at h
  cases hv : field override key with
  | str s =>
      rw [hv] at h hnone
      simp only at h
      split_ifs at h with h1 h2
      · have hip : isIP pl (trim s) ≠ 0 := by simpa using h
        exact ⟨h2,s,rfl,hip,hostOverride_none hnone fun _ => hip⟩
      · have := hostOverride_none hnone fun hd => absurd hd h2
        rw [this] at h
        cases h
  | _ =>
      rw [hv] at h
      cases h

/-- The three ways a socket destination is signed: as the request named it, as the catalog
has it behind a refused address, or inherited and compared with the target. -/
theorem socket_value {check target override q : JsVal} {key : String} (hkey : key ∈ socketKeys)
    (h : resolvedProbeProfile pl check target override = .ok q) :
    (∃ host,hostOverride pl key (field override key) = some host ∧ field q key = .str host) ∨
    (hostOverride pl key (field override key) = none ∧ Shielded pl check override key ∧
      field q key = catalogField check key) ∨
    (hostOverride pl key (field override key) = none ∧ ¬ Shielded pl check override key ∧
      field q key = if admits pl target (inherited pl check target key)
        then inherited pl check target key else .undefined) := by
  obtain ⟨r,e,supplied,hr,he,hs,hb⟩ := resolved_cases h
  have hcarried := socket_carried hkey
  have hresolved := resolve_socket hkey hr
  have hsupplied := supplied_iff hcarried hr hs
  have hq := bind_socket hkey hb
  cases hover : hostOverride pl key (field override key) with
  | some host =>
      left
      rw [hover] at hresolved
      have hnr : nullish (field r key) = false := by
        rw [← nullish_present,hresolved]
        rfl
      have hfr : field r key = .str host := by
        rw [← present_of_some hnr,hresolved]
        rfl
      have hfe : field e key = .str host := by rw [enrich_keeps hcarried he hnr,hfr]
      have hsup : supplied key = true := by
        obtain ⟨s,hv,hsafe,_,hip⟩ := hostOverride_some hover
        obtain ⟨s',hs',htrim⟩ := safe_string hsafe
        cases hs'
        refine hsupplied.mpr ⟨?_,hnr⟩
        have hname : key ≠ "secondary_nameservers" := by
          rintro rfl
          revert hkey
          decide
        rw [hv,callerDestinationAccepted,if_neg hname]
        simp only [if_neg htrim]
        split_ifs with hd
        · simpa using hip hd
        · exact hsafe
      refine ⟨host,rfl,?_⟩
      rw [hq,hfe,hsup]
      rfl
  | none =>
      right
      rw [hover] at hresolved
      change present (field r key) = present (catalogField check key) at hresolved
      by_cases hshield : Shielded pl check override key
      · left
        have hnr : nullish (field r key) = false := by
          rw [← nullish_present,hresolved,nullish_present]
          exact hshield.2.1
        have hfr : field r key = catalogField check key := by
          rw [← present_of_some hnr,hresolved,present_of_some hshield.2.1]
        have hfe : field e key = catalogField check key := by
          rw [enrich_keeps hcarried he hnr,hfr]
        have hsup : supplied key = true := hsupplied.mpr ⟨shielded_accepted hshield,hnr⟩
        refine ⟨rfl,hshield,?_⟩
        rw [hq,hfe,hsup,hshield.2.1]
        exact present_of_some hshield.2.1
      · right
        refine ⟨rfl,hshield,?_⟩
        have hsup : supplied key = false := by
          cases hsup : supplied key with
          | false => rfl
          | true =>
              obtain ⟨haccepted,hn⟩ := hsupplied.mp hsup
              obtain ⟨hd,hex⟩ := accepted_socket hkey hover haccepted
              refine absurd ⟨hd,?_,hex⟩ hshield
              rw [← nullish_present,← hresolved,nullish_present]
              exact hn
        have hinherited : present (field e key) = present (inherited pl check target key) := by
          unfold inherited
          cases hn : nullish (catalogField check key) with
          | false =>
              have hnr : nullish (field r key) = false := by
                rw [← nullish_present,hresolved,nullish_present,hn]
              rw [enrich_keeps hcarried he hnr,hresolved]
              rfl
          | true =>
              have hnr : nullish (field r key) = true := by
                rw [← nullish_present,hresolved,nullish_present,hn]
              rw [if_pos rfl,← enrich_socket hkey he hnr,present_present]
        rw [hq,hsup,Bool.false_and,Bool.false_or,← admits_present,hinherited,admits_present]
        cases ha : admits pl target (inherited pl check target key) with
        | false => rfl
        | true =>
            have hn : nullish (inherited pl check target key) = false := by
              cases hn : nullish (inherited pl check target key) with
              | false => rfl
              | true =>
                  rw [not_admits_nullish hn] at ha
                  cases ha
            rw [if_pos rfl,if_pos rfl,hinherited,present_of_some hn]

theorem dropDot_same {s : JsString} (h : pl.toLowerCase s = s) :
    pl.toLowerCase (dropDot s) = s ∨ pl.toLowerCase (dropDot s)++[46] = s := by
  unfold dropDot
  split_ifs with hlast
  · right
    have hs : s.dropLast++[46] = s := List.dropLast_append_getLast? 46 hlast
    have hdot := pl.lower_dot s.dropLast
    rw [hs,h] at hdot
    exact hdot.symm
  · exact Or.inl h

/-- The canonical host of a target is its own host. -/
theorem canonical_own {target : JsVal} {host : JsString}
    (h : canonicalTargetHost pl target = some host) : OwnHost pl target (.str host) := by
  unfold canonicalTargetHost at h
  cases hlogical : targetLogicalHost pl target with
  | none =>
      rw [hlogical] at h
      cases h
  | some logical =>
      rw [hlogical] at h
      change comparableHost pl (.str logical) = some host at h
      unfold comparableHost at h
      refine ⟨unbracketHost (.str logical),host,by rw [ownHost,hlogical]; rfl,rfl,?_⟩
      have hidem := pl.lower_idem (unbracketHost (.str logical))
      simp only at h
      split_ifs at h
      · cases h
        exact Or.inl hidem
      · cases h
        rcases dropDot_same hidem with hd | hd
        · exact Or.inl hd
        · exact Or.inr (Or.inl hd)

theorem exactHost_some {target v : JsVal} {host : JsString}
    (h : exactHost pl (canonicalTargetHost pl target) v = some host) :
    canonicalTargetHost pl target = some host := (Option.filter_eq_some_iff.mp h).1

/-- The ways a host is signed: as the target's own, or as the request wrote it. -/
theorem host_value {check target override q : JsVal} {key : String} (hkey : key ∈ hostKeys)
    (h : resolvedProbeProfile pl check target override = .ok q) :
    (∃ s,field override key = .str s ∧ isHostShapedValueSafe pl (.str s) = true ∧
      field q key = match exactHost pl (canonicalTargetHost pl target) (.str (slice s 128)) with
        | some host => .str host
        | none => .str (slice s 128)) ∨
    ((∀ s,field override key = .str s → isHostShapedValueSafe pl (.str s) = false) ∧
      ((field q key).isUndefined = true ∨ OwnHost pl target (field q key))) := by
  obtain ⟨r,e,supplied,hr,he,hs,hb⟩ := resolved_cases h
  have hcarried := host_carried hkey
  have hsupplied := supplied_iff hcarried hr hs
  have hkinds : key ≠ "secondary_nameservers" ∧ key ≠ "direct_ip" := by
    constructor <;> (rintro rfl; revert hkey; decide)
  have hq := bind_host hkey hb
  by_cases hnamed : ∃ s,field override key = .str s ∧ isHostShapedValueSafe pl (.str s) = true
  · left
    obtain ⟨s,hv,hsafe⟩ := hnamed
    have hfr : field r key = .str (slice s 128) := by
      obtain ⟨m,_,hm⟩ := resolve_field hcarried hr
      have hrecord : isRecord override = true := @record_of_field _ key (by rw [hv]; rfl)
      rw [hrecord,if_pos rfl,merge_host hkey (by rw [hv]; rfl),hv] at hm
      cases hn : nullish (field r key) with
      | true =>
          rw [present_of_none hn] at hm
          cases hm
      | false =>
          rw [present_of_some hn] at hm
          exact hm
    have hfe : field e key = .str (slice s 128) := by
      rw [enrich_keeps hcarried he (by rw [hfr]; rfl),hfr]
    have hsup : supplied key = true := by
      obtain ⟨s',hs',htrim⟩ := safe_string hsafe
      cases hs'
      refine hsupplied.mpr ⟨?_,by rw [hfr]; rfl⟩
      rw [hv,callerDestinationAccepted,if_neg hkinds.1]
      simp only [if_neg htrim,if_neg hkinds.2,hsafe]
    refine ⟨s,hv,hsafe,?_⟩
    rw [hq,hfe,hsup]
    rfl
  · right
    refine ⟨?_,?_⟩
    · intro s hv
      cases hsafe : isHostShapedValueSafe pl (.str s) with
      | false => rfl
      | true => exact absurd ⟨s,hv,hsafe⟩ hnamed
    · have hsup : supplied key = false := by
        cases hsup : supplied key with
        | false => rfl
        | true =>
            have haccepted := (hsupplied.mp hsup).1
            unfold callerDestinationAccepted at haccepted
            rw [if_neg hkinds.1] at haccepted
            cases hv : field override key with
            | str s =>
                rw [hv] at haccepted
                simp only [if_neg hkinds.2] at haccepted
                split_ifs at haccepted
                exact absurd ⟨s,hv,haccepted⟩ hnamed
            | _ =>
                rw [hv] at haccepted
                cases haccepted
      rw [hq,hsup]
      cases hexact : exactHost pl (canonicalTargetHost pl target) (field e key) with
      | none => exact Or.inl rfl
      | some host => exact Or.inr (canonical_own (exactHost_some hexact))

theorem mem_dedupe {v : JsVal} {vs : List JsVal} (h : v ∈ dedupe vs) : v ∈ vs := by
  induction vs with
  | nil => cases h
  | cons w vs ih =>
      rcases List.mem_cons.mp h with rfl | h
      · exact List.mem_cons_self
      · exact List.mem_cons_of_mem _ (ih (List.mem_filter.mp h).1)

/-- The nameservers the merge takes over are texts of the request, trimmed. -/
theorem filter_named {raw values : List JsVal}
    (h : filterArrayOverride pl "secondary_nameservers" raw = some values) :
    ∀ v ∈ values,∃ entry ∈ raw,Named pl entry v := by
  intro v hv
  unfold filterArrayOverride at h
  have h1 : ¬ "secondary_nameservers" = "ports" := by decide
  have h2 : ¬ "secondary_nameservers" = "paths" := by decide
  have h3 : "secondary_nameservers" ∈ hostShapedOverrideKeys := by decide
  simp only [if_neg h1,if_neg h2,if_pos h3] at h
  split_ifs at h
  cases h
  obtain ⟨entry,hentry,rfl⟩ := List.mem_map.mp (mem_dedupe (List.mem_of_mem_take hv))
  obtain ⟨hraw,hsafe⟩ := List.mem_filter.mp hentry
  obtain ⟨s,rfl,_⟩ := safe_string hsafe
  exact ⟨.str s,hraw,named_iff.mpr ⟨hsafe,rfl⟩⟩

theorem accepted_nameservers {value : JsVal}
    (h : callerDestinationAccepted pl "secondary_nameservers" value = true) :
    ∃ raw values,value = .arr raw ∧
      filterArrayOverride pl "secondary_nameservers" raw = some values := by
  unfold callerDestinationAccepted at h
  rw [if_pos rfl] at h
  cases value with
  | arr raw =>
      obtain ⟨values,hvalues⟩ := Option.isSome_iff_exists.mp h
      exact ⟨raw,values,rfl,hvalues⟩
  | _ => cases h

/-- Every nameserver is the target's own or named by the request. -/
theorem nameservers_confined {check target override q : JsVal}
    (h : resolvedProbeProfile pl check target override = .ok q)
    (hpresent : (field q "secondary_nameservers").isUndefined = false) :
    ∃ vs,field q "secondary_nameservers" = .arr vs ∧ ∀ v ∈ vs,OwnHost pl target v ∨
      ∃ entry ∈ elements (field override "secondary_nameservers"),Named pl entry v := by
  obtain ⟨r,e,supplied,hr,he,hs,hb⟩ := resolved_cases h
  have hcarried : "secondary_nameservers" ∈ carriedKeys := by decide
  rcases bind_nameservers hb with ⟨hsup,hq⟩ | ⟨host,hc,hq⟩ | hq
  · obtain ⟨haccepted,hn⟩ := (supplied_iff hcarried hr hs).mp hsup
    obtain ⟨raw,values,hraw,hvalues⟩ := accepted_nameservers haccepted
    have hfr : field r "secondary_nameservers" = .arr values := by
      obtain ⟨m,_,hm⟩ := resolve_field hcarried hr
      have hrecord : isRecord override = true :=
        @record_of_field _ "secondary_nameservers" (by rw [hraw]; rfl)
      rw [hrecord,if_pos rfl,merge_nameservers hraw hvalues,present_of_some hn] at hm
      exact hm
    have hfe : field e "secondary_nameservers" = .arr values := by
      rw [enrich_keeps hcarried he hn,hfr]
    rw [hfe] at hq
    refine ⟨_,hq,?_⟩
    intro v hv
    obtain ⟨w,hw,rfl⟩ := List.mem_map.mp hv
    unfold canonicalResolver
    cases hexact : exactHost pl (canonicalTargetHost pl target) w with
    | some host => exact Or.inl (canonical_own (exactHost_some hexact))
    | none =>
        right
        rw [hraw]
        exact filter_named hvalues w hw
  · refine ⟨_,hq,?_⟩
    intro v hv
    rw [List.mem_singleton] at hv
    exact Or.inl (hv ▸ canonical_own hc)
  · rw [hq] at hpresent
    cases hpresent

theorem take_eq_iff (s : JsString) : slice s 128 = s ↔ s.length ≤ 128 := List.take_eq_self_iff s

theorem admits_iff {target v : JsVal} : admits pl target v = true ↔
    ∃ ip,targetLiteralIpAddress pl target = some ip ∧ isExactTargetHost pl v (.str ip) = true := by
  unfold admits
  cases targetLiteralIpAddress pl target <;> simp

theorem not_named_shielded {check override v : JsVal} {key : String}
    (h : Shielded pl check override key) : ¬ Named pl (field override key) v := by
  obtain ⟨_,_,s,hs,_,hbad⟩ := h
  rw [hs,named_iff,hbad]
  exact nofun

/-- A confined profile comes from destinations that were plainly written. -/
theorem plain_of_confined {check target override q : JsVal}
    (h : resolvedProbeProfile pl check target override = .ok q)
    (hc : Confined pl target override q) : PlainDestinations pl check target override := by
  have hmem : ∀ key ∈ socketKeys,key ∈ profileSocketDestinationKeys := by decide
  refine ⟨?_,?_,?_,?_⟩
  · intro key hkey host hover
    obtain ⟨s,hv,hsafe,hhost,_⟩ := hostOverride_some hover
    rcases socket_value hkey h with ⟨host',hover',hq⟩ | ⟨hnone,_,_⟩ | ⟨hnone,_,_⟩
    · rw [hover] at hover'
      cases hover'
      have hconf := hc.socket key (hmem key hkey) (by rw [hq]; rfl)
      rw [hq,hv,named_iff] at hconf
      rcases hconf with hown | ⟨_,hname⟩
      · exact Or.inr hown
      · left
        cases hname
        rw [hv]
        exact (take_eq_iff _).mp hhost.symm
    · rw [hover] at hnone
      cases hnone
    · rw [hover] at hnone
      cases hnone
  · intro s hv hip hbad hn
    have hshield : Shielded pl check override "direct_ip" := ⟨rfl,hn,s,hv,hip,hbad⟩
    have hkey : "direct_ip" ∈ socketKeys := by decide
    rcases socket_value hkey h with ⟨host,hover,_⟩ | ⟨_,_,hq⟩ | ⟨_,hnot,_⟩
    · obtain ⟨t,ht,hsafe,_⟩ := hostOverride_some hover
      rw [hv] at ht
      cases ht
      rw [hbad] at hsafe
      cases hsafe
    · have hdefined : (field q "direct_ip").isUndefined = false := by
        rw [hq]
        cases hcat : catalogField check "direct_ip" <;> first | rfl | (rw [hcat] at hn; cases hn)
      have hconf := hc.socket "direct_ip" (by decide) hdefined
      rw [hq] at hconf
      exact hconf.resolve_right (not_named_shielded hshield)
    · exact absurd hshield hnot
  · intro key hkey hnone ip hip hexact
    have hadmits : admits pl target (inherited pl check target key) = true :=
      admits_iff.mpr ⟨ip,hip,hexact⟩
    have hdefined : (inherited pl check target key).isUndefined = false := by
      cases hv : inherited pl check target key <;>
        first | rfl | (rw [hv,not_admits_nullish rfl] at hadmits; cases hadmits)
    rcases socket_value hkey h with ⟨host,hover,_⟩ | ⟨_,hshield,hq⟩ | ⟨_,_,hq⟩
    · rw [hnone] at hover
      cases hover
    · have hsame : inherited pl check target key = catalogField check key := by
        rw [inherited,hshield.2.1]
        rfl
      rw [hsame] at hdefined ⊢
      rw [← hq] at hdefined ⊢
      exact hc.socket key (hmem key hkey) hdefined
    · rw [hadmits,if_pos rfl] at hq
      rw [← hq] at hdefined ⊢
      exact hc.socket key (hmem key hkey) hdefined
  · intro key hkey s hv hsafe hexact
    rcases host_value hkey h with ⟨t,ht,_,hq⟩ | ⟨hbad,_⟩
    · rw [hv] at ht
      cases ht
      rw [hexact] at hq
      have hconf := hc.host key hkey (by rw [hq]; rfl)
      rw [hq,hv,named_iff] at hconf
      rcases hconf with hown | ⟨_,hname⟩
      · exact Or.inr hown
      · exact Or.inl (JsVal.str.inj hname)
    · rw [hbad s hv] at hsafe
      cases hsafe

/-- Destinations that were plainly written give a confined profile. -/
theorem confined_of_plain {check target override q : JsVal}
    (h : resolvedProbeProfile pl check target override = .ok q)
    (hp : PlainDestinations pl check target override) : Confined pl target override q := by
  obtain ⟨r,e,supplied,_,_,_,hb⟩ := resolved_cases h
  have hmem : ∀ key ∈ profileSocketDestinationKeys,key ∈ socketKeys ∨ key = "scan_host" := by
    decide
  refine ⟨?_,?_,fun hdefined => nameservers_confined h hdefined⟩
  · intro key hkey hdefined
    rcases hmem key hkey with hsocket | rfl
    · rcases socket_value hsocket h with ⟨host,hover,hq⟩ | ⟨_,hshield,hq⟩ | ⟨hnone,_,hq⟩
      · obtain ⟨s,hv,hsafe,hhost,_⟩ := hostOverride_some hover
        rw [hq,hv,named_iff]
        rcases hp.uncut key hsocket host hover with hlen | hown
        · right
          rw [hv] at hlen
          exact ⟨hsafe,by rw [hhost,(take_eq_iff (trim s)).mpr hlen]⟩
        · exact Or.inl hown
      · left
        obtain ⟨rfl,hn,s,hv,hip,hbad⟩ := hshield
        rw [hq]
        exact hp.unshielded s hv hip hbad hn
      · cases hadmits : admits pl target (inherited pl check target key) with
        | false =>
            rw [hq,hadmits] at hdefined
            cases hdefined
        | true =>
            obtain ⟨ip,hip,hexact⟩ := admits_iff.mp hadmits
            rw [hadmits,if_pos rfl] at hq
            rw [hq]
            exact hp.spelled key hsocket hnone ip hip hexact
    · rw [bind_scan_host hb] at hdefined
      cases hdefined
  · intro key hkey hdefined
    rcases host_value hkey h with ⟨s,hv,hsafe,hq⟩ | ⟨_,hundefined | hown⟩
    · cases hexact : exactHost pl (canonicalTargetHost pl target) (.str (slice s 128)) with
      | some host =>
          rw [hexact] at hq
          rw [hq]
          exact Or.inl (canonical_own (exactHost_some hexact))
      | none =>
          rw [hexact] at hq
          rw [hq,hv,named_iff]
          rcases hp.trimmed key hkey s hv hsafe hexact with hsame | hown
          · exact Or.inr ⟨hsafe,by rw [hsame]⟩
          · exact Or.inl hown
    · rw [hundefined] at hdefined
      cases hdefined
    · exact Or.inl hown

/-- Confinement only reads the destinations. -/
theorem confined_congr {target override p q : JsVal}
    (h : ∀ key ∈ destinationKeys,field p key = field q key) :
    Confined pl target override p ↔ Confined pl target override q := by
  have hsocket : ∀ key ∈ profileSocketDestinationKeys,field p key = field q key :=
    fun key hk => h key (List.mem_append_left _ hk)
  have hhost : ∀ key ∈ profileExactTargetHostKeys,field p key = field q key :=
    fun key hk => h key (List.mem_append_right _ (List.mem_append_left _ hk))
  have hname := h "secondary_nameservers" (by decide)
  constructor
  · intro hc
    refine ⟨?_,?_,hname ▸ hc.nameservers⟩
    · intro key hk
      rw [← hsocket key hk]
      exact hc.socket key hk
    · intro key hk
      rw [← hhost key hk]
      exact hc.host key hk
  · intro hc
    refine ⟨?_,?_,hname ▸ hc.nameservers⟩
    · intro key hk
      rw [hsocket key hk]
      exact hc.socket key hk
    · intro key hk
      rw [hhost key hk]
      exact hc.host key hk

variable {sv : Services}

theorem attach_destination (profile check declarations : JsVal) :
    ∀ key ∈ destinationKeys,field (attachControlDeclarationsToProfile sv profile check declarations)
      key = field profile key := by
  intro key hkey
  have hnames : ∀ k ∈ destinationKeys,
      ∀ name ∈ ["declarations","declared_block_signature","declared_ports"],js k ≠ js name := by
    decide
  unfold attachControlDeclarationsToProfile
  split_ifs
  · refine field_applySteps fun step hstep => hnames key hkey step.1 ?_
    simp only [List.mem_cons,List.not_mem_nil,or_false] at hstep
    rcases hstep with rfl | rfl | rfl <;> simp
  · rfl

theorem scoped_none (profile : JsVal) : scopedProfile profile none none = profile := rfl

theorem job_profile (job profile constraints target : JsVal) (rq : Request) (signature : JsVal)
    (h : job = put (unsignedJob rq profile constraints target) "job_signature" signature) :
    field job "probe_profile" = profile := by
  rw [h,field_put_other (by decide)]
  rfl

/-- The profile of a record that is neither bound nor in lockdown is the resolved profile,
as far as destinations go. -/
theorem record_profile {rq : Request} {job : JsVal} (hbound : originBindingId rq.run = [])
    (hlock : runOriginLockdownScope pl rq.run rq.check rq.target = none)
    (h : buildSignedProbeJobRecord pl sv rq = .ok job) :
    ∃ q,resolvedProbeProfile pl rq.check rq.target rq.probeProfile = .ok q ∧
      ∀ key ∈ destinationKeys,field (field job "probe_profile") key = field q key := by
  have hscope : runBoundOriginScope pl rq.run rq.check = none := by
    unfold runBoundOriginScope
    rw [if_pos hbound]
    split_ifs <;> rfl
  unfold buildSignedProbeJobRecord at h
  obtain ⟨_,_,h⟩ := bind_ok h
  obtain ⟨_,_,h⟩ := bind_ok h
  obtain ⟨_,_,h⟩ := bind_ok h
  obtain ⟨q,hq,h⟩ := bind_ok h
  obtain ⟨signedTarget,_,h⟩ := bind_ok h
  obtain ⟨_,_,h⟩ := bind_ok h
  obtain ⟨base,_,h⟩ := bind_ok h
  obtain ⟨times,_,h⟩ := bind_ok h
  obtain ⟨_,_,h⟩ := bind_ok h
  refine ⟨q,hq,?_⟩
  rw [hscope,hlock,scoped_none] at h
  intro key hkey
  rw [job_profile _ _ _ _ _ _ (Except.ok.inj h).symm]
  exact attach_destination _ _ _ key hkey

/-- The destinations of a signed job are the target's own or named by the request exactly
when they were plainly written. -/
theorem signed_destinations_confined_iff (pl : Platform) (sv : Services) (rq : Request)
    (job : JsVal) (hbound : originBindingId rq.run = [])
    (hlock : runOriginLockdownScope pl rq.run rq.check rq.target = none)
    (h : buildSignedProbeJobRecord pl sv rq = .ok job) :
    Confined pl rq.target rq.probeProfile (field job "probe_profile") ↔
      PlainDestinations pl rq.check rq.target rq.probeProfile := by
  obtain ⟨q,hq,hfields⟩ := record_profile hbound hlock h
  rw [confined_congr hfields]
  exact ⟨plain_of_confined hq,confined_of_plain hq⟩

end Spec

theorem lowerAscii_append (s t : JsString) : lowerAscii (s++t) = lowerAscii s++lowerAscii t :=
  List.map_append

theorem lowerAscii_idem (s : JsString) : lowerAscii (lowerAscii s) = lowerAscii s := by
  unfold lowerAscii
  rw [List.map_map]
  refine List.map_congr_left fun u _ => ?_
  simp only [Function.comp_apply]
  split_ifs with h1 h2
  · exfalso
    rw [UInt16.toNat_ofNat_of_lt' (by change u.toNat+32 < 65536; omega)] at h2
    omega
  · rfl
  · rfl

/-- The platform on texts of ASCII characters that are not addresses of the web. -/
noncomputable def asciiPlatform : Platform where
  net := netIsIP
  toLowerCase := lowerAscii
  lower_idem := lowerAscii_idem
  lower_dot s := by
    rw [lowerAscii_append]
    rfl
  urlHostname _ := none
  urlPath _ := none

/-- Services that add nothing to the record. -/
def plainServices : Services where
  normalizeJobConstraints _ _ _ := .ok (.obj [])
  authorityTimes _ _ := .ok (.null,.null)
  controlDeclarationsFromTarget _ := .null
  probeDeclarationsSubset _ _ := .null
  mapDeclaredBlockSignatureForProbe _ := .null
  declaredPortsForBoundedScan _ := []
  requiredPerspectiveIdForJob _ _ := .null
  signedOriginIdentityPair _ := false
  hmac _ _ := [0]

/-- A catalog profile with an address of its own, a target that is a name, and an
override address. -/
def addressRequest (address : String) : Request where
  run := .obj [(js "id",.str (js "run_1")),(js "tenant_id",.str (js "ten_1"))]
  check := .obj [(js "check_id",.str (js "nfw.tcp.safe")),(js "probe_profile",
    .obj [(js "kind",.str (js "tcp_connect")),(js "direct_ip",.str (js "198.51.100.7"))])]
  target := .obj [(js "id",.str (js "tgt_1")),(js "kind",.str (js "fqdn")),
    (js "value",.str (js "www.example.com"))]
  probeProfile := .obj [(js "direct_ip",.str (js address))]
  ownershipBinding := .null
  declarations := .null
  probeWorkerSecret := js "secret"
  nonce := js "n"
  nonceHash := js "h"
  id := .str (js "job_1")
  createdAt := .str (js "2026-01-01T00:00:00.000Z")

theorem loopback_refused :
    isHostShapedValueSafe asciiPlatform (.str (js "127.0.0.1")) = false ∧
      isIP asciiPlatform (trim (js "127.0.0.1")) ≠ 0 := by
  have htrim : trim (js "127.0.0.1") = js "127.0.0.1" := by decide
  have hchars : chars (js "127.0.0.1") = quadText [127,0,0,1] := by decide
  have hfour : netIsIP.isIP (chars (js "127.0.0.1")) = 4 := by
    rw [hchars]
    exact (netIsIP.isIP_four _).mpr (quad_text (by decide) (by decide) (by decide) (by decide))
  have hip : isIP asciiPlatform (js "127.0.0.1") = 4 := hfour
  have hgate : (assertProbeDestinationAllowed netIsIP (chars (js "127.0.0.1")) {}).isOk = false := by
    have hclass : classifyIpv4 (chars (js "127.0.0.1")) false = .error "loopback IPv4 address" := by
      rw [hchars]
      unfold classifyIpv4
      rw [parseIpv4Octets_quad (by decide) (by decide) (by decide) (by decide)]
      rfl
    rw [assertProbeDestinationAllowed,if_neg (by omega),classifyRoutableIp,if_neg (by omega),
      if_pos hfour,hclass]
    rfl
  constructor
  · unfold isHostShapedValueSafe
    simp only [htrim]
    rw [if_neg (by decide),if_pos (by omega)]
    exact hgate
  · rw [htrim]
    omega

theorem foldl_same {α β : Type} {f : α → β → α} {a : α} {bs : List β}
    (h : ∀ b ∈ bs,f a b = a) : bs.foldl f a = a := by
  induction bs with
  | nil => rfl
  | cons b bs ih =>
      rw [List.foldl_cons,h b List.mem_cons_self]
      exact ih fun c hc => h c (List.mem_cons_of_mem _ hc)

set_option maxRecDepth 4000 in
/-- The catalog profile as it is built, up to its capped numbers. -/
theorem catalog_fields (pl : Platform) : ∃ r,
    buildProbeProfile pl (field (addressRequest "127.0.0.1").check "probe_profile") = .ok r ∧
      field r "kind" = .str (js "tcp_connect") ∧ field r "max_requests" = numeral 1 ∧
      field r "timeout_ms" = numeral 5000 ∧ field r "observation_only" = .bool true ∧
      field r "readiness_conclusion" = .bool false ∧
      ∀ key ∈ ["http_method","scenario_version","classifier_version","delivery_supported",
        "requires_complete_comparison","graphql_path","grpc_path","probe_path"],
        nullish (field r key) = true := by
  refine ⟨_,rfl,rfl,rfl,rfl,rfl,rfl,?_⟩
  intro key hkey
  simp only [List.mem_cons,List.not_mem_nil,or_false] at hkey
  rcases hkey with rfl | rfl | rfl | rfl | rfl | rfl | rfl | rfl <;> rfl

/-- The built profile passes the checks again. -/
theorem catalog_built (pl : Platform) : ∃ r,
    buildProbeProfile pl (field (addressRequest "127.0.0.1").check "probe_profile") = .ok r ∧
      profileRefusal r = none ∧
      ∀ key ∈ ["graphql_path","grpc_path","probe_path"],nullish (field r key) = true := by
  obtain ⟨r,hr,hkind,hrequests,htimeout,hobservation,hreadiness,hrest⟩ := catalog_fields pl
  refine ⟨r,hr,?_,fun key hkey => hrest key (by
    simp only [List.mem_cons,List.not_mem_nil,or_false] at hkey ⊢
    tauto)⟩
  have h1 := budgetOk_numeral (k := 1) (by norm_num) (by norm_num)
  have h5000 := budgetOk_numeral (k := 5000) (by norm_num) (by norm_num)
  have hallowed : oneOf (.str (js "tcp_connect")) allowedProbeKinds = true := by decide
  have hmethod : oneOf (.str (js "tcp_connect")) ["rate_limit_sequence","header_size_probe",
      "slow_header_probe","waf_inspection_limit_probe"] = false := by decide
  simp [profileRefusal,hkind,hrequests,htimeout,h1,h5000,hallowed,hmethod,semanticVersionKeys,
    semanticFlagKeys,hobservation,hreadiness,hrest,isBoolean]

/-- The refused address leaves the catalog profile as it is. -/
theorem refused_resolves {r : JsVal}
    (hr : buildProbeProfile asciiPlatform
      (field (addressRequest "127.0.0.1").check "probe_profile") = .ok r) :
    resolveJobProbeProfile asciiPlatform (addressRequest "127.0.0.1").check
      (addressRequest "127.0.0.1").probeProfile = .ok r := by
  have hbad := loopback_refused
  have habsent : ∀ key ∈ benignProbeProfileOverrideKeys,key ≠ "direct_ip" →
      nullish (field (addressRequest "127.0.0.1").probeProfile key) = true := by decide
  have hover : hostOverride asciiPlatform "direct_ip"
      (field (addressRequest "127.0.0.1").probeProfile "direct_ip") = none := by
    change hostOverride asciiPlatform "direct_ip" (.str (js "127.0.0.1")) = none
    simp only [hostOverride,hbad.1,Bool.false_eq_true,if_false]
    split_ifs <;> rfl
  have hfold : benignProbeProfileOverrideKeys.foldl
      (fun merged key => mergeCapabilityOverride asciiPlatform merged key
        (addressRequest "127.0.0.1").probeProfile)
      (spread (spread (field (addressRequest "127.0.0.1").check "probe_profile"))) =
      field (addressRequest "127.0.0.1").check "probe_profile" := by
    refine foldl_same fun key hkey => ?_
    by_cases hd : key = "direct_ip"
    · subst hd
      exact merge_unsafe (by decide) hover
    · exact merge_nullish (habsent key hkey hd)
  have htruthy : truthy (field (addressRequest "127.0.0.1").check "probe_profile") = true := rfl
  have hrecord : isRecord (addressRequest "127.0.0.1").probeProfile = true := rfl
  simp only [resolveJobProbeProfile,htruthy,hrecord,if_true,bind,Except.bind,hfold,hr]

theorem refused_record : ∃ job,
    buildSignedProbeJobRecord asciiPlatform plainServices (addressRequest "127.0.0.1") =
      .ok job := by
  obtain ⟨r,hr,hrefusal,hpaths⟩ := catalog_built asciiPlatform
  have hresolve := refused_resolves hr
  have henrich : enrichProbeProfileFromTarget asciiPlatform r (addressRequest "127.0.0.1").target =
      .ok r := rfl
  obtain ⟨supplied,hsupplied⟩ : ∃ supplied,callerDestinationKeys asciiPlatform
      (addressRequest "127.0.0.1").check (addressRequest "127.0.0.1").probeProfile =
      .ok supplied := by
    unfold callerDestinationKeys
    rw [if_pos (by rfl),hresolve]
    exact ⟨_,rfl⟩
  have hapart : ∀ key ∈ checkedKeys++["graphql_path","grpc_path","probe_path"],
      ∀ k ∈ destinationKeys,js key ≠ js k := by decide
  obtain ⟨q,hq⟩ : ∃ q,bindProbeProfileDestinationsToTarget asciiPlatform r
      (addressRequest "127.0.0.1").target supplied = .ok q := by
    unfold bindProbeProfileDestinationsToTarget
    refine build_ok ?_ ?_
    · rw [profileRefusal_congr fun key hkey => bound_other (hapart key (by simp [hkey])),hrefusal]
    · intro key hkey
      rw [bound_other (hapart key (List.mem_append_right _ hkey))]
      exact hpaths key hkey
  have hresolved : resolvedProbeProfile asciiPlatform (addressRequest "127.0.0.1").check
      (addressRequest "127.0.0.1").target (addressRequest "127.0.0.1").probeProfile = .ok q := by
    simp only [resolvedProbeProfile,hresolve,bind,Except.bind,henrich,hsupplied,hq]
  unfold buildSignedProbeJobRecord
  rw [hresolved]
  exact ⟨_,rfl⟩

/-- The equivalence at a request whose address the gate refuses. -/
theorem refused_address_record : ∃ job,
    buildSignedProbeJobRecord asciiPlatform plainServices (addressRequest "127.0.0.1") = .ok job ∧
      (Confined asciiPlatform (addressRequest "127.0.0.1").target
        (addressRequest "127.0.0.1").probeProfile (field job "probe_profile") ↔
      PlainDestinations asciiPlatform (addressRequest "127.0.0.1").check
        (addressRequest "127.0.0.1").target (addressRequest "127.0.0.1").probeProfile) := by
  obtain ⟨job,hjob⟩ := refused_record
  exact ⟨job,hjob,signed_destinations_confined_iff _ _ _ _ rfl rfl hjob⟩

/-- The refused address shields the address of the catalog, which is signed. -/
theorem catalog_address_signed : ¬ ∀ (pl : Platform) (sv : Services) (rq : Request) (job : JsVal),
    originBindingId rq.run = [] →
    runOriginLockdownScope pl rq.run rq.check rq.target = none →
    buildSignedProbeJobRecord pl sv rq = .ok job →
    Confined pl rq.target rq.probeProfile (field job "probe_profile") := by
  intro h
  obtain ⟨job,hjob⟩ := refused_record
  have hconfined := h _ _ _ job rfl rfl hjob
  obtain ⟨q,hq,hfields⟩ := record_profile rfl rfl hjob
  have hplain := plain_of_confined hq ((confined_congr hfields).mp hconfined)
  obtain ⟨ip,s,hip,_⟩ := hplain.unshielded (js "127.0.0.1") rfl loopback_refused.2
    loopback_refused.1 rfl
  cases hip

end AstraNull.SignedDestinations
