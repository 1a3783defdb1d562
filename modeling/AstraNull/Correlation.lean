import Mathlib
import AstraNull.ScriptValue

/-!
# The external verdict engine

`correlation.mjs` derives a verdict from the external result of a probe, its
metadata, the declarations of the target and the origin binding. The engine is an
ordered cascade; every function of the cascade is stated here in the order of the
source, on arbitrary JSON metadata and declarations. A missing result is an
exception of the source, as on a row that is null.

Explanations are part of the result. Two texts are parameters because they are
display text that nothing else reads: the fingerprint observation and the
translation of historical wording. Labels and next steps of an inconclusive reason
are left out.
-/
namespace AstraNull.Correlation
open JsonText ScriptText ScriptValue

inductive Verdict where
  | inconclusive
  | exposed
  | isProtected
  | edgeProtected
  | edgeExposed
  | allowedAsExpected
deriving DecidableEq, Repr

inductive Severity where
  | low
  | medium
  | high
deriving DecidableEq, Repr

inductive Protocol where
  | tcp
  | udp
deriving DecidableEq, Repr

inductive Family where
  | ipv4
  | ipv6
deriving DecidableEq, Repr

/-- One port of a probe over several ports. -/
structure PortResult where
  protocol : Protocol
  port : Numeric
  outcome : JsVal
  violated : Bool
  severity : Option Severity
  explanation : JsVal
  sampleAgreement : JsVal
  samples : JsVal

structure ResultMetadata where
  exposureBasis : Option JsString
  portResults : Option (List PortResult)

/-- A correlated verdict; the confidence is always `external_only`. -/
structure Outcome where
  verdict : Verdict
  explanation : JsVal
  createsFinding : Bool
  severity : Option Severity
  explanationReason : Option JsString
  inferredWithoutDeclaration : Bool
  metadata : Option ResultMetadata

/-- What the engine reads besides the probe: the registered perspectives, absent when
the registry is invalid, and the display texts. -/
structure Surroundings where
  perspectives : Option (List JsVal)
  fingerprintText : JsVal → JsVal → JsString
  plainText : JsString → JsString

structure Input where
  externalResult : JsVal
  expectedBehavior : JsVal
  probeKind : JsVal
  probeIoObserved : Bool
  probeMetadata : JsVal
  declarations : JsVal
  originBinding : JsVal
  checkId : JsVal

/-- A template literal. -/
def template (parts : List JsString) : JsVal := .str parts.flatten

def say (text : String) : JsVal := .str (js text)

def Protocol.text : Protocol → JsString
  | tcp => js "tcp"
  | udp => js "udp"

def Family.name : Family → String
  | ipv4 => "ipv4"
  | ipv6 => "ipv6"

def Family.text (f : Family) : JsString := js f.name

def families : List Family := [.ipv4,.ipv6]

def evidenceGapVerdict (explanation : JsVal) : Outcome :=
  ⟨.inconclusive,explanation,false,none,none,false,none⟩

def inconclusiveVerdict (text : String) : Outcome := evidenceGapVerdict (say text)

def exposedVerdict (severity : Severity) (explanation : JsVal) : Outcome :=
  ⟨.exposed,explanation,true,some severity,none,false,none⟩

def protectedVerdict (explanation : JsVal) : Outcome :=
  ⟨.isProtected,explanation,false,none,none,false,none⟩

def observationOnlyProbeKinds : List String :=
  ["metadata_marker","not_run","http_head","tcp_connect","dns_resolve","dns_wire_query",
    "udp_probe","quic_reachability","alert_webhook_ping","ownership_challenge","tls_session",
    "http2_settings","websocket_upgrade_posture","http_method_matrix","http3_control_probe",
    "waf_fingerprint_observation","rate_limit_sequence","waf_enforcement_probe",
    "dnssec_posture","dns_open_recursion","dns_failover_posture","tls_audit",
    "cache_abuse_probe","api_surface_scan","cors_posture_probe","bot_challenge_probe",
    "graphql_posture_probe","grpc_reflection_probe","reflection_service_probe",
    "header_size_probe","slow_header_probe","http2_frame_probe","waf_inspection_limit_probe",
    "l7_resource_posture_probe","host_sni_bypass","origin_identity_pair","origin_leak_scan",
    "port_scan_bounded","connection_limit_probe","waf_method_policy_probe"]

def semanticSafeProbeKinds : List String :=
  ["ops_readiness","dns_axfr_leak","outside_in_waf_scan","waf_class_marker_probe",
    "waf_evasion_marker_probe","rate_limit_canary_probe"]

def verdictCapableProbeKinds : List String :=
  semanticSafeProbeKinds++["tcp_connect","udp_probe","port_scan_bounded",
    "reflection_service_probe","connection_limit_probe","host_sni_bypass",
    "waf_method_policy_probe"]

def nfwProbeKinds : List String :=
  ["tcp_connect","udp_probe","port_scan_bounded","reflection_service_probe",
    "connection_limit_probe"]

/-- Kinds whose specialized fields are read only after the attestation guard. -/
def semanticKinds : List String :=
  ["waf_class_marker_probe","waf_evasion_marker_probe","outside_in_waf_scan",
    "waf_method_policy_probe","rate_limit_canary_probe","dns_axfr_leak"]

def isObservationOnlyProbeKind (probeKind : JsVal) : Bool :=
  oneOf probeKind observationOnlyProbeKinds

def isVerdictCapableProbeKind (probeKind : JsVal) : Bool :=
  oneOf probeKind verdictCapableProbeKinds

def failedResults : List String := ["error","not_run","timeout"]

/-- `{ ...value, name: v }`. -/
def spread (value : JsVal) (updates : List (String × JsVal)) : JsVal :=
  match value with
  | .obj kvs => .obj (updates.foldl (fun acc p => setMember acc (js p.1) p.2) kvs)
  | _ => .obj (updates.foldl (fun acc p => setMember acc (js p.1) p.2) [])

/-- The elements of an iterable; an exception for any other value. -/
def iterate : JsVal → Option (List JsVal)
  | .arr vs => some vs
  | .str s => some ((chars s).map fun c => .str (units c))
  | _ => none

def unsignedStatusOutcome (statusCode : JsVal) : String × Option String :=
  let n := toNumber statusCode
  if n.same (natNumber 421) then ("misdirected_request",none)
  else if n.same (natNumber 407) then ("probe_path_error",none)
  else if n.same (natNumber 401) then ("response_observed",some "authentication_challenge")
  else if (natNumber 500).le n then ("response_observed",some "generic_error_response")
  else if (natNumber 400).le n then ("response_observed",some "unattributed_denial")
  else ("response_observed",none)

def externalObservationLabel (outcome : String) : String :=
  if outcome = "response_observed" then "Origin response observed"
  else if outcome = "application_identity_confirmed" then
    "Origin response observed; application identity confirmed"
  else if outcome = "explicit_denial_observed" then "Control-specific denial signature observed"
  else if outcome = "misdirected_request" then
    "Misdirected request (HTTP 421); enforcement unverified"
  else if outcome = "probe_path_error" then
    "Proxy error on the probe path (HTTP 407); not tested"
  else if outcome = "not_applicable" then "CDN or WAF edge answered; not an origin observation"
  else if outcome = "no_response" then "No response; enforcement unverified"
  else if outcome = "transport_error" then "Transport error; enforcement unverified"
  else "Not tested"

/-- Version one records read under the current status semantics. -/
def reinterpretLegacy (value : JsVal) : JsVal :=
  let outcome := field value "outcome"
  if !is outcome "explicit_denial_observed" &&
      !(is outcome "response_observed" &&
        (natNumber 400).le (toNumber (field value "status_code"))) then
    spread value [("denial_signature",.null),
      ("response_reason",orElse (field value "response_reason") .null),
      ("legacy_semantics",.bool true)]
  else
    let unsigned := if isIntegerValue (field value "status_code") then
        unsignedStatusOutcome (field value "status_code")
      else ("transport_error",none)
    let limitations := elements (field value "limitations")
    let limitations := if is outcome "explicit_denial_observed" then
        limitations++[say "legacy_status_only_denial_reclassified"]
      else limitations
    let limitations := match unsigned.2 with
      | none => limitations
      | some r => if limitations.any (is · r) then limitations else limitations++[say r]
    spread value [("outcome",say unsigned.1),("label",say (externalObservationLabel unsigned.1)),
      ("response_reason",(unsigned.2.map say).getD .null),("denial_signature",.null),
      ("response_observed",.bool (unsigned.1 = "response_observed")),
      ("explicit_denial_observed",.bool false),("origin_lockdown_confirmed",.bool false),
      ("legacy_semantics",.bool true),("limitations",.arr limitations)]

/-- The recorded origin observation under current semantics, or null. -/
def originObservationOf (metadata : JsVal) : Option JsVal :=
  let value := field metadata "origin_observation"
  let version := field value "semantics_version"
  match value with
  | .obj _ =>
      if !oneOf version ["external-observation-v3","external-observation-v1",
          "external-observation-v2"] then some .null
      else if !oneOf (field value "outcome") ["response_observed","application_identity_confirmed",
          "explicit_denial_observed","misdirected_request","probe_path_error","not_applicable",
          "no_response","transport_error","not_tested"] then some .null
      else if is version "external-observation-v3" then some value
      else do
        let legacy := if is version "external-observation-v1" then reinterpretLegacy value
          else spread value [("legacy_semantics",.bool true)]
        let limitations ← iterate (orElse (field legacy "limitations") (.arr []))
        some (spread legacy [("application_bypass_confirmed",.bool false),
          ("origin_lockdown_confirmed",.bool false),("baseline_comparable",.bool false),
          ("observation_only",.bool true),("readiness_conclusion",.bool false),
          ("limitations",.arr (limitations++
            [say "legacy_baseline_identity_or_completeness_unverified"]))])
  | _ => some .null

/-- Reason code and explanation of an inconclusive attempt. -/
def inconclusiveReason (env : Surroundings) (probeKind externalResult metadata : JsVal) :
    Option (String × JsVal) := do
  let metadata := match metadata with
    | .undefined => .obj []
    | m => m
  let originOutcome ← if is probeKind "host_sni_bypass" then
      (originObservationOf metadata).map (field · "outcome") else some .null
  if is originOutcome "no_response" then
    some ("origin_no_response",say "The direct-origin request received no response within its safe time limit. Silence cannot establish origin lockdown or identify the responsible control.")
  else if is originOutcome "transport_error" then
    some ("origin_transport_error",say "The direct-origin request ended in a transport error such as a refusal, unreachable host, or TLS failure. That cannot establish origin lockdown or identify the responsible control.")
  else if oneOf probeKind ["waf_evasion_marker_probe","waf_inspection_limit_probe"] &&
      is externalResult "not_run" then do
    let blocked ← read metadata "baseline_blocked"
    some ("baseline_comparison_unavailable",.str (env.plainText (js (if isFalse blocked then
      "The baseline harmless marker was allowed. Requests were sent, but evasion or inspection-limit resistance cannot be assessed without a blocked baseline."
      else "A complete blocked-baseline comparison was not recorded. Evasion or inspection-limit resistance remains unassessed."))))
  else do
    let errorClass ← read metadata "error_class"
    if is (field metadata "inconclusive_reason") "required_input_missing" ||
        is errorClass "required_input_missing" ||
        is (field metadata "explanation_reason") "required_input_missing" then
      some ("required_input_missing",orFalsy (field metadata "missing_message")
        (orFalsy (field metadata "explanation")
          (say "Required input is missing for this check; no traffic was sent.")))
    else if oneOf errorClass ["unsupported_target","resolver_not_routable",
        "missing_webhook_url"] then
      some ("endpoint_setup_required",say "The declared target lacks the endpoint details required by this probe; no protection conclusion was produced.")
    else if is externalResult "timeout" then
      some ("probe_timeout",say "The probe received no definitive response within its safe time limit. A timeout cannot establish protection or exposure; it cannot distinguish filtering from an unavailable service.")
    else
      some ("probe_incomplete",say "The probe did not establish sufficient external evidence and cannot establish protection or exposure. Review the recorded execution error or incomplete result.")

/-- An inconclusive verdict with its reason code. -/
def reasonedVerdict (env : Surroundings) (probeKind externalResult metadata : JsVal) :
    Option Outcome := do
  let reason ← inconclusiveReason env probeKind externalResult metadata
  some ⟨.inconclusive,orFalsy (field metadata "missing_message") reason.2,false,none,
    some (js reason.1),false,none⟩

def correlateObservationOnlyVerdict (env : Surroundings)
    (probeKind probeMetadata externalResult : JsVal) : Outcome :=
  if is probeKind "metadata_marker" then
    inconclusiveVerdict "Metadata-only check performed no network I/O and cannot establish readiness or exposure."
  else if is probeKind "waf_fingerprint_observation" then
    evidenceGapVerdict (.str (env.fingerprintText externalResult probeMetadata))
  else evidenceGapVerdict (template [toStr probeKind,js " recorded transport or liveness metadata only; it did not establish this check's verdict logic."])

/-- The failure verdict, nothing when the probe did not fail. -/
def correlateProbeFailure (env : Surroundings) (externalResult probeKind metadata : JsVal) :
    Option (Option Outcome) :=
  if !oneOf externalResult failedResults then some none
  else (reasonedVerdict env probeKind externalResult metadata).map some

def evidenceGapExplanation (outcome : JsVal) : Option String :=
  if is outcome "misdirected_request" then
    some "The direct-origin request received HTTP 421 (misdirected request). That reflects how the probe connection was routed, not a control decision, so the result is a coverage gap and is ignored for verdicts. Retest on a fresh connection whose SNI matches the Host."
  else if is outcome "probe_path_error" then
    some "The direct-origin request received HTTP 407, meaning a proxy sits between the probe and the target. This is a probe-path problem, so the result is a coverage gap and is ignored for verdicts."
  else if is outcome "not_applicable" then
    some "A CDN or WAF edge answered the direct-origin request, so it is not an origin observation. The result is ignored for verdicts; declare a non-edge origin address to test origin lockdown."
  else none

def markerGapExplanation (reason : JsVal) : Option String :=
  if is reason "authentication_gate_precedes_inspection" then
    some "The marker request received HTTP 401. An authentication gate answered before any inspection could be observed, so a WAF block cannot be told apart from the login challenge. The result is ignored for verdicts."
  else if is reason "unattributed_denial" then
    some "The marker request was denied without a vendor or customer-declared block signature. A block is suspected but not attributed, so it counts neither as enforcement nor as a gap."
  else if is reason "baseline_not_available" then
    some "The marker request was denied without a vendor or customer-declared block signature and no permitted baseline was captured, so the result is ignored for verdicts."
  else if is reason "misdirected_request" then
    some "The marker request received HTTP 421 (misdirected request), a connection-routing artifact. The result is ignored for verdicts."
  else if is reason "probe_path_error" then
    some "The marker request received HTTP 407 from a proxy on the probe path. The result is ignored for verdicts."
  else if is reason "error_not_attributable" then
    some "The marker request received a server error. A 5xx cannot be attributed to a control and may be an application failure, so the result is ignored for verdicts."
  else if is reason "block_suspected_unverified_signature" then
    some "The marker request was denied with only generic proxy or CDN headers from a vendor whose block signature is not yet live-verified. A block is suspected but not proven, so the result is ignored for verdicts."
  else none

/-- Names every table inherits; a lookup under one of them finds a function, which no
stored verdict keeps. -/
def inheritedNames : List String :=
  ["constructor","__defineGetter__","__defineSetter__","hasOwnProperty","__lookupGetter__",
    "__lookupSetter__","isPrototypeOf","propertyIsEnumerable","toString","valueOf","__proto__",
    "toLocaleString"]

def vendorText (value : JsVal) : JsString :=
  slice (keepOnly (toStr (orElse value (.str []))) fun n =>
    isAlphanumeric n || n = 32 || n = 46 || n = 95 || n = 45) 32

/-- Results without usable evidence, nothing otherwise. -/
def correlateEvidenceGap (probeKind probeMetadata : JsVal) : Option (Option Outcome) :=
  if is probeKind "host_sni_bypass" then
    (originObservationOf probeMetadata).map fun observation =>
      (evidenceGapExplanation (field observation "outcome")).map inconclusiveVerdict
  else
    let reason := field probeMetadata "inconclusive_reason"
    let vendor := if is reason "block_suspected_unverified_signature" then
      vendorText (field probeMetadata "matched_vendor") else []
    some (match markerGapExplanation reason with
      | some text =>
          if vendor = [] then some (inconclusiveVerdict text)
          else some (evidenceGapVerdict (template [js text,js " Suspected vendor: ",vendor,js "."]))
      | none =>
          if oneOf reason inheritedNames then some (evidenceGapVerdict .undefined) else none)

def highSeverityPorts : List ℕ :=
  [22,23,3389,445,139,3306,1433,1521,5432,6379,27017,9200,2375,2379,6443,10250,5900,5985,389,
    636,2049]

def isHighSeverityPort (port : Numeric) : Bool := highSeverityPorts.any fun k =>
  port.same (natNumber k)

def nfwPortSeverity (port : Numeric) : Severity :=
  if isHighSeverityPort port then .high else .medium

def perspectiveLabel (metadata : JsVal) : JsString :=
  let perspective := field metadata "source_perspective"
  if isObject perspective then
    toStr (orFalsy (field perspective "label") (orFalsy (field perspective "id")
      (say "external probe")))
  else match perspective with
    | .str s => if trim s = [] then js "external probe" else trim s
    | _ => js "external probe"

def addressFamilyName (value : JsVal) : Family :=
  if sameNumber value (natNumber 6) || is value "6" || is value "ipv6" then .ipv6 else .ipv4

/-- Own enumerable values of an object. -/
def objectValues : JsVal → List JsVal
  | .arr vs => vs
  | .obj kvs => kvs.map Prod.snd
  | _ => []

def familyBucket (metadata : JsVal) (key : Family) : JsVal :=
  let families := field metadata "families"
  if isObject families then orElse (field families key.name) .null else .null

def tcpOpen (row : JsVal) : Bool := is (field row "tcp_outcome") "handshake"

def udpValidated (row : JsVal) : Bool := is (field row "udp_outcome") "validated_reply"

def nfwExposed (port : Numeric) (portText : JsString) (protocol : Protocol) (family : Family)
    (metadata : JsVal) (extra : JsString) : Outcome :=
  exposedVerdict (nfwPortSeverity port) (template [js "Declared deny for ",protocol.text,js "/",
    portText,js " (",family.text,js ") from ",perspectiveLabel metadata,
    js " was violated; denial cannot be proven from outside.",extra])

def sampleAgreements : List String := ["single","agree","disagree"]

def samplesDisagree (metadata row : JsVal) : Bool :=
  let own := field row "sample_agreement"
  let buckets := objectValues (field metadata "families")
  if oneOf own sampleAgreements then is own "disagree"
  else if !buckets.isEmpty &&
      buckets.all fun f => oneOf (field f "sample_agreement") sampleAgreements then
    buckets.any fun f => is (field f "sample_agreement") "disagree"
  else is (field metadata "sample_agreement") "disagree" || is own "disagree"

def peerIsCdn (metadata row : JsVal) : Bool :=
  isTrue (field row "peer_is_cdn") || isTrue (field metadata "peer_is_cdn")

/-- First rule of the exact family, else the first rule for any family. -/
def policyRule (protocol family : String) (port : Numeric) :
    List JsVal → JsVal → Option JsVal
  | [],anyMatch => some anyMatch
  | rule::rules,anyMatch => do
      let proto ← read rule "protocol"
      if !is proto protocol || !sameNumber (field rule "port") port then
        policyRule protocol family port rules anyMatch
      else if is (field rule "address_family") family then some rule
      else if is (field rule "address_family") "any" && nullish anyMatch then
        policyRule protocol family port rules rule
      else policyRule protocol family port rules anyMatch

def declaredNetworkPolicyFor (declarations : JsVal) (protocol : Protocol) (port : Numeric)
    (family : Family) : Option JsVal :=
  match field declarations "network_policy" with
  | .arr rules => policyRule (match protocol with | .tcp => "tcp" | .udp => "udp") family.name port
      rules .null
  | _ => some .null

def declaredDeny (declarations : JsVal) (protocol : Protocol) (port : Numeric)
    (family : Family) : Option Bool :=
  (declaredNetworkPolicyFor declarations protocol port family).map fun rule =>
    is (field rule "action") "deny"

def familyViolatesDeny (declarations : JsVal) (protocol : Protocol) (port : Numeric)
    (family : Family) (row : JsVal) : Option Bool := do
  let denied ← declaredDeny declarations protocol port family
  some (denied && match protocol with
    | .tcp => tcpOpen row
    | .udp => udpValidated row)

def reflectorProtocolLabels : List (String × String) :=
  [("ssdp","SSDP"),("snmp","SNMP"),("mdns","mDNS"),("netbios","NetBIOS"),("ws","WS-Discovery"),
    ("chargen","CharGen"),("coap","CoAP"),("stun","STUN"),("ipmi","IPMI"),
    ("mssql","MS-SQL Browser"),("tftp","TFTP"),("memcached","Memcached"),("dtls","DTLS"),
    ("portmap","Portmap"),("ntp","NTP"),("cldap","CLDAP"),("openvpn","OpenVPN"),
    ("jenkins","Jenkins discovery"),("rip","RIP"),("sip","SIP"),("rdp","RDP"),("slp","SLP"),
    ("tp240","TP-240"),("l2tp","L2TP"),("natpmp","NAT-PMP"),("ipp","IPP")]

def reflectorProtocolLabel (metadata : JsVal) : JsString :=
  let validated := ((elements (field metadata "protocol_results")).find? fun row =>
    isTrue (field row "service_validated") || is (field row "udp_outcome") "validated_reply").getD
      .null
  let sent := (elements (field metadata "payload_profiles_sent")).head?.getD .undefined
  let profile := toStr (orElse (field validated "payload_profile")
    (orElse (field metadata "payload_profile") (orElse sent (.str []))))
  let head := profile.takeWhile (· ≠ 95)
  match reflectorProtocolLabels.find? fun p => js p.1 = head with
  | some p => js p.2
  | none => js "UDP"

def correlateReflectorExposure (metadata : JsVal) (port : Numeric) : Outcome :=
  let portText := if port.truthy then port.text else toStr (field metadata "port")
  { exposedVerdict .medium (template [js "Open ",reflectorProtocolLabel metadata,
      js " reflector reachable from the internet: a protocol-validated reply came back on udp/",
      portText,js " to ",perspectiveLabel metadata,js ". This is direct evidence of an open reflector from the reply itself, independent of any firewall declaration."]) with
    metadata := some ⟨some (js "validated_reflector_reply"),none⟩ }

def bothFamiliesSampled (metadata : JsVal) (port : Numeric) : Bool :=
  families.all fun key =>
    (elements (field (familyBucket metadata key) "ports_sampled")).any fun p => sameNumber p port

/-- First row that satisfies a test which may raise an exception. -/
def findRow (test : JsVal → Option Bool) : List JsVal → Option JsVal
  | [] => some .undefined
  | row::rows => do
      let hit ← test row
      if hit then some row else findRow test rows

def connectionLimitRule (declarations : JsVal) (port : Numeric) : Option JsVal :=
  match field declarations "connection_limits" with
  | .undefined => some .undefined
  | .null => some .undefined
  | .arr rows => findRow (fun row => do
      let protocol ← read row "protocol"
      some (is protocol "tcp" && sameNumber (field row "port") port)) rows
  | _ => none

def correlateConnectionLimit (metadata declarations : JsVal) : Option (Option Outcome) :=
  if samplesDisagree metadata .null then
    some (some (inconclusiveVerdict "Connection-limit samples disagreed between attempts, so the admitted count cannot be attributed to a per-source limit."))
  else if peerIsCdn metadata .null then
    some (some (inconclusiveVerdict "The connection-limit peer is a CDN edge address; admitted connections reflect the CDN, not the origin per-source limit."))
  else do
    let accepted := toNumber (field metadata "accepted_count")
    let port := toNumber (orElse (field metadata "port") (field metadata "target_port"))
    let rule ← connectionLimitRule declarations port
    let declared := field rule "max_connections_per_source"
    let limit := if nullish declared then Numeric.nan else toNumber declared
    if !limit.isInteger then
      some (some (inconclusiveVerdict "No declared connection limit configured for this target port; limit cannot be verified."))
    else if accepted.isInteger && limit.lt accepted then
      some (some (exposedVerdict .medium (template [js "Connection-limit canary accepted ",
        accepted.text,js " connections above the declared limit of ",limit.text,js " on tcp/",
        port.text,js "; denial cannot be proven from outside."])))
    else some none

/-- A violated port with its position in the list it was read from. -/
structure Leak where
  slot : ℕ
  port : JsVal
  family : Family

/-- Declared denies among the open ports of one family. -/
def familyLeaks (declarations : JsVal) (family : Family) : List (JsVal × ℕ) → Option (List Leak)
  | [] => some []
  | (port,slot)::ports => do
      let denied ← declaredDeny declarations .tcp (toNumber port) family
      let rest ← familyLeaks declarations family ports
      some (if denied then ⟨slot,port,family⟩::rest else rest)

def openPortsOf (metadata : JsVal) (family : Family) : Option (List JsVal) :=
  let own := field (familyBucket metadata family) "open_ports"
  if isArray own then some (elements own)
  else if family = .ipv4 || !truthy (field metadata "families") then
    (read metadata "open_ports").map elements
  else some []

/-- The second pass adds a row only when the first has none for the same element. -/
def extraLeaks (declarations : JsVal) (family : Family) (leaks : List Leak) :
    List (JsVal × ℕ) → Option (List Leak)
  | [] => some leaks
  | (port,slot)::ports => do
      let denied ← declaredDeny declarations .tcp (toNumber port) family
      let known := leaks.any fun row =>
        (strictEq row.port port || row.slot = slot) && row.family = family
      extraLeaks declarations family
        (if denied && !known then leaks++[⟨slot,port,family⟩] else leaks) ports

def correlatePortScan (metadata declarations : JsVal) : Option (Option Outcome) := do
  let open4 ← openPortsOf metadata .ipv4
  let leaks4 ← familyLeaks declarations .ipv4 open4.zipIdx
  let open6 ← openPortsOf metadata .ipv6
  let leaks6 ← familyLeaks declarations .ipv6 open6.zipIdx
  let leaks := leaks4++leaks6
  let leaks ← if !truthy (field metadata "families") && isArray (field metadata "open_ports") then
      extraLeaks declarations (addressFamilyName (field metadata "address_family")) leaks
        (elements (field metadata "open_ports")).zipIdx
    else some leaks
  let position := (leaks.findIdx? fun row => isHighSeverityPort (toNumber row.port)).getD 0
  match leaks[position]? with
  | none => some none
  | some primary =>
      let others := leaks.eraseIdx position
      let oneFamily := leaks.all fun row => row.family = primary.family
      let parity := is (field metadata "parity") "mismatch" && oneFamily &&
        bothFamiliesSampled metadata (toNumber primary.port)
      let parityText := if parity then
        js " IPv6 parity mismatch: "++primary.family.text++js " is the leaking family." else []
      let othersText := if others.isEmpty then []
        else js " Also violated: "++join ", " (others.map fun row =>
          js "tcp/"++toStr row.port++js " ("++row.family.text++js ")")++js "."
      some (some (nfwExposed (toNumber primary.port) (toStr primary.port) .tcp primary.family
        metadata (parityText++othersText)))

/-- The families whose row violates a declared deny. -/
def violatingFamilies (metadata declarations : JsVal) (protocol : Protocol) (port : Numeric)
    (topRow : JsVal) : List Family → Option (List Family)
  | [] => some []
  | key::keys => do
      let row := familyBucket metadata key
      if !truthy row && truthy (field metadata "families") then
        violatingFamilies metadata declarations protocol port topRow keys
      else do
        let sample ← if nullish row then
            (read metadata "address_family").map fun f =>
              if key = addressFamilyName f then topRow else .null
          else some row
        if !truthy sample then violatingFamilies metadata declarations protocol port topRow keys
        else do
          let violates ← familyViolatesDeny declarations protocol port key sample
          let rest ← violatingFamilies metadata declarations protocol port topRow keys
          if violates && !samplesDisagree metadata sample && !peerIsCdn metadata sample then
            some (key::rest)
          else some rest

/-- The verdict on one port, given the families that violate a declared deny. -/
def violatedFamiliesVerdict (probeKind metadata : JsVal) (protocol : Protocol) (port : Numeric) :
    List Family → Option Outcome
  | leaking::others =>
      let parity := is (field metadata "parity") "mismatch" && others.isEmpty
      some (nfwExposed port port.text protocol leaking metadata (if parity then
        js " IPv6 parity mismatch: "++leaking.text++js " is the leaking family." else []))
  | [] =>
      if is probeKind "reflection_service_probe" && udpValidated metadata &&
          !isFalse (field metadata "service_validated") then
        some (correlateReflectorExposure metadata port)
      else none

def correlateSinglePort (probeKind metadata declarations : JsVal) : Option (Option Outcome) := do
  let protocol := if is probeKind "udp_probe" || is (field metadata "protocol") "udp" then
    Protocol.udp else .tcp
  let port := toNumber (orElse (field metadata "port") (field metadata "target_port"))
  let topRow : JsVal := .obj [(js "tcp_outcome",field metadata "tcp_outcome"),
    (js "udp_outcome",field metadata "udp_outcome"),
    (js "sample_agreement",field metadata "sample_agreement"),
    (js "peer_is_cdn",field metadata "peer_is_cdn")]
  let violating ← violatingFamilies metadata declarations protocol port topRow families
  if truthy (field metadata "families") then
    some (violatedFamiliesVerdict probeKind metadata protocol port violating)
  else do
    let family := addressFamilyName (← read metadata "address_family")
    let violates ← familyViolatesDeny declarations protocol port family topRow
    let violating := if violates && !samplesDisagree metadata topRow &&
        !peerIsCdn metadata topRow && !violating.contains family then violating++[family]
      else violating
    some (violatedFamiliesVerdict probeKind metadata protocol port violating)

def correlateNfwViolation (probeKind metadata declarations : JsVal) : Option (Option Outcome) :=
  if is probeKind "connection_limit_probe" then correlateConnectionLimit metadata declarations
  else if samplesDisagree metadata .null || peerIsCdn metadata .null then some none
  else if is probeKind "port_scan_bounded" then correlatePortScan metadata declarations
  else correlateSinglePort probeKind metadata declarations

/-- A live origin binding together with a declared lockdown expectation. -/
def originBindingDeclared (declarations originBinding : JsVal) : Bool :=
  truthy originBinding && !is (field originBinding "status") "archived" &&
    !is (field originBinding "status") "deleted" &&
    (truthy (field originBinding "id") || truthy (field originBinding "protected_target_id") ||
      truthy (field originBinding "origin_target_id")) &&
    isTrue (field (field declarations "origin") "lockdown_expected")

def isHttp2xx (code : Numeric) : Bool :=
  code.isInteger && (natNumber 200).le code && code.lt (natNumber 300)

def applicationFingerprintMatched (metadata : JsVal) : Option Bool := do
  let observation ← originObservationOf metadata
  let raw := field metadata "origin_observation"
  some (isTrue (field metadata "application_bypass_confirmed") ||
    isTrue (field observation "application_bypass_confirmed") ||
    is (field observation "outcome") "application_identity_confirmed" ||
    isTrue (field raw "application_bypass_confirmed") ||
    is (field raw "outcome") "application_identity_confirmed")

def httpStatusOf (probeMetadata : JsVal) : Option Numeric := do
  let observation ← originObservationOf probeMetadata
  some (toNumber (orElse (field observation "status_code")
    (orElse (field (field probeMetadata "origin_observation") "status_code")
      (field probeMetadata "status_code"))))

/-- A declared lockdown that the direct origin answered as the application. -/
def lockdownViolated (probeMetadata declarations originBinding : JsVal) : Option Bool :=
  if !originBindingDeclared declarations originBinding then some false
  else if peerIsCdn probeMetadata .null then some false
  else do
    let status ← httpStatusOf probeMetadata
    if !isHttp2xx status then some false else applicationFingerprintMatched probeMetadata

def correlateOriginLockdownVerdict (probeMetadata declarations originBinding : JsVal) :
    Option (Option Outcome) := do
  let violated ← lockdownViolated probeMetadata declarations originBinding
  some (if violated then
    some (exposedVerdict .medium (say "Your origin was reachable directly, outside the CDN: the declared origin binding answered as the application for the target hostname (application identity confirmed, not just a TCP handshake) to a non-CDN probe while origin.lockdown_expected is declared."))
    else none)

/-- `text.toLowerCase()` on ASCII letters. -/
def lowerAscii (s : JsString) : JsString :=
  s.map fun u => if 65 ≤ u.toNat ∧ u.toNat ≤ 90 then u+32 else u

def markerClassLabels : List (String × String) :=
  [("sqli","SQL injection"),("xss","cross-site scripting"),("path_traversal","path traversal"),
    ("rce","remote code execution"),("command_injection","command injection"),
    ("ldap_injection","LDAP injection"),("ssti","server-side template injection"),
    ("ssrf","server-side request forgery"),("xxe","XML external entity"),
    ("jndi","JNDI/Log4Shell lookup"),("log4shell","JNDI/Log4Shell lookup"),
    ("scanner_signature","vulnerability-scanner signature"),
    ("scanner_user_agent","vulnerability-scanner user-agent"),("nosqli","NoSQL injection"),
    ("jwt","JWT tampering"),("request_smuggling","HTTP request smuggling"),
    ("smuggling","HTTP request smuggling"),("lfi","local file inclusion"),
    ("rfi","remote file inclusion")]

/-- Runs of underscores and hyphens become one blank. -/
def spaced : JsString → JsString
  | [] => []
  | [u] => if u = 95 ∨ u = 45 then [32] else [u]
  | u::v::us =>
      if u = 95 ∨ u = 45 then
        if v = 95 ∨ v = 45 then spaced (v::us) else 32::spaced (v::us)
      else u::spaced (v::us)

def markerClassLabel (markerClass : JsVal) : Option JsString :=
  match markerClass with
  | .str s =>
      if trim s = [] then none
      else
        let key := lowerAscii (trim s)
        match markerClassLabels.find? fun p => js p.1 = key with
        | some p => some (js p.2)
        | none => some (spaced key)
  | _ => none

def challengeActions : List String := ["challenge","block_or_challenge"]

def expectedWafAction (declarations : JsVal) : JsVal :=
  match field (field declarations "waf") "expected_action" with
  | .str s => .str s
  | _ => say "block"

def placementsOf (metadata : JsVal) : List JsVal :=
  (elements (field metadata "placements")).filter truthy

def redirectedOnlyLegs (metadata : JsVal) : Bool :=
  let placements := placementsOf metadata
  let redirected := placements.filter fun row =>
    is (field row "outcome") "redirected" || isTrue (field row "location_changed")
  let blocked := placements.filter fun row =>
    is (field row "outcome") "blocked" || isTrue (field row "blocked")
  !placements.isEmpty && !redirected.isEmpty && blocked.isEmpty &&
    redirected.length = placements.length

def unenforcedPlacementNames (metadata : JsVal) : List JsVal :=
  (((placementsOf metadata).filter fun row => is (field row "outcome") "allowed" ||
    isTrue (field row "allowed") || is (field row "enforcement") "not_enforced").map
    fun row => field row "placement").filter truthy

def challengeText (expected : JsVal) : JsVal :=
  template [js "Observed challenge matches declared WAF expected_action '",toStr expected,js "'."]

def correlateChallengeRedirectPenalty (metadata declarations externalResult : JsVal) :
    Option Outcome :=
  let posture := field metadata "posture_status"
  if isTrue (field metadata "source_penalized") || is posture "source_penalized" then
    some (inconclusiveVerdict "Trailing benign request was penalized; source-level ban makes later legs untrustworthy, so posture is inconclusive.")
  else if is posture "inconclusive" then
    some (inconclusiveVerdict "WAF posture is inconclusive; a block or allow conclusion cannot be drawn from this run.")
  else if redirectedOnlyLegs metadata then
    some (inconclusiveVerdict "Redirected-only legs cannot satisfy a block expectation; posture is inconclusive.")
  else if !(is (field metadata "enforcement") "challenged" || is posture "challenged" ||
      is (field metadata "external_result") "challenged" || is externalResult "challenged") then
    none
  else
    let expected := expectedWafAction declarations
    if oneOf expected challengeActions then some (protectedVerdict (challengeText expected))
    else some (inconclusiveVerdict "A challenge does not satisfy a block expectation.")

def correlateClassMarkerVerdict (metadata : JsVal) : Option Outcome :=
  let enforcement := field metadata "enforcement"
  let custom := is (field metadata "assurance_scope") "custom_canary_rule"
  let label := markerClassLabel (field metadata "marker_class")
  if is enforcement "enforced" then
    some (protectedVerdict (say (if custom then
      "Your custom canary rule for AstraNull's marker was enforced on the tested placements."
      else "Managed-rule marker was enforced on the tested placements.")))
  else if is enforcement "not_enforced" then
    some (exposedVerdict (if custom then .low else .medium) (if custom then
        say "Your custom canary rule for AstraNull's marker was not enforced."
      else match label with
        | some l => template [js "Managed-rule marker for ",l,
            js " was not enforced: the edge let it through to the origin."]
        | none => say "Managed-rule marker was not enforced."))
  else if is enforcement "partial" then
    let names := unenforcedPlacementNames metadata
    if !(placementsOf metadata).isEmpty && names.isEmpty then
      some (inconclusiveVerdict "Partial enforcement without any allowed placement (for example blocked plus challenged legs) is not exposure; posture is inconclusive.")
    else
      let named := if names.isEmpty then []
        else js " Unenforced placements: "++join ", " (names.map toStr)++js "."
      some (exposedVerdict .low (if custom then
          template [js "Your custom canary rule for AstraNull's marker was only partially enforced.",
            named]
        else match label with
          | some l => template [js "Managed-rule marker for ",l,
              js " was only partially enforced.",named]
          | none => template [js "Managed-rule marker was only partially enforced.",named]))
  else none

def managedTransformFamilies : List String := ["sqli","xss","path_traversal"]

def correlateEvasionVerdict (metadata : JsVal) : Option Outcome :=
  if isTrue (field metadata "reference_not_enforced") then
    some (inconclusiveVerdict "The plain managed-rule marker was not enforced, so this evasion transform cannot be graded. Run the matching managed-rule marker check first.")
  else if isTrue (field metadata "normalization_gap") then
    let transform := toStr (orElse (field metadata "evasion_transform")
      (orElse (field metadata "transform") (say "transform")))
    let family := field metadata "marker_class"
    some (exposedVerdict (if oneOf family managedTransformFamilies then .medium else .low)
      (match markerClassLabel family with
        | some l => template [js "normalization gap for ",transform,js ": the plain ",l,
            js " marker was blocked, but the same marker sent with ",transform,
            js " encoding was allowed through."]
        | none => template [js "normalization gap for ",transform]))
  else none

/-- Complete attested delivery of the planned marker comparison. -/
def markerComparisonComplete (m : JsVal) : Bool :=
  let planned := field m "planned_marker_legs"
  let completed := field m "completed_marker_legs"
  let graded := field m "graded_marker_legs"
  is (field m "classifier_version") "marker-comparison-v5" &&
    isTrue (field m "comparison_complete") &&
    is (orElse (field m "baseline_health") (orElse (field (field m "permitted_baseline") "health")
      (field m "permitted_baseline_health"))) "healthy" &&
    !isTrue (field m "source_penalized") &&
    (if is (field m "assurance_scope") "completed_supported_inert_marker_rules_only" then
      isTrue (field m "coverage_complete")
      else is (field (field m "trailing_control") "outcome") "allowed") &&
    isSafeInteger planned && positive planned &&
    strictEq (field m "attempted_marker_legs") planned && strictEq completed planned &&
    isSafeInteger graded && positive graded && (toNumber graded).le (toNumber completed) &&
    (match field m "ungraded_marker_legs",completed,graded with
      | .num u,.num c,.num g => rational u = rational c-rational g
      | _,_,_ => false) &&
    sameNumber (field m "missing_marker_legs") (natNumber 0)

def rateLimitedText (limited threshold : Numeric) (tail : String) : JsVal :=
  template [js "Rate-limit canary was limited at request ",limited.text,
    js ", at or before the declared threshold of ",threshold.text,js tail]

def correlateRateLimitCanary (metadata declarations : JsVal) : Option Outcome :=
  let canary := field (field declarations "waf") "rate_limit_canary"
  let threshold := toNumber (field canary "threshold")
  let requestsSent := toNumber (field metadata "requests_sent")
  let rawIndex := field metadata "first_limited_at"
  let limited := if nullish rawIndex || is rawIndex "" then Numeric.nan else toNumber rawIndex
  let hasIndex := limited.isInteger && (natNumber 0).lt limited
  let rawAllowed := field metadata "allowed_before_limit"
  let allowedBefore := if nullish rawAllowed then Numeric.nan else toNumber rawAllowed
  let expectedAction := orElse (field canary "expected_action") (say "block")
  let limitedOutcome := field metadata "limited_outcome"
  let challengeMismatch := is limitedOutcome "challenged" &&
    !is expectedAction "block_or_challenge"
  let twoAbove : Bool := match threshold,limited with
    | .finite t,l => (ofNonneg (rational t+2)).lt l
    | _,_ => false
  if !threshold.isInteger || threshold.lt (natNumber 1) then none
  else if hasIndex && limited.le threshold then
    some (evidenceGapVerdict (rateLimitedText limited threshold "; the route may always be blocked, so this is not rate-limit evidence (limited_before_threshold)."))
  else if hasIndex && twoAbove then
    some (evidenceGapVerdict (template [js "Rate-limit canary was first limited at request ",
      limited.text,js ", later than the declared threshold plus two; the result is inconclusive."]))
  else if hasIndex then
    if challengeMismatch then
      some (inconclusiveVerdict "Rate-limit canary encountered a challenge response, but expected_action requires a block (limited_by_challenge).")
    else if allowedBefore.isInteger && allowedBefore.lt threshold then
      some (evidenceGapVerdict (template [js "Only ",allowedBefore.text,js " of the first ",
        threshold.text,js " canary requests were allowed before the limit, so the threshold behaviour is not proven; the result is inconclusive."]))
    else
      some (protectedVerdict (template [js "Rate-limit canary allowed the first ",threshold.text,
        js " requests and was limited at request ",limited.text,
        js ", within the declared threshold plus two."]))
  else if oneOf limitedOutcome ["blocked","challenged","rate_limited"] then
    if challengeMismatch then
      some (inconclusiveVerdict "Rate-limit canary encountered a challenge response, but expected_action requires a block (limited_by_challenge).")
    else some (inconclusiveVerdict "Rate-limit canary reported a limited response without the request index; the threshold cannot be checked.")
  else if requestsSent.isInteger && threshold.lt requestsSent then
    if allowedBefore.isInteger && threshold.lt allowedBefore then
      some (exposedVerdict .low (template [js "Rate-limit canary sent ",requestsSent.text,
        js " requests, more than the declared threshold of ",threshold.text,
        js ", and was never limited."]))
    else
      some (evidenceGapVerdict (template [js "Rate-limit canary sent ",requestsSent.text,
        js " requests, but did not observe more than ",threshold.text,
        js " allowed requests (unattributed_errors)."]))
  else
    some (evidenceGapVerdict (template [js "Rate-limit canary sent ",
      if requestsSent.isInteger then requestsSent.text else js "too few",
      js " requests before the window or budget ran out, never exceeding the declared threshold of ",
      threshold.text,js " (window_expired_before_threshold)."]))

/-- The strings among values. -/
def strings (vs : List JsVal) : List JsString :=
  vs.filterMap fun v => match v with
    | .str s => some s
    | _ => none

def axfrLeakingNameservers (metadata : JsVal) : JsString :=
  let rows := (elements (field metadata "nameserver_results")).filter fun row =>
    isTrue (field row "axfr_leak")
  let names := (strings (rows.map fun row => field row "nameserver")).eraseDups
  let names := match names,field metadata "nameserver" with
    | [],.str s => if isTrue (field metadata "axfr_leak") && trim s ≠ [] then [trim s] else []
    | names,_ => names
  if names = [] then [] else js " Nameservers that allowed the transfer: "++
    join ", " (names.take 8)++js "."

def axfrLeaked (metadata : JsVal) : Bool :=
  isTrue (field metadata "axfr_leak") ||
    (elements (field metadata "nameserver_results")).any fun row => isTrue (field row "axfr_leak")

/-- Every name server was queried and refused. -/
def hasRefusalCoverage (metadata : JsVal) : Bool :=
  let total := field metadata "nameservers_total"
  let rows := elements (field metadata "nameserver_results")
  let unqueried := field metadata "unqueried_nameservers"
  isTrue (field metadata "axfr_refused") && isSafeInteger total && positive total &&
    strictEq (field metadata "nameservers_queried") total && !rows.isEmpty &&
    (!truthy unqueried || (isArray unqueried && (elements unqueried).isEmpty)) &&
    (rows.all fun row => isTrue (field row "queried") && isTrue (field row "axfr_refused") &&
      !isTrue (field row "axfr_leak") && (match field row "nameserver" with
        | .str s => trim s ≠ []
        | _ => false)) &&
    sameNumber total
      (natNumber ((strings (rows.map fun row => field row "nameserver")).map trim).eraseDups.length)

def correlateAxfrVerdict (externalResult metadata : JsVal) (probeIoObserved : Bool) :
    Option Outcome :=
  if is externalResult "connected" && probeIoObserved && axfrLeaked metadata then
    some (exposedVerdict .medium (template [js "At least one authoritative nameserver answered a zone transfer (AXFR) request from the internet.",axfrLeakingNameservers metadata]))
  else if probeIoObserved && !oneOf externalResult failedResults && hasRefusalCoverage metadata then
    some (protectedVerdict (say "Every authoritative nameserver for the zone was queried and refused the zone transfer."))
  else if is (field metadata "enforcement") "partial" then
    some (inconclusiveVerdict "Every queried nameserver refused the zone transfer, but the request budget left some nameservers unqueried, so the zone is not proven protected.")
  else if oneOf externalResult failedResults then none
  else some (inconclusiveVerdict "The zone transfer result did not show a refusal from every nameserver or a leak; the result is inconclusive.")

def perspectiveIdOf (metadata : JsVal) : JsVal :=
  let perspective := field metadata "source_perspective"
  if isObject perspective then orElse (field perspective "id") .null
  else match perspective with
    | .str s => if trim s = [] then .null else .str (trim s)
    | _ => .null

def correlateMethodPolicyVerdict (probeMetadata : JsVal) : Outcome :=
  if isTrue (field probeMetadata "source_penalized") then
    inconclusiveVerdict "Method-policy source was penalized; the comparison is not a control verdict."
  else if is (field probeMetadata "inconclusive_reason")
      "not_enforced_by_waf_but_rejected_by_origin" then
    inconclusiveVerdict "not_enforced_by_waf_but_rejected_by_origin"
  else if is (field probeMetadata "enforcement") "enforced" then
    protectedVerdict (say "TRACE and a nonstandard token method (sent with no body) were refused at the edge with a control-specific denial while the permitted GET baseline stayed healthy.")
  else if is (field probeMetadata "enforcement") "not_enforced" then
    exposedVerdict .low (say "TRACE or a nonstandard token method (sent with no body) was allowed through the edge.")
  else inconclusiveVerdict "HTTP method policy did not produce a complete enforcement comparison."

/-- The claimed perspective, or the one recorded with the probe. -/
def sourcePerspectiveId (probeMetadata : JsVal) : JsVal :=
  match field probeMetadata "claimed_perspective_id" with
  | .str s => if s = [] then perspectiveIdOf probeMetadata else .str s
  | _ => perspectiveIdOf probeMetadata

/-- A handshake from a perspective the declarations deny. -/
def deniedHandshake (probeMetadata declarations externalResult : JsVal) : Bool :=
  let denied := (elements (field (field declarations "perspectives")
    "denied_perspective_ids")).filter truthy
  let source := sourcePerspectiveId probeMetadata
  (is (field probeMetadata "tcp_outcome") "handshake" || is externalResult "connected") &&
    truthy source && denied.any (strictEq · source)

def correlatePerspectiveAllowlist (env : Surroundings)
    (probeMetadata declarations externalResult : JsVal) : Option Outcome := do
  let perspectives ← env.perspectives
  let source := sourcePerspectiveId probeMetadata
  if perspectives.length < 2 then
    some (inconclusiveVerdict "This check needs at least two registered probe perspectives.")
  else if deniedHandshake probeMetadata declarations externalResult then
    if !isTrue (field probeMetadata "perspective_authenticated") then
      some (evidenceGapVerdict (template [js "A handshake was observed from perspective ",
        toStr source,js ", but that perspective was not authenticated with its own worker secret, so the source cannot be attributed. Configure a per-perspective worker secret and re-run."]))
    else some (exposedVerdict .medium (template [js "Allowlist not enforced for perspective ",
      toStr source]))
  else some (inconclusiveVerdict "Perspective allowlist did not observe a handshake from a denied perspective.")

def portResultFields : List String :=
  ["protocol","port","address","address_family","tcp_outcome","udp_outcome","icmp",
    "service_validated","peer_is_cdn","families","parity","samples","sample_agreement"]

/-- The metadata of the whole probe narrowed to one row. -/
def singlePortMetadata (metadata row : JsVal) : JsVal :=
  let base := match metadata with
    | .obj kvs => JsVal.obj (kvs.filter fun p => p.1 ≠ js "port_results")
    | _ => .obj []
  let single := spread base (("target_port",field row "port")::
    portResultFields.map fun key => (key,field row key))
  if isObject (field row "families") then single
  else match single with
    | .obj kvs => .obj (kvs.filter fun p => p.1 ≠ js "families")
    | v => v

def portResult (probeKind metadata declarations row : JsVal) : Option PortResult := do
  let protocol := if is probeKind "udp_probe" || is (field row "protocol") "udp" then
    Protocol.udp else .tcp
  let verdict ← correlateNfwViolation probeKind (singlePortMetadata metadata row) declarations
  let port := toNumber (field row "port")
  let outcome := orElse (field row (match protocol with
    | .udp => "udp_outcome"
    | .tcp => "tcp_outcome")) .null
  let agreement := if truthy (field row "sample_agreement") then field row "sample_agreement"
    else .undefined
  let samples := if isArray (field row "samples") then field row "samples" else .undefined
  match verdict with
  | some v =>
      if v.verdict = .exposed then
        some ⟨protocol,port,outcome,true,some (v.severity.getD (nfwPortSeverity port)),
          v.explanation,agreement,samples⟩
      else some ⟨protocol,port,outcome,false,none,.null,agreement,samples⟩
  | none => some ⟨protocol,port,outcome,false,none,.null,agreement,samples⟩

/-- Per-port verdicts; nothing for a probe of a single port. -/
def nfwPortResults (probeKind metadata declarations : JsVal) :
    Option (Option (List PortResult)) :=
  if !oneOf probeKind ["tcp_connect","udp_probe"] then some none
  else
    let rows := (elements (field metadata "port_results")).filter isObject
    if rows.isEmpty then some none
    else (rows.mapM (portResult probeKind metadata declarations)).map some

def withPortResults (verdict : Outcome) (portResults : List PortResult) : Outcome :=
  { verdict with
    metadata := some ⟨verdict.metadata.bind (·.exposureBasis),some portResults⟩ }

def neverPublicPorts : List (ℕ × String) :=
  [(23,"Telnet"),(445,"SMB"),(2375,"Docker Engine API"),(2379,"etcd"),(6379,"Redis"),
    (9200,"Elasticsearch"),(10250,"Kubernetes kubelet"),(27017,"MongoDB")]

def neverPublicService (port : Numeric) : Option String :=
  (neverPublicPorts.find? fun p => port.same (natNumber p.1)).map Prod.snd

def inferredGap (severity : Severity) (explanation : JsVal) : Outcome :=
  { exposedVerdict severity explanation with inferredWithoutDeclaration := true }

/-- The sampled families of a scan with their names; the whole metadata when it has none. -/
def scannedFamilies (metadata : JsVal) : List (JsString × JsVal × Bool) :=
  match field metadata "families" with
  | .obj kvs => (kvs.filter fun p => isObject p.2 && !truthy (field p.2 "not_sampled")).map
      fun p => (p.1,p.2,false)
  | .arr vs => (vs.zipIdx.filter fun p => isObject p.1 && !truthy (field p.1 "not_sampled")).map
      fun p => ((Nat.toDigits 10 p.2).map fun c => UInt16.ofNat c.toNat,p.1,false)
  | _ => [(js "ipv4",metadata,true)]

/-- The never public ports open in one family that also has a closed or silent port. -/
def neverPublicRow (metadata : JsVal) (entry : JsString × JsVal × Bool) :
    List (Numeric × JsString) :=
  let row := entry.2.1
  let ports := (elements (field row "open_ports")).map toNumber
  let silent := ["closed_ports","rejected_ports","filtered_ports"].any fun key =>
    (elements (field row key)).any fun p => !ports.contains (toNumber p)
  if !entry.2.2 && (peerIsCdn metadata row || samplesDisagree metadata row) then []
  else if !silent then []
  else (ports.filter fun p => (neverPublicService p).isSome).map fun p => (p,entry.1)

def neverPublicPortGap (metadata : JsVal) : Option Outcome :=
  let exposed := ((scannedFamilies metadata).flatMap (neverPublicRow metadata)).eraseDups
  let listed := join ", " (exposed.map fun item => js "tcp/"++item.1.text++js " "++
    js ((neverPublicService item.1).getD "")++js " ("++item.2++js ")")
  if peerIsCdn metadata .null || samplesDisagree metadata .null then none
  else if exposed.isEmpty then none
  else some (inferredGap .high (template [js "Services that should never be reachable from the internet accepted a TCP handshake from ",perspectiveLabel metadata,js ": ",listed,js ". Other scanned ports were closed or filtered, so this is not an accept-all host."]))

def unlimitedH2Streams : ℕ := 2147483647

def absText (n : Numeric) : JsString :=
  match n with
  | .finite (.nonzero _ x) => toStr (.num (.nonzero false x))
  | .infinite _ => js "Infinity"
  | n => n.text

/-- The gap of one catalog check, when its fields show a missing control. -/
def inferredControlGap (checkId probeKind metadata : JsVal) : Option Outcome :=
  if oneOf checkId ["nfw.management_port_exposure.safe","l3.firewall_exposure_scan.safe"] &&
      is probeKind "port_scan_bounded" then neverPublicPortGap metadata
  else if is checkId "reflect.redis_direct_exposure.safe" && is probeKind "tcp_connect" then
    let samples := elements (field metadata "samples")
    if peerIsCdn metadata .null || !is (field metadata "sample_agreement") "agree" ||
        samples.length < 2 || !(samples.all fun row => is (field row "tcp_outcome") "handshake" &&
          (toNumber (field row "port")).same (natNumber 6379)) then none
    else some (inferredGap .high (template [
      js "Redis (tcp/6379) accepted a TCP handshake from ",perspectiveLabel metadata,js " on ",
      (natNumber samples.length).text,js " of ",(natNumber samples.length).text,
      js " samples; Redis should never be reachable from the internet."]))
  else if is checkId "tls.full_audit.safe" && is probeKind "tls_audit" &&
      isTrue (field metadata "complete") then
    let issues := elements (field metadata "tls_issues")
    if issues.any (is · "cert_expired") then
      some (inferredGap .medium (template [js "The certificate served on this endpoint expired ",
        absText (toNumber (field metadata "days_to_expiry")),js " day(s) ago",
        if truthy (field metadata "valid_to") then
          js " (valid to "++toStr (field metadata "valid_to")++js ")" else [],js "."]))
    else if issues.any (is · "certificate_not_yet_valid") then
      some (inferredGap .medium (say "The certificate served on this endpoint is not yet valid."))
    else none
  else if is checkId "dns.secondary_failover.safe" && is probeKind "dns_failover_posture" then
    let first := (elements (field metadata "nameservers")).head?.getD .undefined
    if !isTrue (field metadata "nameserver_count_below_two") ||
        !sameNumber (field metadata "nameserver_count") (natNumber 1) then none
    else some (inferredGap .medium (template [js "The zone",
      if truthy (field metadata "zone") then js " "++toStr (field metadata "zone") else [],
      js " is delegated to a single nameserver",
      if truthy first then js " ("++toStr first++js ")" else [],
      js ", so there is no secondary to answer if it is overwhelmed."]))
  else if is checkId "l7.cors_posture.safe" && is probeKind "cors_posture_probe" then
    if !is (field metadata "access_control_allow_origin") "https://probe.invalid.astranull" ||
        !isTrue (field metadata "credentials_advertised") then none
    else some (inferredGap .medium (say "This URL reflected AstraNull's unrelated test Origin in Access-Control-Allow-Origin and allowed credentials, so any website can make credentialed requests to it."))
  else if is checkId "protocol.grpc_reflection_stream.safe" &&
      is probeKind "grpc_reflection_probe" then
    if !isTrue (field metadata "reflection_service_exposed") ||
        !isTrue (field metadata "protocol_identity_confirmed") then none
    else some (inferredGap .low (say "The gRPC server reflection service answered an unauthenticated list_services request, exposing the service catalog to anyone."))
  else if is checkId "tls.renegotiation.readiness" && is probeKind "tls_session" then
    if !is (field metadata "tls_protocol") "TLSv1.2" ||
        !isTrue (field metadata "client_renegotiation_attempted") ||
        !isTrue (field metadata "client_renegotiation_accepted") then none
    else some (inferredGap .low (say "The TLS 1.2 endpoint accepted a client-initiated renegotiation on an established connection, so one client can force repeated expensive handshakes."))
  else if is checkId "protocol.http2_stream_concurrency.safe" &&
      is probeKind "http2_settings" then
    let streams := field metadata "max_concurrent_streams"
    let unlimited := match toNumber streams with
      | .finite n => (natNumber unlimitedH2Streams).le (.finite n)
      | _ => false
    if !(strictEq streams .null || unlimited) || !has metadata "max_concurrent_streams" then none
    else some (inferredGap .low (say "The HTTP/2 endpoint advertised no SETTINGS_MAX_CONCURRENT_STREAMS limit, so one client can open an unbounded number of concurrent streams."))
  else none

def correlateInferredMissingControl (env : Surroundings) (input : Input) :
    Option (Option Outcome) :=
  let metadata := input.probeMetadata
  if !truthy input.checkId || !input.probeIoObserved || !isObject metadata then some none
  else if truthy (field metadata "inconclusive_reason") || truthy (field metadata "error_class") then
    some none
  else do
    let gap ← correlateEvidenceGap input.probeKind metadata
    if gap.isSome then some none
    else do
      let failure ← correlateProbeFailure env input.externalResult input.probeKind metadata
      if failure.isSome then some none
      else if !is input.externalResult "connected" then some none
      else some (inferredControlGap input.checkId input.probeKind metadata)

def withInferredMissingControl (env : Surroundings) (input : Input) (result : Outcome) :
    Option Outcome :=
  if result.verdict ≠ .inconclusive then some result
  else do
    let inferred ← correlateInferredMissingControl env input
    some (match inferred with
      | some gap => { gap with metadata := result.metadata }
      | none => result)

/-- The attestation guard of the kinds with specialized fields; nothing when it passes. -/
def semanticGuard (env : Surroundings) (input : Input) : Option (Option Outcome) := do
  let metadata := input.probeMetadata
  let kind := input.probeKind
  let failure ← correlateProbeFailure env input.externalResult kind metadata
  if failure.isSome then some failure
  else if !input.probeIoObserved then
    some (some (inconclusiveVerdict "Control metadata has no attested probe I/O; no enforcement or exposure conclusion is available."))
  else do
    let scope ← read metadata "assurance_scope"
    if is scope "custom_canary_rule" || isTrue (field metadata "setup_required") then
      some (some (inconclusiveVerdict "Custom canary setup is not bound to an installed exact-token rule and placements. This is an inert-token observation only, with no enforcement conclusion or managed-rule coverage; the current declaration workflow cannot establish that binding."))
    else if oneOf kind ["waf_class_marker_probe","outside_in_waf_scan"] &&
        (!markerComparisonComplete metadata ||
          !is (field metadata "grading_version") "waf-grading.v3") then
      some (some (inconclusiveVerdict "The current marker comparison lacks complete attested planned delivery, healthy controls or compatible grading; excluded placements do not establish enforcement."))
    else if is (field metadata "enforcement") "enforced" &&
        (placementsOf metadata).any fun row =>
          is (field row "outcome") "allowed" || isTrue (field row "allowed") then
      some (some (inconclusiveVerdict "Enforcement metadata contradicts an allowed placement; the comparison must be repeated."))
    else if isFalse (field metadata "comparison_complete") ||
        is (field metadata "baseline_health") "unhealthy" then
      some (some (inconclusiveVerdict "The specialized control comparison is incomplete or its baseline is unhealthy."))
    else some none

def connectedResult (externalResult : JsVal) : Bool :=
  is externalResult "connected" || is externalResult "allowed"

def challengedResult (externalResult probeMetadata : JsVal) : Bool :=
  is externalResult "challenged" || is (field probeMetadata "enforcement") "challenged"

/-- The last part of the cascade, for the verdict capable kinds. -/
def expectationVerdict (input : Input) : Outcome :=
  let metadata := input.probeMetadata
  let blocked := is input.externalResult "blocked"
  let connected := connectedResult input.externalResult
  let expected := expectedWafAction input.declarations
  if blocked && !input.probeIoObserved then
    inconclusiveVerdict "Blocked metadata had no attested probe I/O and cannot establish edge protection."
  else if is input.expectedBehavior "must_block_before_origin" then
    if challengedResult input.externalResult metadata then
      if oneOf expected challengeActions then protectedVerdict (challengeText expected)
      else inconclusiveVerdict "A challenge does not satisfy a block expectation."
    else if blocked then
      if is (field metadata "enforcement") "enforced" ||
          is input.probeKind "waf_class_marker_probe" then
        protectedVerdict (say "External probe was blocked by the control under test.")
      else ⟨.edgeProtected,say "External probe was blocked at the edge; the declared path did not respond as reachable.",false,none,none,false,none⟩
    else if connected then
      ⟨.edgeExposed,say "External probe reached the declared path; the edge did not block traffic before origin.",true,some .medium,none,false,none⟩
    else inconclusiveVerdict "Insufficient external probe evidence for a definitive verdict."
  else if is input.expectedBehavior "must_reach_canary" then
    if connected then
      ⟨.allowedAsExpected,say "Protected-path canary traffic reached the declared path as expected.",
        false,none,none,false,none⟩
    else if blocked then
      inconclusiveVerdict "Canary path did not complete — protected path or canary may be unreachable."
    else inconclusiveVerdict "Insufficient external probe evidence for a definitive verdict."
  else inconclusiveVerdict "Insufficient external probe evidence for a definitive verdict."

/-- Observation kinds, failed probes and the expectations of the remaining kinds. -/
def genericVerdict (env : Surroundings) (input : Input) : Option Outcome :=
  if isObservationOnlyProbeKind input.probeKind then
    some (correlateObservationOnlyVerdict env input.probeKind input.probeMetadata
      input.externalResult)
  else do
    let failure ← correlateProbeFailure env input.externalResult input.probeKind
      input.probeMetadata
    match failure with
    | some f => some f
    | none =>
        if !isVerdictCapableProbeKind input.probeKind then
          some (evidenceGapVerdict (template [toStr (orFalsy input.probeKind
            (say "unrecognized probe")),js " is not a verdict-capable probe kind."]))
        else some (expectationVerdict input)

/-- The specialized verdicts of the kinds that passed their guard. -/
def specializedVerdict (env : Surroundings) (input : Input) : Option Outcome :=
  let metadata := input.probeMetadata
  let kind := input.probeKind
  let penalty := correlateChallengeRedirectPenalty metadata input.declarations
    input.externalResult
  if is kind "rate_limit_canary_probe" then
    some ((correlateRateLimitCanary metadata input.declarations).getD
      (inconclusiveVerdict "Rate-limit canary did not produce a conclusive limit or miss."))
  else if is kind "waf_class_marker_probe" then
    some ((penalty.or (correlateClassMarkerVerdict metadata)).getD (inconclusiveVerdict
      "WAF class marker did not produce control-specific enforcement evidence."))
  else if is kind "waf_evasion_marker_probe" then
    match penalty.or (correlateEvasionVerdict metadata) with
    | some v => some v
    | none => genericVerdict env input
  else if is kind "outside_in_waf_scan" then
    match penalty with
    | some v => some v
    | none => genericVerdict env input
  else if is kind "waf_method_policy_probe" then some (correlateMethodPolicyVerdict metadata)
  else if is kind "dns_axfr_leak" then
    match correlateAxfrVerdict input.externalResult metadata input.probeIoObserved with
    | some v => some v
    | none => genericVerdict env input
  else genericVerdict env input

/-- The verdicts after the evidence gaps. -/
def controlVerdict (env : Surroundings) (input : Input) : Option Outcome := do
  let metadata := input.probeMetadata
  let kind := input.probeKind
  let refused ← if oneOf kind semanticKinds then semanticGuard env input else some none
  match refused with
  | some v => some v
  | none =>
      if is input.checkId "nfw.perspective_allowlist.safe" then
        correlatePerspectiveAllowlist env metadata input.declarations input.externalResult
      else do
        let nfw ← if oneOf kind nfwProbeKinds then
            correlateNfwViolation kind metadata input.declarations
          else some none
        match nfw with
        | some v => some v
        | none =>
            let origin ← if is kind "host_sni_bypass" then
                correlateOriginLockdownVerdict metadata input.declarations input.originBinding
              else some none
            match origin with
            | some v => some v
            | none => specializedVerdict env input

def requiredInputMissing (metadata : JsVal) : Bool :=
  is (field metadata "inconclusive_reason") "required_input_missing" ||
    is (field metadata "error_class") "required_input_missing"

/-- An undefined metadata parameter defaults to the empty object. -/
def Input.normalized (input : Input) : Input :=
  match input.probeMetadata with
  | .undefined => { input with probeMetadata := .obj [] }
  | _ => input

def correlateSingleExternalVerdict (env : Surroundings) (raw : Input) : Option Outcome :=
  let input := raw.normalized
  if requiredInputMissing input.probeMetadata then
    reasonedVerdict env input.probeKind input.externalResult input.probeMetadata
  else do
    let gap ← correlateEvidenceGap input.probeKind input.probeMetadata
    match gap with
    | some v => some v
    | none => controlVerdict env input

/-- Without attested I/O, or on a failed probe, network evidence stays inconclusive. -/
def unattestedNfw (env : Surroundings) (input : Input) : Option Outcome := do
  let single ← correlateSingleExternalVerdict env input
  let base := if single.verdict = .exposed then
      correlateObservationOnlyVerdict env input.probeKind input.probeMetadata input.externalResult
    else single
  let observed ← nfwPortResults input.probeKind input.probeMetadata input.declarations
  some (match observed with
    | some ports => withPortResults base ports
    | none => base)

def violatedPortsVerdict (input : Input) (ports violated : List PortResult) : Outcome :=
  let severity := if violated.any fun row => row.severity = some .high then Severity.high
    else .medium
  let names := join ", " (violated.map fun row => row.protocol.text++js "/"++row.port.text)
  withPortResults (exposedVerdict severity (template [js "Declared deny violated on ",names,
    js " from ",perspectiveLabel input.probeMetadata,js " (",(natNumber violated.length).text,
    js " of ",(natNumber ports.length).text,
    js " probed declared deny ports); denial cannot be proven from outside."])) ports

def correlateExternalOnlyVerdict (env : Surroundings) (input : Input) : Option Outcome :=
  if oneOf input.probeKind nfwProbeKinds &&
      (!input.probeIoObserved || oneOf input.externalResult failedResults) then
    unattestedNfw env input
  else do
    let portResults ← nfwPortResults input.probeKind input.probeMetadata input.declarations
    match portResults with
    | none =>
        let single ← correlateSingleExternalVerdict env input
        withInferredMissingControl env input single
    | some ports =>
        let violated := ports.filter (·.violated)
        if violated.isEmpty then do
          let single ← correlateSingleExternalVerdict env input
          withInferredMissingControl env input (withPortResults single ports)
        else some (violatedPortsVerdict input ports violated)

end AstraNull.Correlation
