import Mathlib
import AstraNull.ScriptObject
import AstraNull.ProbeEndpoint

/-!
# Probe profiles

`buildProbeProfile` of `contracts/checks.mjs` and the merges of `probeJobs.mjs` that
combine a catalog profile, a request override and the metadata of a target. Objects
are values of the language; an exception is an error with its message.

The version test, lower case and the address parser belong to the platform. Lower
case is idempotent and leaves a trailing point alone.
-/
namespace AstraNull.ProbeProfile
open JsonText ScriptText ScriptValue ScriptObject IpText ProbeEndpoint

structure Platform where
  net : NetIsIP
  toLowerCase : JsString → JsString
  lower_idem : ∀ s,toLowerCase (toLowerCase s) = toLowerCase s
  lower_dot : ∀ s,toLowerCase (s++[46]) = toLowerCase s++[46]
  /-- The host of an absolute address, nothing when it does not parse. -/
  urlHostname : JsString → Option JsString
  /-- Origin and path of an address relative to the probe base. -/
  urlPath : JsString → Option (JsString × JsString)

/-- A result, or the message of an exception. -/
abbrev Throws (α : Type) := Except JsString α

/-- A small integer literal. -/
def numeral (k : ℕ) : JsVal := .num ((NumberText.Number.ofDecimal false k).getD .zero)

def isString : JsVal → Bool
  | .str _ => true
  | _ => false

def isBoolean : JsVal → Bool
  | .bool _ => true
  | _ => false

/-- An object that is not an array. -/
def isRecord : JsVal → Bool
  | .obj _ => true
  | _ => false

/-- An integer between two bounds. -/
def integerIn (v : JsVal) (lo hi : ℕ) : Bool :=
  match v with
  | .num n => (rational n).den = 1 && (lo : ℚ) ≤ rational n && rational n ≤ hi
  | _ => false

def includes (s : JsString) (part : String) : Bool := js part <:+: s

def startsWith (s : JsString) (part : String) : Bool := (js part).isPrefixOf s

def allowedProbeKinds : List String :=
  ["http_head","tcp_connect","dns_resolve","metadata_marker","udp_probe","quic_reachability",
    "alert_webhook_ping","ops_readiness","ownership_challenge","tls_session","http2_settings",
    "origin_leak_scan","origin_identity_pair","host_sni_bypass","port_scan_bounded",
    "rate_limit_sequence","waf_enforcement_probe","dnssec_posture","dns_open_recursion",
    "dns_failover_posture","dns_axfr_leak","tls_audit","cache_abuse_probe","api_surface_scan",
    "cors_posture_probe","bot_challenge_probe","graphql_posture_probe",
    "websocket_upgrade_posture","outside_in_waf_scan","waf_fingerprint_observation",
    "grpc_reflection_probe","reflection_service_probe","dns_wire_query","http_method_matrix",
    "header_size_probe","slow_header_probe","http2_frame_probe","http3_control_probe",
    "waf_inspection_limit_probe","waf_class_marker_probe","waf_evasion_marker_probe",
    "l7_resource_posture_probe","connection_limit_probe","waf_method_policy_probe",
    "rate_limit_canary_probe"]

def maxRequestsByProbeKind : List (String × ℕ) :=
  [("quic_reachability",1),("origin_leak_scan",15),("host_sni_bypass",1),
    ("origin_identity_pair",2),("port_scan_bounded",15),("rate_limit_sequence",5),
    ("waf_enforcement_probe",1),("dnssec_posture",2),("dns_open_recursion",1),
    ("dns_failover_posture",3),("dns_axfr_leak",5),("tls_audit",1),("cache_abuse_probe",3),
    ("api_surface_scan",8),("cors_posture_probe",1),("bot_challenge_probe",1),
    ("graphql_posture_probe",1),("websocket_upgrade_posture",1),("outside_in_waf_scan",16),
    ("grpc_reflection_probe",1),("reflection_service_probe",4),("dns_wire_query",3),
    ("http_method_matrix",2),("header_size_probe",2),("slow_header_probe",1),
    ("http2_frame_probe",4),("http3_control_probe",1),("waf_inspection_limit_probe",6),
    ("waf_class_marker_probe",8),("waf_evasion_marker_probe",8),
    ("l7_resource_posture_probe",3),("connection_limit_probe",12),
    ("waf_method_policy_probe",8),("rate_limit_canary_probe",8),("tcp_connect",2),
    ("udp_probe",2)]

def maxProbeRequestsForKind (kind : JsVal) : ℕ :=
  ((maxRequestsByProbeKind.find? fun p => is kind p.1).map Prod.snd).getD 10

def allowedPayloadProfiles : List String :=
  ["ssdp_msearch","snmp_v2c_get_sysdescr","mdns_ptr_query","netbios_nbstat",
    "ws_discovery_probe","chargen_trigger","coap_get_wellknown","stun_binding_request",
    "ipmi_rmcp_ping","mssql_resolution_request","tftp_read_request","sip_options",
    "rdp_udp_syn","memcached_udp_stats","dtls_client_hello","portmap_dump",
    "ntp_mode6_readvar","cldap_root_dse","openvpn_reset","jenkins_discovery",
    "rip_v1_request","generic_probe","slp_srvrqst","tp240_status_request","l2tp_sccrq",
    "natpmp_external_address","ipp_get_printer_attributes"]

def observationOnlyProbeKinds : List String :=
  ["metadata_marker","not_run","http_head","tcp_connect","dns_resolve","dns_wire_query",
    "udp_probe","quic_reachability","alert_webhook_ping","ownership_challenge","tls_session",
    "http2_settings","websocket_upgrade_posture","http_method_matrix","http3_control_probe",
    "waf_fingerprint_observation","rate_limit_sequence","waf_enforcement_probe",
    "dnssec_posture","dns_open_recursion","dns_failover_posture","tls_audit",
    "cache_abuse_probe","api_surface_scan","cors_posture_probe","bot_challenge_probe",
    "graphql_posture_probe","grpc_reflection_probe","reflection_service_probe",
    "header_size_probe","slow_header_probe","http2_frame_probe","waf_inspection_limit_probe",
    "l7_resource_posture_probe","host_sni_bypass","origin_identity_pair","origin_leak_scan",
    "port_scan_bounded","connection_limit_probe","waf_method_policy_probe"]

def supportedEvasionTransforms : List String :=
  ["double_url","mixed_url","unicode_normalization","homoglyph","overlong_utf8",
    "html_entity","js_escape","css_escape","base64_wrap","numeric_repr","whitespace",
    "case_fold","control_char","parser_hpp","parameter_location","benign_padding"]

def collectKeys : List String :=
  ["status_code","server_header","waf_product_hint","marker_probes","posture_status",
    "posture_label","origin_bypass_confirmed","evasion_bypass_suspected"]

def capabilityProfilePassthroughKeys : List String :=
  ["protected_host","direct_ip","resolver_host","recursion_test_name",
    "secondary_nameservers","ports","declared_ports","paths","graphql_path","grpc_path",
    "zone","use_https","waf_required","expected_vendor_hint","probe_path",
    "payload_profiles","transform"]

def wafSafeProbeMetadataKeys : List String :=
  ["scenario_family","marker_type","expected_action","nonce_hash_only","collect"]

section Build
variable (pl : Platform)

def normalizeProbeHttpPath (value : JsVal) : Option JsString :=
  match value with
  | .str s =>
      let candidate := trim s
      if candidate = [] ∨ 256 < candidate.length ∨ startsWith candidate "/" = false ∨
          startsWith candidate "//" ∨ includes candidate "\\" ∨ includes candidate "@" ∨
          includes candidate "?" ∨ includes candidate "#" ∨ includes candidate "://" ∨
          candidate.any (fun u => u.toNat ≤ 0x20 || u.toNat = 0x7f) then none
      else match pl.urlPath candidate with
        | some (origin,pathname) =>
            if origin = js "https://probe.invalid" ∧ pathname = candidate then some candidate
            else none
        | none => none
  | _ => none

/-- Between one and forty lowercase letters, digits and underscores. -/
def safeMarkerToken (v : JsVal) : Bool :=
  match v with
  | .str s => 1 ≤ s.length && s.length ≤ 40 && s.all fun u =>
      (97 ≤ u.toNat && u.toNat ≤ 122) || (48 ≤ u.toNat && u.toNat ≤ 57) || u.toNat = 95
  | _ => false

/-- A lowercase version text of at most eighty characters. -/
def semanticVersion (v : JsVal) : Bool :=
  match v with
  | .str [] => false
  | .str (u::us) => us.length ≤ 79 &&
      ((97 ≤ u.toNat && u.toNat ≤ 122) || (48 ≤ u.toNat && u.toNat ≤ 57)) &&
      us.all fun u => (97 ≤ u.toNat && u.toNat ≤ 122) || (48 ≤ u.toNat && u.toNat ≤ 57) ||
        u.toNat = 46 || u.toNat = 95 || u.toNat = 45
  | _ => false

/-- A positive safe integer, or absent so that the default applies. -/
def budgetOk (v : JsVal) : Bool := v.isUndefined || (isSafeInteger v && positive v)

/-- A number between bounds, the default when it is absent. -/
def capped (v : JsVal) (default lo hi : ℕ) : JsVal :=
  match v with
  | .num n => if rational n < lo then numeral lo else if hi < rational n then numeral hi else v
  | _ => numeral (min default hi)

/-- Distinct elements in the order of their first occurrence. -/
def dedupe : List JsVal → List JsVal
  | [] => []
  | v::vs => v::(dedupe vs).filter fun w => !strictEq w v

def unsupportedDelivery (kind fields : JsVal) : Bool :=
  (is kind "waf_evasion_marker_probe" &&
    !oneOf (field fields "evasion_transform") supportedEvasionTransforms) ||
  (is kind "reflection_service_probe" &&
    is (field fields "payload_profile") "ipp_get_printer_attributes") ||
  is kind "waf_inspection_limit_probe" ||
  (is kind "l7_resource_posture_probe" &&
    is (field fields "marker_class") "declared_content_encoding")

def semanticVersionKeys : List String := ["scenario_version","classifier_version"]

def semanticFlagKeys : List String :=
  ["observation_only","readiness_conclusion","delivery_supported","requires_complete_comparison"]

/-- The writes of a profile before its capability fields, in order. -/
def profileSteps (fields : JsVal) : List (String × Bool × JsVal) :=
  let kind := field fields "kind"
  let get := field fields
  let kinds := oneOf kind
  let entryPath := kinds ["waf_class_marker_probe","waf_evasion_marker_probe"] &&
    oneOf (get "entry_path_scenario") ["declared_login_path","declared_api_path"]
  let observationOnly := kinds observationOnlyProbeKinds || unsupportedDelivery kind fields
  let collect := dedupe ((elements (get "collect")).filter fun v => oneOf v collectKeys)
  [("kind",true,kind),
    ("max_requests",true,capped (get "max_requests") 1 1 (maxProbeRequestsForKind kind)),
    ("timeout_ms",true,capped (get "timeout_ms") 5000 100 5000),
    ("marker",truthy (get "marker"),.str (slice (toStr (get "marker")) 128)),
    ("method",is kind "http_head",.str (js "HEAD")),
    ("service_port",integerIn (get "service_port") 1 65535,get "service_port"),
    ("default_port",integerIn (get "default_port") 1 65535,get "default_port"),
    ("port",integerIn (get "port") 1 65535,get "port"),
    ("address_family",oneOf (get "address_family") ["ipv4","ipv6","both","any"],
      get "address_family"),
    ("assurance_scope",oneOf (get "assurance_scope") ["custom_canary_rule","managed_rule_marker"],
      get "assurance_scope"),
    ("payload_profile",oneOf (get "payload_profile") allowedPayloadProfiles,
      get "payload_profile"),
    ("expected_response_shape",oneOf (get "expected_response_shape")
      ["none","service_banner","amplifying_response","error_response"],
      get "expected_response_shape"),
    ("http_method",kinds ["rate_limit_sequence","header_size_probe","slow_header_probe",
      "waf_inspection_limit_probe"] && oneOf (get "http_method") ["GET","HEAD","OPTIONS","POST"],
      get "http_method"),
    ("dns_qtype",is kind "dns_wire_query" && oneOf (get "dns_qtype")
      ["A","AAAA","ANY","TXT","NS","SOA","MX","DNSKEY","CNAME","PTR","SRV"],get "dns_qtype"),
    ("dns_transport",is kind "dns_wire_query" &&
      oneOf (get "dns_transport") ["udp","tcp","auto"],get "dns_transport"),
    ("oversize_header_bytes",is kind "header_size_probe" &&
      integerIn (get "oversize_header_bytes") 1024 16384,get "oversize_header_bytes"),
    ("scenario",is kind "ops_readiness" &&
      oneOf (get "scenario") ["runbook_contacts","kill_switch_readiness"],get "scenario"),
    ("marker_class",kinds ["waf_class_marker_probe","waf_evasion_marker_probe",
      "l7_resource_posture_probe"] && safeMarkerToken (get "marker_class"),get "marker_class"),
    ("evasion_transform",is kind "waf_evasion_marker_probe" &&
      safeMarkerToken (get "evasion_transform"),get "evasion_transform"),
    ("entry_path_scenario",entryPath,get "entry_path_scenario"),
    ("permitted_baseline",entryPath && is kind "waf_evasion_marker_probe",.bool true),
    ("permitted_baseline",is kind "waf_evasion_marker_probe" &&
      isTrue (get "permitted_baseline"),.bool true),
    ("settings_assertion",is kind "http2_frame_probe" &&
      oneOf (get "settings_assertion") ["hpack_limits"],get "settings_assertion")]++
  ((semanticVersionKeys++semanticFlagKeys).map fun key => (key,!nullish (get key),get key))++
  [("observation_only",observationOnly,.bool true),
    ("readiness_conclusion",observationOnly,.bool false),
    ("delivery_supported",unsupportedDelivery kind fields,.bool false),
    ("requires_complete_comparison",kinds ["waf_class_marker_probe","waf_evasion_marker_probe",
      "outside_in_waf_scan"] && !unsupportedDelivery kind fields,.bool true),
    ("scenario_family",oneOf (get "scenario_family")
      ["marker","fingerprint","origin_bypass","rate_limit_marker"],get "scenario_family"),
    ("marker_type",oneOf (get "marker_type") ["header","path","query","user_agent"],
      get "marker_type"),
    ("expected_action",oneOf (get "expected_action")
      ["block","challenge","rate_limit","log_only_expected","allow_expected"],
      get "expected_action"),
    ("nonce_hash_only",isTrue (get "nonce_hash_only"),.bool true),
    ("collect",isArray (get "collect") && !collect.isEmpty,.arr (collect.take 8))]

/-- One field is copied into the profile, a path after normalisation. -/
def passField (fields profile : JsVal) (key : String) : Throws JsVal :=
  if nullish (field fields key) then .ok profile
  else if key ∈ ["graphql_path","grpc_path","probe_path"] then
    match normalizeProbeHttpPath pl (field fields key) with
    | some path => .ok (put profile key (.str path))
    | none => .error (js "invalid bounded probe path: "++js key)
  else .ok (put profile key (field fields key))

/-- The first refusal of the checks made before the capability fields. -/
def profileRefusal (fields : JsVal) : Option JsString :=
  let kind := field fields "kind"
  let get := field fields
  if !oneOf kind allowedProbeKinds then
    some (js "invalid probe profile kind: "++toStr kind)
  else if !budgetOk (get "max_requests") || !budgetOk (get "timeout_ms") then
    some (js "probe request budget and timeout must be positive integers")
  else if oneOf kind ["rate_limit_sequence","header_size_probe","slow_header_probe",
      "waf_inspection_limit_probe"] && is (get "http_method") "POST" then
    some (js ("POST probe profiles require an approved business-safe endpoint; "++
      "nonce_hash_only is not authorization"))
  else match semanticVersionKeys.find? fun key =>
      !nullish (get key) && !semanticVersion (get key) with
    | some key => some (js "invalid probe semantic version: "++js key)
    | none =>
        (semanticFlagKeys.find? fun key => !nullish (get key) && !isBoolean (get key)).map
          fun key => js "invalid probe semantic flag: "++js key

def buildProbeProfile (fields : JsVal) : Throws JsVal :=
  match profileRefusal fields with
  | some message => .error message
  | none => do
      let profile ← capabilityProfilePassthroughKeys.foldlM (passField pl fields)
        (applySteps (profileSteps fields) (.obj []))
      .ok (if oneOf (field fields "kind") ["outside_in_waf_scan","waf_fingerprint_observation"]
        then put profile "follow_redirects" (.bool false) else profile)

def riskyAdminPorts : List ℕ := [21,22,23,25,53,80,110,143,443,445,3389,5432,6379,8080,8443]

def apiDocPaths : List String :=
  ["/swagger.json","/openapi.json","/api-docs","/v3/api-docs","/graphql","/.well-known/openapi"]

def capabilityArrayOverrideKeys : List String := ["ports","paths","secondary_nameservers","collect"]

def hostShapedOverrideKeys : List String :=
  ["resolver_host","direct_ip","scan_host","secondary_nameservers"]

def benignProbeProfileOverrideKeys : List String :=
  "marker"::(wafSafeProbeMetadataKeys++capabilityProfilePassthroughKeys)

/-- The version of an address text; a text with other characters is none. -/
def isIP (s : JsString) : ℕ := pl.net.isIP (chars s)

/-- A letter or digit, then at most sixty-one characters and a letter or digit. -/
def hostnameLabel (label : JsString) : Bool :=
  let alnum := fun u : UInt16 =>
    (97 ≤ u.toNat && u.toNat ≤ 122) || (48 ≤ u.toNat && u.toNat ≤ 57)
  1 ≤ label.length && label.length ≤ 63 && label.head?.any alnum && label.getLast?.any alnum &&
    label.all fun u => alnum u || u.toNat = 45

/-- One trailing point is left out. -/
def dropDot (s : JsString) : JsString := if s.getLast? = some 46 then s.dropLast else s

def isHostShapedValueSafe (value : JsVal) : Bool :=
  match value with
  | .str s =>
      let candidate := trim s
      if candidate = [] ∨ 253 < candidate.length then false
      else if isIP pl candidate ≠ 0 then
        (assertProbeDestinationAllowed pl.net (chars candidate) {}).isOk
      else
        let hostname := dropDot (pl.toLowerCase candidate)
        if hostname = [] ∨ includes hostname "://" ∨ includes hostname "@" ∨
            includes hostname "/" ∨ includes hostname ":" ∨
            hostname.any (fun u => isWhiteSpace u.toNat) then false
        else (hostname.splitOn 46).all hostnameLabel
  | _ => false

def safePortOverride (entry : JsVal) : Option JsVal :=
  let port := match entry with
    | .num n => Numeric.finite n
    | v => numberOfString (trim (toStr v))
  match port with
  | .finite n => if riskyAdminPorts.any fun p => rational n = p then some (.num n) else none
  | _ => none

def filterArrayOverride (key : String) (raw : List JsVal) : Option (List JsVal) :=
  let values :=
    if key = "ports" then raw.filterMap safePortOverride
    else if key = "paths" then
      ((raw.filter isString).map fun v => JsVal.str (trim (toStr v))).filter
        fun v => oneOf v apiDocPaths
    else if key ∈ hostShapedOverrideKeys then
      (raw.filter (isHostShapedValueSafe pl)).map fun v => JsVal.str (trim (toStr v))
    else
      (raw.map fun v => match v with
        | .num n => JsVal.num n
        | v => .str (trim (toStr v))).filter fun v => !is v ""
  let bounded := (dedupe values).take 16
  if bounded = [] then none else some bounded

/-- A destination of the request that the merge takes over. -/
def hostOverride (key : String) (value : JsVal) : Option JsString :=
  if key = "direct_ip" ∧ ¬ (isString value = true ∧ isIP pl (trim (toStr value)) ≠ 0) then none
  else if isHostShapedValueSafe pl value then some (slice (trim (toStr value)) 128)
  else none

def mergeCapabilityOverride (merged : JsVal) (key : String) (override : JsVal) : JsVal :=
  let value := field override key
  if key = "nonce_hash_only" then
    if isTrue value then put merged key (.bool true) else merged
  else if key ∈ capabilityArrayOverrideKeys then
    match value with
    | .arr raw =>
        match filterArrayOverride pl key raw with
        | some values => put merged key (.arr values)
        | none => merged
    | _ => merged
  else if key = "use_https" then
    if isBoolean value then put merged key value else merged
  else if key = "graphql_path" ∨ key = "grpc_path" then
    match normalizeProbeHttpPath pl value with
    | some path => put merged key (.str path)
    | none => merged
  else if nullish value then merged
  else if key ∈ hostShapedOverrideKeys then
    match hostOverride pl key value with
    | some host => put merged key (.str host)
    | none => merged
  else put merged key (.str (slice (toStr value) 128))

def resolveJobProbeProfile (check override : JsVal) : Throws JsVal := do
  let base ← if truthy (field check "probe_profile") then
      .ok (spread (field check "probe_profile"))
    else buildProbeProfile pl (.obj [(js "kind",.str (js "metadata_marker"))])
  if isRecord override then
    buildProbeProfile pl (benignProbeProfileOverrideKeys.foldl
      (fun merged key => mergeCapabilityOverride pl merged key override) (spread base))
  else .ok base

/-- The metadata of a target, when it is an object. -/
def targetMetadata (target : JsVal) : Option JsVal :=
  let raw := orElse (field target "metadata_json") (field target "metadata")
  if isRecord raw then some raw else none

/-- The declared origin address stands in for a missing direct address. -/
def aliasDirectIp (merged raw : JsVal) : JsVal :=
  if nullish (field merged "direct_ip") then
    match field raw "direct_origin_ip" with
    | .str s => if trim s = [] then merged else put merged "direct_ip" (.str (slice (trim s) 128))
    | _ => merged
  else merged

/-- A missing field is taken from the metadata. -/
def fillFromMetadata (raw merged : JsVal) (key : String) : JsVal :=
  if nullish (field merged key) && !nullish (field raw key) then
    mergeCapabilityOverride pl merged key raw
  else merged

def enrichProbeProfileFromTarget (profile target : JsVal) : Throws JsVal :=
  match targetMetadata target with
  | none => .ok profile
  | some raw => buildProbeProfile pl (capabilityProfilePassthroughKeys.foldl
      (fillFromMetadata pl raw) (aliasDirectIp (spread profile) raw))

end Build

section Spec
variable {pl : Platform}

/-- The destinations that a profile carries. -/
def carriedKeys : List String :=
  ["direct_ip","resolver_host","zone","recursion_test_name","secondary_nameservers"]

/-- A value, absent when it is nullish. -/
def present (v : JsVal) : JsVal := if nullish v then .undefined else v

theorem present_of_some {v : JsVal} (h : nullish v = false) : present v = v := by
  rw [present,h]
  rfl

theorem present_of_none {v : JsVal} (h : nullish v = true) : present v = .undefined := by
  rw [present,h]
  rfl

theorem nullish_present (v : JsVal) : nullish (present v) = nullish v := by
  cases v <;> rfl

theorem present_present (v : JsVal) : present (present v) = present v := by
  cases v <;> rfl

theorem carried_pass {key : String} (h : key ∈ carriedKeys) :
    key ∈ capabilityProfilePassthroughKeys ∧ key ∉ ["graphql_path","grpc_path","probe_path"] ∧
      (∀ k ∈ benignProbeProfileOverrideKeys,k ≠ key → js key ≠ js k) := by
  revert key
  decide

theorem carried_benign {key : String} (h : key ∈ carriedKeys) :
    key ∈ benignProbeProfileOverrideKeys :=
  List.mem_cons_of_mem _ (List.mem_append_right _ (carried_pass h).1)

theorem profileSteps_names (fields : JsVal) :
    (profileSteps fields).map Prod.fst = (profileSteps .undefined).map Prod.fst := rfl

theorem steps_other {key : String} (h : key ∈ carriedKeys ∨ key = "scan_host") (fields : JsVal) :
    field (applySteps (profileSteps fields) (.obj [])) key = .undefined := by
  have hconst : ∀ name ∈ (profileSteps .undefined).map Prod.fst,js key ≠ js name := by
    have : ∀ key ∈ "scan_host"::carriedKeys,
        ∀ name ∈ (profileSteps .undefined).map Prod.fst,js key ≠ js name := by decide +kernel
    refine this key ?_
    rcases h with h | rfl
    · exact List.mem_cons_of_mem _ h
    · exact List.mem_cons_self
  rw [field_applySteps]
  · rfl
  · intro step hstep
    refine hconst _ ?_
    rw [← profileSteps_names fields]
    exact List.mem_map.mpr ⟨step,hstep,rfl⟩

theorem passField_other {fields v w : JsVal} {key k : String} (hk : js key ≠ js k)
    (h : passField pl fields v k = .ok w) : field w key = field v key := by
  unfold passField at h
  split_ifs at h
  · cases h
    rfl
  · cases hpath : normalizeProbeHttpPath pl (field fields k) with
    | none =>
        rw [hpath] at h
        cases h
    | some path =>
        rw [hpath] at h
        cases h
        exact field_put_other hk
  · cases h
    exact field_put_other hk

/-- What a profile was built from. -/
theorem build_cases {fields q : JsVal} (h : buildProbeProfile pl fields = .ok q) :
    ∃ w,capabilityProfilePassthroughKeys.foldlM (passField pl fields)
      (applySteps (profileSteps fields) (.obj [])) = .ok w ∧
      (q = w ∨ q = put w "follow_redirects" (.bool false)) := by
  unfold buildProbeProfile at h
  cases hrefusal : profileRefusal fields with
  | some message =>
      rw [hrefusal] at h
      cases h
  | none =>
      rw [hrefusal] at h
      cases hfold : capabilityProfilePassthroughKeys.foldlM (passField pl fields)
          (applySteps (profileSteps fields) (.obj [])) with
      | error e =>
          rw [hfold] at h
          cases h
      | ok w =>
          rw [hfold] at h
          cases h
          refine ⟨w,rfl,?_⟩
          split_ifs
          · exact Or.inr rfl
          · exact Or.inl rfl

theorem exists_numeral {k : ℕ} (h0 : 0 < k) (hk : k < 2^53) : ∃ x : NumberText.Magnitude,
    rational (.nonzero false x) = k ∧ numeral k = .num (.nonzero false x) := by
  obtain ⟨x,hx,hof⟩ := NumberText.Number.exists_natural h0 hk
  exact ⟨x,hx,by rw [numeral,hof]; rfl⟩

theorem integerIn_numeral {k lo hi : ℕ} (h0 : 0 < k) (hk : k < 2^53) (hlo : lo ≤ k)
    (hhi : k ≤ hi) : integerIn (numeral k) lo hi = true := by
  obtain ⟨x,hvalue,hx⟩ := exists_numeral h0 hk
  rw [hx]
  simp [integerIn,hvalue,hlo,hhi]

theorem budgetOk_numeral {k : ℕ} (h0 : 0 < k) (hk : k < 2^53) : budgetOk (numeral k) = true := by
  obtain ⟨x,hvalue,hx⟩ := exists_numeral h0 hk
  have hsafe : (k : ℚ) ≤ maxSafeInteger := by
    rw [maxSafeInteger]
    have : (k : ℚ)+1 ≤ 2^53 := by exact_mod_cast hk
    linarith
  have hpos : (0 : ℚ) < k := by exact_mod_cast h0
  rw [hx]
  simp [budgetOk,isSafeInteger,positive,hvalue,hsafe,hpos]

/-- The fields the checks before the capability fields look at. -/
def checkedKeys : List String :=
  "kind"::"max_requests"::"timeout_ms"::"http_method"::(semanticVersionKeys++semanticFlagKeys)

theorem profileRefusal_congr {p q : JsVal} (h : ∀ key ∈ checkedKeys,field p key = field q key) :
    profileRefusal p = profileRefusal q := by
  unfold profileRefusal
  have hversion : ∀ key ∈ semanticVersionKeys,field p key = field q key :=
    fun key hk => h key (by simp [checkedKeys,hk])
  have hflag : ∀ key ∈ semanticFlagKeys,field p key = field q key :=
    fun key hk => h key (by simp [checkedKeys,hk])
  simp only [h "kind" (by decide),h "max_requests" (by decide),h "timeout_ms" (by decide),
    h "http_method" (by decide),
    List.find?_congr (fun key hk => by rw [hversion key hk] :
      ∀ key ∈ semanticVersionKeys,(!nullish (field p key) && !semanticVersion (field p key)) =
        (!nullish (field q key) && !semanticVersion (field q key))),
    List.find?_congr (fun key hk => by rw [hflag key hk] :
      ∀ key ∈ semanticFlagKeys,(!nullish (field p key) && !isBoolean (field p key)) =
        (!nullish (field q key) && !isBoolean (field q key)))]

/-- A profile without paths is built when no check refuses it. -/
theorem build_ok {fields : JsVal} (hrefusal : profileRefusal fields = none)
    (hpaths : ∀ key ∈ ["graphql_path","grpc_path","probe_path"],
      nullish (field fields key) = true) : ∃ q,buildProbeProfile pl fields = .ok q := by
  have hfold : ∀ (keys : List String) (v : JsVal),
      ∃ w,keys.foldlM (passField pl fields) v = .ok w := by
    intro keys
    induction keys with
    | nil => exact fun v => ⟨v,rfl⟩
    | cons key keys ih =>
        intro v
        have hstep : ∃ w,passField pl fields v key = .ok w := by
          unfold passField
          split_ifs with hn hp
          · exact ⟨_,rfl⟩
          · exact absurd (hpaths key hp) hn
          · exact ⟨_,rfl⟩
        obtain ⟨w,hw⟩ := hstep
        obtain ⟨u,hu⟩ := ih w
        exact ⟨u,by rw [List.foldlM_cons,hw]; exact hu⟩
  obtain ⟨w,hw⟩ := hfold capabilityProfilePassthroughKeys
    (applySteps (profileSteps fields) (.obj []))
  unfold buildProbeProfile
  rw [hrefusal,hw]
  exact ⟨_,rfl⟩

/-- A profile carries the destinations it was built from. -/
theorem build_field {fields q : JsVal} {key : String} (hkey : key ∈ carriedKeys)
    (h : buildProbeProfile pl fields = .ok q) : field q key = present (field fields key) := by
  obtain ⟨hmem,hpath,hother⟩ := carried_pass hkey
  obtain ⟨w,hfold,hq⟩ := build_cases h
  have hq : field q key = field w key := by
    rcases hq with rfl | rfl
    · rfl
    · refine field_put_other ?_
      revert key
      decide +kernel
  have hbenign : ∀ k ∈ capabilityProfilePassthroughKeys,k ∈ benignProbeProfileOverrideKeys := by
    decide +kernel
  obtain ⟨v',w',hv,hpass,hw⟩ := field_foldlM (by decide) hmem
    (fun k hk hne _ _ => passField_other (hother k (hbenign k hk) hne)) hfold
  rw [steps_other (Or.inl hkey)] at hv
  rw [hq,hw]
  unfold passField at hpass
  rw [if_neg hpath] at hpass
  split_ifs at hpass with hn
  · cases hpass
    rw [hv,present_of_none hn]
  · cases hpass
    rw [field_put_self,present_of_some (by simpa using hn)]

/-- A profile never carries a scan host. -/
theorem build_scan_host {fields q : JsVal} (h : buildProbeProfile pl fields = .ok q) :
    field q "scan_host" = .undefined := by
  obtain ⟨w,hfold,hq⟩ := build_cases h
  have hother : ∀ k ∈ capabilityProfilePassthroughKeys,js "scan_host" ≠ js k := by
    decide +kernel
  have hw : field w "scan_host" = field _ "scan_host" :=
    field_foldlM_other (fun k hk _ _ => passField_other (hother k hk)) hfold
  rw [steps_other (Or.inr rfl)] at hw
  rcases hq with rfl | rfl
  · exact hw
  · rw [field_put_other (by decide),hw]

theorem merge_other {merged override : JsVal} {key k : String} (hk : js key ≠ js k) :
    field (mergeCapabilityOverride pl merged k override) key = field merged key := by
  unfold mergeCapabilityOverride
  have hput : ∀ x,field (put merged k x) key = field merged key := fun _ => field_put_other hk
  simp only
  split_ifs <;> first | exact hput _ | rfl | (split <;> first | exact hput _ | rfl | skip)
  split <;> first | exact hput _ | rfl

/-- A key that the request leaves out changes nothing. -/
theorem merge_nullish {merged override : JsVal} {key : String}
    (h : nullish (field override key) = true) :
    mergeCapabilityOverride pl merged key override = merged := by
  have hvalue : field override key = .undefined ∨ field override key = .null := by
    cases hv : field override key with
    | undefined => exact Or.inl rfl
    | null => exact Or.inr rfl
    | _ =>
        rw [hv] at h
        cases h
  unfold mergeCapabilityOverride
  rcases hvalue with hv | hv
  · simp only [hv,nullish,ScriptValue.isTrue,isBoolean,Bool.false_eq_true,if_true,if_false]
    split_ifs <;> rfl
  · simp only [hv,nullish,ScriptValue.isTrue,isBoolean,Bool.false_eq_true,if_true,if_false]
    split_ifs <;> rfl

def socketKeys : List String := ["direct_ip","resolver_host"]

def hostKeys : List String := ["zone","recursion_test_name"]

theorem socket_kinds {key : String} (h : key ∈ socketKeys) :
    key ≠ "nonce_hash_only" ∧ key ∉ capabilityArrayOverrideKeys ∧ key ≠ "use_https" ∧
      ¬ (key = "graphql_path" ∨ key = "grpc_path") ∧ key ∈ hostShapedOverrideKeys := by
  revert key
  decide

theorem host_kinds {key : String} (h : key ∈ hostKeys) :
    key ≠ "nonce_hash_only" ∧ key ∉ capabilityArrayOverrideKeys ∧ key ≠ "use_https" ∧
      ¬ (key = "graphql_path" ∨ key = "grpc_path") ∧ key ∉ hostShapedOverrideKeys := by
  revert key
  decide

theorem socket_carried {key : String} (h : key ∈ socketKeys) : key ∈ carriedKeys := by
  revert key
  decide

theorem host_carried {key : String} (h : key ∈ hostKeys) : key ∈ carriedKeys := by
  revert key
  decide

theorem hostOverride_nullish {key : String} {v : JsVal} (h : nullish v = true) :
    hostOverride pl key v = none := by
  unfold hostOverride
  have hsafe : isHostShapedValueSafe pl v = false := by
    cases v <;> first | rfl | cases h
  split_ifs with h1 h2
  · rfl
  · rw [hsafe] at h2
    cases h2
  · rfl

/-- A socket destination of the request replaces the merged one when it is safe. -/
theorem merge_socket {key : String} (hkey : key ∈ socketKeys) (merged override : JsVal) :
    field (mergeCapabilityOverride pl merged key override) key =
      ((hostOverride pl key (field override key)).map JsVal.str).getD (field merged key) := by
  obtain ⟨h1,h2,h3,h4,h5⟩ := socket_kinds hkey
  simp only [mergeCapabilityOverride,if_neg h1,if_neg h2,if_neg h3,if_neg h4,if_pos h5]
  cases hn : nullish (field override key) with
  | true => rw [if_pos rfl,hostOverride_nullish hn,Option.map_none,Option.getD_none]
  | false =>
      rw [if_neg Bool.false_ne_true]
      cases hostOverride pl key (field override key) with
      | none => rfl
      | some host => exact field_put_self _ _ _

/-- An unsafe socket destination of the request is dropped. -/
theorem merge_unsafe {key : String} (hkey : key ∈ socketKeys) {merged override : JsVal}
    (h : hostOverride pl key (field override key) = none) :
    mergeCapabilityOverride pl merged key override = merged := by
  obtain ⟨h1,h2,h3,h4,h5⟩ := socket_kinds hkey
  simp only [mergeCapabilityOverride,if_neg h1,if_neg h2,if_neg h3,if_neg h4,if_pos h5,h]
  split_ifs <;> rfl

/-- A host named by the request replaces the merged one, whatever it is. -/
theorem merge_host {key : String} (hkey : key ∈ hostKeys) {merged override : JsVal}
    (hn : nullish (field override key) = false) :
    field (mergeCapabilityOverride pl merged key override) key =
      .str (slice (toStr (field override key)) 128) := by
  obtain ⟨h1,h2,h3,h4,h5⟩ := host_kinds hkey
  simp only [mergeCapabilityOverride,if_neg h1,if_neg h2,if_neg h3,if_neg h4,if_neg h5,hn]
  exact field_put_self _ _ _

theorem merge_nameservers {merged override : JsVal} {raw values : List JsVal}
    (hraw : field override "secondary_nameservers" = .arr raw)
    (hvalues : filterArrayOverride pl "secondary_nameservers" raw = some values) :
    field (mergeCapabilityOverride pl merged "secondary_nameservers" override)
      "secondary_nameservers" = .arr values := by
  have h1 : ¬ "secondary_nameservers" = "nonce_hash_only" := by decide
  have h2 : "secondary_nameservers" ∈ capabilityArrayOverrideKeys := by decide
  simp only [mergeCapabilityOverride,if_neg h1,if_pos h2,hraw,hvalues]
  exact field_put_self _ _ _

def catalogField (check : JsVal) (key : String) : JsVal := field (field check "probe_profile") key

theorem field_falsy {v : JsVal} (h : truthy v = false) (key : String) :
    field v key = .undefined := by
  cases v <;> first | rfl | cases h

/-- A destination of the resolved profile: the catalog's, with the request merged in. -/
theorem resolve_field {check override r : JsVal} {key : String} (hkey : key ∈ carriedKeys)
    (h : resolveJobProbeProfile pl check override = .ok r) :
    ∃ m,present (field m key) = present (catalogField check key) ∧ present (field r key) =
      present (if isRecord override then
        field (mergeCapabilityOverride pl m key override) key else field m key) := by
  unfold resolveJobProbeProfile at h
  obtain ⟨base,hbase,h⟩ : ∃ base,present (field base key) = present (catalogField check key) ∧
      (if isRecord override then
        buildProbeProfile pl (benignProbeProfileOverrideKeys.foldl
          (fun merged key => mergeCapabilityOverride pl merged key override) (spread base))
      else .ok base) = .ok r := by
    cases ht : truthy (field check "probe_profile") with
    | true =>
        rw [ht] at h
        exact ⟨spread (field check "probe_profile"),by rw [field_spread]; rfl,h⟩
    | false =>
        rw [ht] at h
        cases hb : buildProbeProfile pl (.obj [(js "kind",.str (js "metadata_marker"))]) with
        | error e =>
            simp only [hb] at h
            cases h
        | ok base =>
            simp only [hb] at h
            refine ⟨base,?_,h⟩
            have hkind : js key ≠ js "kind" := by
              revert key
              decide
            have hmissing : field (.obj [(js "kind",.str (js "metadata_marker"))]) key =
                .undefined := by
              rw [field_obj,List.find?_cons_of_neg (by simpa using hkind.symm)]
              rfl
            rw [build_field hkey hb,catalogField,field_falsy ht,hmissing]
            rfl
  cases ho : isRecord override with
  | false =>
      rw [ho] at h
      cases h
      exact ⟨r,hbase,by rw [if_neg Bool.false_ne_true]⟩
  | true =>
      rw [ho,if_pos rfl] at h
      obtain ⟨_,_,hother⟩ := carried_pass hkey
      obtain ⟨m,hm,hfold⟩ := field_foldl (by decide) (carried_benign hkey)
        (fun k hk hne v => merge_other (hother k hk hne)) (spread base)
        (f := fun merged key => mergeCapabilityOverride pl merged key override)
      refine ⟨m,?_,?_⟩
      · rw [hm,field_spread,hbase]
      · rw [build_field hkey h,hfold,present_present,if_pos rfl]

theorem alias_keeps {merged raw : JsVal} {key : String} (hkey : key ∈ carriedKeys)
    (h : key = "direct_ip" → nullish (field merged key) = false) :
    field (aliasDirectIp merged raw) key = field merged key := by
  have hne : ∀ k ∈ carriedKeys,k ≠ "direct_ip" → js k ≠ js "direct_ip" := by
    decide +kernel
  unfold aliasDirectIp
  by_cases hd : key = "direct_ip"
  · subst hd
    rw [if_neg (by simp [h rfl])]
  · split_ifs
    · split
      · split_ifs
        · rfl
        · exact field_put_other (hne key hkey hd)
      · rfl
    · rfl

/-- A destination after the metadata was merged in. -/
theorem enrich_field {profile target raw e : JsVal} {key : String} (hkey : key ∈ carriedKeys)
    (hraw : targetMetadata target = some raw)
    (h : enrichProbeProfileFromTarget pl profile target = .ok e) :
    ∃ m,field m key = field (aliasDirectIp (spread profile) raw) key ∧
      field e key = present (field (fillFromMetadata pl raw m key) key) := by
  unfold enrichProbeProfileFromTarget at h
  rw [hraw] at h
  obtain ⟨hmem,_,hother⟩ := carried_pass hkey
  have hbenign : ∀ k ∈ capabilityProfilePassthroughKeys,k ∈ benignProbeProfileOverrideKeys := by
    decide
  obtain ⟨m,hm,hfold⟩ := field_foldl (by decide) hmem (fun k hk hne v => by
    unfold fillFromMetadata
    split_ifs
    · exact merge_other (hother k (hbenign k hk) hne)
    · rfl) (aliasDirectIp (spread profile) raw) (f := fillFromMetadata pl raw)
  exact ⟨m,hm,by rw [build_field hkey h,hfold]⟩

/-- The metadata never replaces a destination that is already there. -/
theorem enrich_keeps {profile target e : JsVal} {key : String} (hkey : key ∈ carriedKeys)
    (h : enrichProbeProfileFromTarget pl profile target = .ok e)
    (hn : nullish (field profile key) = false) : field e key = field profile key := by
  cases hraw : targetMetadata target with
  | none =>
      unfold enrichProbeProfileFromTarget at h
      rw [hraw] at h
      cases h
      rfl
  | some raw =>
      obtain ⟨m,hm,he⟩ := enrich_field hkey hraw h
      rw [alias_keeps hkey (by simp [hn]),field_spread] at hm
      rw [he,fillFromMetadata,hm,hn,if_neg (by simp),hm,present_of_some hn]

/-- The socket destination that the metadata of a target would supply. -/
def metadataDestination (pl : Platform) (target : JsVal) (key : String) : JsVal :=
  match targetMetadata target with
  | none => .undefined
  | some raw =>
      let filled := ((hostOverride pl key (field raw key)).map JsVal.str).getD .undefined
      if key = "direct_ip" then
        match field raw "direct_origin_ip" with
        | .str s => if trim s = [] then filled else .str (slice (trim s) 128)
        | _ => filled
      else filled

theorem fill_socket {raw m : JsVal} {key : String} (hkey : key ∈ socketKeys)
    (hn : nullish (field m key) = true) :
    present (field (fillFromMetadata pl raw m key) key) =
      ((hostOverride pl key (field raw key)).map JsVal.str).getD .undefined := by
  unfold fillFromMetadata
  rw [hn]
  cases hr : nullish (field raw key) with
  | true =>
      rw [if_neg (by simp),present_of_none hn,hostOverride_nullish hr]
      rfl
  | false =>
      rw [if_pos (by rfl),merge_socket hkey]
      cases hostOverride pl key (field raw key) with
      | none => exact present_of_none hn
      | some host => rfl

/-- A missing socket destination is taken from the metadata. -/
theorem enrich_socket {profile target e : JsVal} {key : String} (hkey : key ∈ socketKeys)
    (h : enrichProbeProfileFromTarget pl profile target = .ok e)
    (hn : nullish (field profile key) = true) :
    present (field e key) = metadataDestination pl target key := by
  have hcarried := socket_carried hkey
  unfold metadataDestination
  cases hraw : targetMetadata target with
  | none =>
      unfold enrichProbeProfileFromTarget at h
      rw [hraw] at h
      cases h
      exact present_of_none hn
  | some raw =>
      obtain ⟨m,hm,he⟩ := enrich_field hcarried hraw h
      rw [he,present_present]
      by_cases hd : key = "direct_ip"
      · subst hd
        simp only [if_true]
        rw [aliasDirectIp,field_spread,if_pos hn] at hm
        cases horigin : field raw "direct_origin_ip" with
        | str s =>
            simp only [horigin] at hm ⊢
            by_cases hs : trim s = []
            · rw [if_pos hs,field_spread] at hm
              rw [if_pos hs]
              exact fill_socket hkey (hm ▸ hn)
            · rw [if_neg hs,field_put_self] at hm
              rw [if_neg hs,fillFromMetadata,hm]
              simp only [nullish,Bool.false_and]
              rw [if_neg Bool.false_ne_true,hm]
              rfl
        | _ =>
            simp only [horigin,field_spread] at hm ⊢
            exact fill_socket hkey (hm ▸ hn)
      · rw [alias_keeps hcarried (fun h => absurd h hd),field_spread] at hm
        simp only [if_neg hd]
        exact fill_socket hkey (hm ▸ hn)

end Spec

end AstraNull.ProbeProfile
