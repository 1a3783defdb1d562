import Mathlib
import AstraNull.CanonicalEncoders
import AstraNull.ScriptObject

/-!
# Firewall observations

The observation records of `firewallChangeAcceptance.mjs`: the classes and denial bases the
classifier knows, the positional encoding a baseline is stored in, and the digest that guards
the stored records. An observation is given by the members the code reads; a member the object
does not have is undefined.
-/
namespace AstraNull.FirewallObservations
open JsonText CanonicalJson ScriptValue

/-- `FIREWALL_OBSERVATION_CLASSES`. -/
inductive ObservationClass
  | serviceResponseObserved
  | reachableTransportOnly
  | explicitDenialObserved
  | noResponse
  | transportError
  | udpSilence
  | notTested
deriving DecidableEq

def ObservationClass.text : ObservationClass → String
  | .serviceResponseObserved => "service_response_observed"
  | .reachableTransportOnly => "reachable_transport_only"
  | .explicitDenialObserved => "explicit_denial_observed"
  | .noResponse => "no_response"
  | .transportError => "transport_error"
  | .udpSilence => "udp_silence"
  | .notTested => "not_tested"

def observationClasses : List ObservationClass :=
  [.serviceResponseObserved,.reachableTransportOnly,.explicitDenialObserved,.noResponse,
    .transportError,.udpSilence,.notTested]

/-- The class a value names, if it names one. -/
def classOf (v : JsVal) : Option ObservationClass := observationClasses.find? fun c => is v c.text

/-- The name of a class as a value. -/
def className (c : ObservationClass) : JsVal := .str (js c.text)

@[simp] theorem classOf_className (c : ObservationClass) : classOf (className c) = some c := by
  cases c <;> decide

/-- The denial bases the classifier tells apart. -/
inductive Basis
  | icmpAdminProhibited
  | rejectedIcmp
  | portUnreachable
  | connectionRefused
  | localProbeError
deriving DecidableEq

def Basis.text : Basis → String
  | .icmpAdminProhibited => "icmp_admin_prohibited"
  | .rejectedIcmp => "rejected_icmp"
  | .portUnreachable => "port_unreachable"
  | .connectionRefused => "connection_refused"
  | .localProbeError => "local_probe_error"

def bases : List Basis :=
  [.icmpAdminProhibited,.rejectedIcmp,.portUnreachable,.connectionRefused,.localProbeError]

def basisOf (v : JsVal) : Option Basis := bases.find? fun b => is v b.text

def basisName (b : Basis) : JsVal := .str (js b.text)

@[simp] theorem basisOf_basisName (b : Basis) : basisOf (basisName b) = some b := by
  cases b <;> decide

structure Observation where
  evidenceId : JsVal := .undefined
  testRunId : JsVal := .undefined
  checkId : JsVal := .undefined
  observationClass : JsVal := .undefined
  evidenceTier : JsVal := .undefined
  sourcePerspective : JsVal := .undefined
  workerId : JsVal := .undefined
  destinationFingerprint : JsVal := .undefined
  observedAt : JsVal := .undefined
  denialBasis : JsVal := .undefined
  addressFamily : JsVal := .undefined
  elapsedMs : JsVal := .undefined
  localError : JsVal := .undefined
  reason : JsVal := .undefined

/-- The members of an object under their names. -/
def Observation.ofObject (v : JsVal) : Observation where
  evidenceId := field v "evidence_id"
  testRunId := field v "test_run_id"
  checkId := field v "check_id"
  observationClass := field v "observation_class"
  evidenceTier := field v "evidence_tier"
  sourcePerspective := field v "source_perspective"
  workerId := field v "worker_id"
  destinationFingerprint := field v "destination_fingerprint"
  observedAt := field v "observed_at"
  denialBasis := field v "denial_basis"
  addressFamily := field v "address_family"
  elapsedMs := field v "elapsed_ms"
  localError := field v "local_error"
  reason := field v "reason"

/-- `OBSERVATION_FIELDS`, as the reads they stand for. -/
def Observation.fields (obs : Observation) : List JsVal :=
  [obs.evidenceId,obs.testRunId,obs.checkId,obs.observationClass,obs.evidenceTier,
    obs.sourcePerspective,obs.workerId,obs.destinationFingerprint,obs.observedAt,obs.denialBasis,
    obs.addressFamily,obs.elapsedMs,obs.localError]

/-- One row; a local error that is missing is not stored. -/
def encodeRow (obs : Observation) : List JsVal :=
  let row := obs.fields.map fun v => orElse v .null
  if nullish (row.getLastD .undefined) then row.dropLast else row

def encodeFirewallObservations (observations : List Observation) : JsVal :=
  .arr (observations.map fun obs => .arr (encodeRow obs))

/-- A member that is deleted again when the row has nothing for it. -/
def unlessNullish (v : JsVal) : JsVal := if nullish v then .undefined else v

def decodeRow (row : List JsVal) : Observation :=
  let at_ := fun i => orElse (row.getD i .undefined) .null
  { evidenceId := at_ 0, testRunId := at_ 1, checkId := at_ 2, observationClass := at_ 3,
    evidenceTier := at_ 4, sourcePerspective := at_ 5, workerId := at_ 6,
    destinationFingerprint := at_ 7, observedAt := at_ 8, denialBasis := unlessNullish (at_ 9),
    addressFamily := unlessNullish (at_ 10), elapsedMs := unlessNullish (at_ 11),
    localError := if nullish (at_ 12) || isFalse (at_ 12) then .undefined else at_ 12 }

def decodeFirewallObservations (encoded : JsVal) : List Observation :=
  (elements encoded).map fun row =>
    match row with
    | .arr vs => decodeRow vs
    | v => .ofObject v

/-- The members of the object may be missing; those it has are values of a text. -/
def Observation.Json (obs : Observation) : Prop :=
  ∀ v ∈ obs.reason::obs.fields,v = .undefined ∨ IsJson v

theorem orElse_null_json {v : JsVal} (h : v = .undefined ∨ IsJson v) : IsJson (orElse v .null) := by
  rcases h with rfl | h
  · exact .null
  · cases h with
    | null => exact .null
    | bool b => exact .bool b
    | num n => exact .num n
    | str s => exact .str s
    | arr h => exact .arr h
    | obj h h' => exact .obj h h'

theorem encodeRow_json {obs : Observation} (h : obs.Json) : ∀ v ∈ encodeRow obs,IsJson v := by
  have hrow : ∀ v ∈ obs.fields.map fun v => orElse v .null,IsJson v := by
    intro v hv
    obtain ⟨w,hw,rfl⟩ := List.mem_map.mp hv
    exact orElse_null_json (h w (List.mem_cons_of_mem _ hw))
  intro v hv
  unfold encodeRow at hv
  dsimp only at hv
  split at hv
  · exact hrow v (List.mem_of_mem_dropLast hv)
  · exact hrow v hv

theorem encode_json {observations : List Observation} (h : ∀ obs ∈ observations,obs.Json) :
    IsJson (encodeFirewallObservations observations) := by
  refine .arr ?_
  intro v hv
  obtain ⟨obs,hobs,rfl⟩ := List.mem_map.mp hv
  exact .arr (encodeRow_json (h obs hobs))

/-- The stored text denotes the encoded value itself. -/
theorem encode_round_trip {observations : List Observation} (h : ∀ obs ∈ observations,obs.Json) :
    (stringify (encodeFirewallObservations observations)).bind parse =
      some (encodeFirewallObservations observations) := by
  have hjson := encode_json h
  rw [stringify,if_neg (by simp [hjson.defined]),Option.bind_some,parse_text hjson.wellFormed,
    clean_of_isJson hjson]

/-- What is read back of an observation. -/
def stored (obs : Observation) : Observation where
  evidenceId := orElse obs.evidenceId .null
  testRunId := orElse obs.testRunId .null
  checkId := orElse obs.checkId .null
  observationClass := orElse obs.observationClass .null
  evidenceTier := orElse obs.evidenceTier .null
  sourcePerspective := orElse obs.sourcePerspective .null
  workerId := orElse obs.workerId .null
  destinationFingerprint := orElse obs.destinationFingerprint .null
  observedAt := orElse obs.observedAt .null
  denialBasis := unlessNullish obs.denialBasis
  addressFamily := unlessNullish obs.addressFamily
  elapsedMs := unlessNullish obs.elapsedMs
  localError := if nullish obs.localError || isFalse obs.localError then .undefined else obs.localError

@[simp] theorem orElse_orElse_null (v : JsVal) : orElse (orElse v .null) .null = orElse v .null := by
  cases v <;> rfl

@[simp] theorem nullish_orElse_null (v : JsVal) : nullish (orElse v .null) = nullish v := by
  cases v <;> rfl

@[simp] theorem unlessNullish_orElse (v : JsVal) :
    unlessNullish (orElse v .null) = unlessNullish v := by
  cases v <;> rfl

theorem decodeRow_encodeRow (obs : Observation) : decodeRow (encodeRow obs) = stored obs := by
  unfold encodeRow
  dsimp only
  cases hlast : nullish obs.localError with
  | true =>
      have hrow : nullish ((obs.fields.map fun v => orElse v .null).getLastD .undefined) = true := by
        simp [Observation.fields,hlast]
      rw [if_pos hrow]
      simp only [Observation.fields,List.map_cons,List.map_nil,List.dropLast,decodeRow,stored,hlast,
        List.getD_cons_zero,List.getD_cons_succ,List.getD_nil,orElse_orElse_null,
        unlessNullish_orElse,Bool.true_or,if_true]
      rfl
  | false =>
      have hrow : ¬ nullish ((obs.fields.map fun v => orElse v .null).getLastD .undefined) = true := by
        simp [Observation.fields,hlast]
      have hkeep : orElse obs.localError .null = obs.localError := by simp [orElse,hlast]
      rw [if_neg hrow]
      simp only [Observation.fields,List.map_cons,List.map_nil,decodeRow,stored,hlast,
        List.getD_cons_zero,List.getD_cons_succ,orElse_orElse_null,unlessNullish_orElse,hkeep]

theorem decode_encode (observations : List Observation) :
    decodeFirewallObservations (encodeFirewallObservations observations) =
      observations.map stored := by
  simp only [decodeFirewallObservations,encodeFirewallObservations,elements,List.map_map]
  exact List.map_congr_left fun obs _ => decodeRow_encodeRow obs

def classifierVersion : JsString := js "firewall-acceptance-v4"

/-- The members of an observation the digest covers. -/
def digestRecord (obs : Observation) : List (JsString × JsVal) :=
  [(js "evidence_id",orElse obs.evidenceId .null),(js "test_run_id",orElse obs.testRunId .null),
    (js "check_id",orElse obs.checkId .null),
    (js "observation_class",orElse obs.observationClass .null),
    (js "source_perspective",orElse obs.sourcePerspective .null),
    (js "worker_id",orElse obs.workerId .null),
    (js "destination_fingerprint",orElse obs.destinationFingerprint .null)]++
    if truthy obs.denialBasis then [(js "denial_basis",obs.denialBasis)] else []

def digestPayload (observations : List Observation) : JsVal :=
  .obj [(js "classifier_version",.str classifierVersion),
    (js "observations",.arr (observations.map fun obs => .obj (digestRecord obs)))]

/-- `sha256Digest`, whose canonical text is the one the audit log uses. -/
def firewallObservationsDigest (sha256 : ByteArray → List UInt8) (observations : List Observation) :
    JsString :=
  ProbeJobSigning.hex
    (sha256 (String.ofList (CanonicalEncoders.Audit.stableStringify (digestPayload observations))).toUTF8)

theorem truthy_unlessNullish (v : JsVal) : truthy (unlessNullish v) = truthy v := by
  cases v <;> rfl

theorem digestRecord_stored (obs : Observation) : digestRecord (stored obs) = digestRecord obs := by
  simp only [digestRecord,stored,orElse_orElse_null,truthy_unlessNullish]
  by_cases h : truthy obs.denialBasis = true
  · have hkeep : unlessNullish obs.denialBasis = obs.denialBasis := by
      cases hv : obs.denialBasis <;> simp [hv,truthy,unlessNullish,nullish] at h ⊢
    rw [hkeep]
  · rw [if_neg h,if_neg h]

theorem digest_stored (sha256 : ByteArray → List UInt8) (observations : List Observation) :
    firewallObservationsDigest sha256 (observations.map stored) =
      firewallObservationsDigest sha256 observations := by
  have hpayload : digestPayload (observations.map stored) = digestPayload observations := by
    simp only [digestPayload,List.map_map,Function.comp_def,digestRecord_stored]
  rw [firewallObservationsDigest,hpayload,firewallObservationsDigest]

end AstraNull.FirewallObservations
