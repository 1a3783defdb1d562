import Mathlib
import AstraNull.JsonText
import AstraNull.ScriptText
import AstraNull.ScriptValue
import AstraNull.ScriptObject
import AstraNull.CheckedObjects
import AstraNull.ProbeProfile
import AstraNull.TargetMetadata
import AstraNull.TargetInput

/-!
# Control declarations

`contracts/controlDeclarations.mjs`: what a customer declares about the controls before a target.
A document is checked field by field and comes back in its normal form; the network policy is then
asked for the rule of a protocol, a port and an address family.
-/
namespace AstraNull.ControlDeclarations
open JsonText ScriptText ScriptValue ScriptObject CheckedObjects
open ProbeProfile (numeral integerIn)
open TargetMetadata (isPlain)
open TargetInput (Platform textOf startsHttp isDigits)

/-- The field and the message of a validation error. -/
structure Refusal where
  field : JsString
  message : JsString
deriving DecidableEq

structure Context where
  P : Platform
  toUpperCase : JsString → JsString
  /-- The probe perspectives of the environment. -/
  knownIds : List JsString

def asObject (value : JsVal) (path : JsString) : Except Refusal Unit :=
  if isPlain value then .ok () else .error ⟨path,path++js " must be an object."⟩

def rejectUnknownKeys (object : JsVal) (allowed : List String) (path : JsString) :
    Except Refusal Unit :=
  match (names object).find? fun key => !allowed.any fun name => js name == key with
  | some key => .error ⟨path++js "."++key,js "Unknown field \""++key++js "\"."⟩
  | none => .ok ()

def trimmedString (value : JsVal) (path : JsString) (max : ℕ) : Except Refusal JsString :=
  match value with
  | .str s =>
      if trim s = [] then .error ⟨path,path++js " must be a non-empty string."⟩
      else if max < (trim s).length then
        .error ⟨path,path++js " must be at most "++js (toString max)++js " characters."⟩
      else .ok (trim s)
  | _ => .error ⟨path,path++js " must be a string."⟩

def integerInRange (min max : ℕ) : Check Refusal := fun path value =>
  if integerIn value min max then .ok value
  else .error ⟨path,path++js " must be an integer between "++js (toString min)++js " and "++
    js (toString max)++js "."⟩

def portNumber : Check Refusal := integerInRange 1 65535

/-- A word of a small set, after its case was changed. -/
def wordIn (fold : JsString → JsString) (max : ℕ) (allowed : List String) (message : String) :
    Check Refusal := fun path value => do
  let text ← trimmedString value path max
  if allowed.any fun word => js word == fold text then return .str (fold text)
  throw ⟨path,js message⟩

/-- A text that satisfies a pattern, after its case was changed. -/
def patterned (fold : JsString → JsString) (max : ℕ) (pattern : JsString → Bool)
    (message : JsString → JsString) : Check Refusal := fun path value => do
  let text ← trimmedString value path max
  if pattern (fold text) then return .str (fold text)
  throw ⟨path,message path⟩

/-- The units of `!#$%&'*+-.^_|~`, the grave accent, digits and letters. -/
def isHeaderToken (u : UInt16) : Bool :=
  isAlphanumeric u.toNat || u = 33 || (35 ≤ u.toNat && u.toNat ≤ 39) || u = 42 || u = 43 ||
    u = 45 || u = 46 || (94 ≤ u.toNat && u.toNat ≤ 96) || u = 124 || u = 126

def headerToken (s : JsString) : Bool := s ≠ [] && s.all isHeaderToken

def printableAscii (s : JsString) : Bool :=
  s ≠ [] && s.all fun u => 32 ≤ u.toNat && u.toNat ≤ 126

/-- `/^\/(?!\/)[^\s?#]*$/`, without a backslash and without `://`. -/
def isAbsolutePath (s : JsString) : Bool :=
  match s with
  | [] => false
  | u::us => u = 47 && us.head? ≠ some 47 &&
      us.all (fun v => !(isWhiteSpace v.toNat || v = 63 || v = 35)) && !s.contains 92 &&
      !(s.tails.any fun t => (js "://").isPrefixOf t)

def maxNetworkRules : ℕ := 64

def maxMarkerPaths : ℕ := 5

def maxNote : ℕ := 200

def maxHeaderName : ℕ := 64

def maxHeaderValue : ℕ := 256

def maxPath : ℕ := 256

def maxUrl : ℕ := 2048

def maxStatusCodes : ℕ := 16

def absolutePath : Check Refusal :=
  patterned id maxPath isAbsolutePath fun path =>
    path++js " must be an absolute path starting with \"/\"."

def dotted (path : JsString) (name : String) : JsString := path++js "."++js name

def always (name : String) (check : Check Refusal) : Member Refusal := ⟨name,fun _ => false,check⟩

/-- A member that may be missing or null. -/
def optional (name : String) (check : Check Refusal) : Member Refusal := ⟨name,nullish,check⟩

def checkObject (keys : List String) (members : List (Member Refusal)) : Check Refusal :=
  fun path value => do
    asObject value path
    rejectUnknownKeys value keys path
    let kvs ← checkMembers dotted path value members
    return .obj kvs

/-- An array of at most so many elements. -/
def checkArray (l : Listing Refusal) (max : ℕ) (notArray tooMany : JsString → JsString) :
    Check Refusal := fun path value =>
  match value with
  | .arr raws => do
      if max < raws.length then throw ⟨path,tooMany path⟩
      let vs ← checkList l path 0 [] raws
      return .arr vs
  | _ => .error ⟨path,notArray path⟩

def networkRuleKeys : List String := ["protocol","port","action","address_family","note"]

section
variable (C : Context)

def ruleMembers : List (Member Refusal) :=
  [always "protocol" (wordIn C.P.toLowerCase 8 ["tcp","udp"]
      "protocol must be \"tcp\" or \"udp\"."),
    always "port" portNumber,
    always "action" (wordIn C.P.toLowerCase 8 ["allow","deny"]
      "action must be \"allow\" or \"deny\"."),
    always "address_family" (wordIn C.P.toLowerCase 8 ["ipv4","ipv6","any"]
      "address_family must be \"ipv4\", \"ipv6\", or \"any\".")]

def isMissingNote (v : JsVal) : Bool := nullish v || is v ""

def noteMember : Member Refusal :=
  ⟨"note",isMissingNote,patterned id maxNote (fun _ => true) fun _ => []⟩

/-- `${protocol}:${port}:${address_family}` -/
def ruleKey (rule : JsVal) : JsString :=
  toStr (field rule "protocol")++js ":"++toStr (field rule "port")++js ":"++
    toStr (field rule "address_family")

/-- A rule is compared with the earlier ones before its note is looked at. -/
def networkRules : Listing Refusal where
  key := fun path raw => (checkObject networkRuleKeys (ruleMembers C) path raw).map ruleKey
  item := checkObject networkRuleKeys (ruleMembers C++[noteMember])
  repeated := fun path => some ⟨path,
    js "Duplicate network_policy rule for the same protocol, port, and address family."⟩

def normalizeNetworkPolicy : Check Refusal :=
  checkArray (networkRules C) maxNetworkRules (fun _ => js "network_policy must be an array.")
    fun _ => js "At most 64 network_policy rules are allowed."

/-- The elements are their own keys; a repeated one is left out. -/
def distinct (item : Check Refusal) : Listing Refusal where
  key := fun path raw => (item path raw).map toStr
  item := item
  repeated := fun _ => none

def statusCodes : Check Refusal := fun path value =>
  match value with
  | .arr (raw::raws) =>
      checkArray (distinct (integerInRange 400 599)) maxStatusCodes (fun _ => [])
        (fun _ => js "At most 16 status_codes are allowed.") path (.arr (raw::raws))
  | _ => .error ⟨path,js "status_codes must be a non-empty array of integers 400\u2013599."⟩

def normalizeBlockSignature : Check Refusal :=
  checkObject ["header_name","header_value","status_codes"]
    [always "header_name" (patterned C.P.toLowerCase maxHeaderName headerToken fun _ =>
        js "header_name must be an RFC 7230 token."),
      always "header_value" (patterned id maxHeaderValue printableAscii fun _ =>
        js "header_value must be printable ASCII of at most 256 characters."),
      optional "status_codes" statusCodes]

def canaryAction : Check Refusal := fun path value =>
  if nullish value then .ok (.str (js "block"))
  else wordIn id 32 ["block","block_or_challenge"]
    "expected_action must be \"block\" or \"block_or_challenge\"." path value

/-- The action is checked before the two numbers and written behind them. -/
def normalizeRateLimitCanary : Check Refusal := fun path value => do
  asObject value path
  rejectUnknownKeys value ["path","method","threshold","window_seconds","expected_action"] path
  let location ← absolutePath (dotted path "path") (field value "path")
  let method ← wordIn C.toUpperCase 8 ["GET","HEAD"] "method must be \"GET\" or \"HEAD\"."
    (dotted path "method") (field value "method")
  let action ← canaryAction (dotted path "expected_action") (field value "expected_action")
  let threshold ← integerInRange 1 10 (dotted path "threshold") (field value "threshold")
  let window ← integerInRange 1 60 (dotted path "window_seconds") (field value "window_seconds")
  return .obj [(js "path",location),(js "method",method),(js "threshold",threshold),
    (js "window_seconds",window),(js "expected_action",action)]

def markerPaths : Listing Refusal where
  key := fun path raw => (absolutePath path raw).map toStr
  item := absolutePath
  repeated := fun path => some ⟨path,js "Duplicate marker_paths entry."⟩

def normalizeWaf : Check Refusal :=
  checkObject ["block_signature","expected_action","rate_limit_canary","marker_paths"]
    [optional "block_signature" (normalizeBlockSignature C),
      optional "expected_action" (wordIn id 32 ["block","challenge","block_or_challenge"]
        "expected_action must be \"block\", \"challenge\", or \"block_or_challenge\"."),
      optional "rate_limit_canary" (normalizeRateLimitCanary C),
      optional "marker_paths" (checkArray markerPaths maxMarkerPaths
        (fun _ => js "marker_paths must be an array.")
        fun _ => js "At most 5 marker_paths are allowed.")]

def lockdown : Check Refusal := fun path value =>
  match value with
  | .bool b => .ok (.bool b)
  | _ => .error ⟨path,js "lockdown_expected must be a boolean."⟩

def normalizeOrigin : Check Refusal :=
  checkObject ["lockdown_expected"] [always "lockdown_expected" lockdown]

def perspectiveId : Check Refusal := fun path value => do
  let id ← trimmedString value path 32
  if id ∈ C.knownIds then return .str id
  throw ⟨path,js "Unknown probe perspective \""++id++js "\"."⟩

/-- A list of any length. -/
def perspectiveIds : Check Refusal := fun path value =>
  match value with
  | .arr raws => do
      let vs ← checkList (distinct (perspectiveId C)) path 0 [] raws
      return .arr vs
  | _ => .error ⟨path,path++js " must be an array of perspective ids."⟩

def normalizePerspectives : Check Refusal :=
  checkObject ["allowlisted_perspective_ids","denied_perspective_ids"]
    [optional "allowlisted_perspective_ids" (perspectiveIds C),
      optional "denied_perspective_ids" (perspectiveIds C)]

def limitMembers : List (Member Refusal) :=
  [always "protocol" (wordIn C.P.toLowerCase 8 ["tcp"] "protocol must be \"tcp\"."),
    always "port" portNumber]

def limitKey (row : JsVal) : JsString :=
  toStr (field row "protocol")++js ":"++toStr (field row "port")

def connectionLimits : Listing Refusal where
  key := fun path raw => (checkObject ["protocol","port","max_connections_per_source"]
    (limitMembers C) path raw).map limitKey
  item := checkObject ["protocol","port","max_connections_per_source"]
    (limitMembers C++[always "max_connections_per_source" (integerInRange 1 10)])
  repeated := fun path => some ⟨path,
    js "Duplicate connection_limits entry for the same protocol and port."⟩

def normalizeConnectionLimits : Check Refusal :=
  checkArray (connectionLimits C) maxNetworkRules
    (fun _ => js "connection_limits must be an array.")
    fun _ => js "At most 64 connection_limits entries are allowed."

/-- `replace(/^\[|\]$/g,'')` -/
def withoutBrackets (s : JsString) : JsString :=
  let front := if s.head? = some 91 then s.tail else s
  if front.getLast? = some 93 then front.dropLast else front

def unbracketHost (value : JsString) : JsString :=
  C.P.toLowerCase (withoutBrackets (trim value))

/-- `/^\[([^\]]+)\](?::\d+)?$/` -/
def bracketHost (value : JsString) : Option JsString :=
  match value with
  | [] => none
  | u::rest =>
      let host := rest.takeWhile (· ≠ 93)
      match rest.dropWhile (· ≠ 93) with
      | [93] => if u = 91 ∧ host ≠ [] then some host else none
      | 93::58::port => if u = 91 ∧ host ≠ [] ∧ isDigits port then some host else none
      | _ => none

def targetHostFromRecord (target : JsVal) : Option JsString :=
  if !truthy target then none
  else
    let kind := C.P.toLowerCase (trim (textOf (field target "kind")))
    let value := trim (textOf (orElse (field target "value") (field target "normalized_value")))
    if value = [] then none
    else if kind = js "url" ∨ startsHttp value then
      (C.P.newUrl value).map fun url => unbracketHost C (C.P.hostname url)
    else if kind = js "tcp" then
      match bracketHost value with
      | some host => some (unbracketHost C host)
      | none => some (unbracketHost C (((TargetInput.plainMatch value).map Prod.fst).getD value))
    else if kind = js "ip" then some (unbracketHost C value)
    else some (unbracketHost C (value.rdropWhile (· = 46)))

/-- The sink is an HTTPS URL on the host of the target. -/
def sinkUrl (targetHost : Option JsString) : Check Refusal := fun path value => do
  let url ← trimmedString value path maxUrl
  match C.P.newUrl url with
  | none => throw ⟨path,js "canary_sink.url must be an absolute HTTPS URL."⟩
  | some parsed =>
      if C.P.protocol parsed ≠ js "https:" ∨ C.P.username parsed ≠ [] ∨
          C.P.password parsed ≠ [] then
        throw ⟨path,js "canary_sink.url must be HTTPS with no credentials."⟩
      if (targetHost.filter (· ≠ [])).map C.P.toLowerCase ≠
          some (C.P.toLowerCase (unbracketHost C (C.P.hostname parsed))) then
        throw ⟨path,js "canary_sink.url host must equal the target host."⟩
      return .str (C.P.href (C.P.clearHash parsed))

def normalizeCanarySink (targetHost : Option JsString) : Check Refusal :=
  checkObject ["url"] [always "url" (sinkUrl C targetHost)]

def topLevelKeys : List String :=
  ["version","network_policy","waf","origin","perspectives","canary_sink","connection_limits",
    "updated_at","updated_by","revision"]

def documentMembers (targetHost : Option JsString) : List (Member Refusal) :=
  [optional "network_policy" (normalizeNetworkPolicy C),optional "waf" (normalizeWaf C),
    optional "origin" normalizeOrigin,optional "perspectives" (normalizePerspectives C),
    optional "canary_sink" (normalizeCanarySink C targetHost),
    optional "connection_limits" (normalizeConnectionLimits C)]

def normalizeControlDeclarations (target input : JsVal) : Except Refusal JsVal := do
  asObject input (js "control_declarations")
  rejectUnknownKeys input topLevelKeys (js "control_declarations")
  let version := field input "version"
  if !nullish version && !sameNumber version (natNumber 1) then
    throw ⟨js "version",js "version must be 1."⟩
  let kvs ← checkMembers (fun _ name => js name) [] input
    (documentMembers C (targetHostFromRecord C target))
  return .obj ((js "version",numeral 1)::kvs)

/-- The loop: an exact rule at once, else the first one for any family. -/
def scanRules (proto : JsString) (port : Numeric) (family : JsString) :
    JsVal → List JsVal → JsVal
  | anyMatch,[] => anyMatch
  | anyMatch,rule::rules =>
      if !strictEq (field rule "protocol") (.str proto) || !sameNumber (field rule "port") port then
        scanRules proto port family anyMatch rules
      else if strictEq (field rule "address_family") (.str family) then rule
      else if is (field rule "address_family") "any" && nullish anyMatch then
        scanRules proto port family rule rules
      else scanRules proto port family anyMatch rules

/-- What is asked for. -/
structure Query where
  protocol : JsVal
  port : JsVal
  addressFamily : JsVal

def declaredNetworkPolicyFor (declarations : JsVal) (q : Query) : JsVal :=
  match field declarations "network_policy" with
  | .arr rules =>
      scanRules (C.P.toLowerCase (textOf q.protocol)) (toNumber q.port)
        (C.P.toLowerCase (toStr (orElse q.addressFamily (.str (js "any"))))) .null rules
  | _ => .null

end

end AstraNull.ControlDeclarations
