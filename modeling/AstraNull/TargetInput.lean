import Mathlib
import AstraNull.JsonText
import AstraNull.ScriptText
import AstraNull.ScriptValue
import AstraNull.ScriptObject
import AstraNull.AddressText
import AstraNull.CymruNames
import AstraNull.TargetMetadata

/-!
# Normal forms of targets

`contracts/targetManagement.mjs`: a target has a kind and a value, and both are brought to a normal
form before they are stored or compared. The address test, the name encoding and the URL class are
the platform's.
-/
namespace AstraNull.TargetInput
open JsonText ScriptText ScriptValue ScriptObject TargetMetadata
open AddressText (decimalNumber)
open CymruNames (asciiUnits)

inductive Kind where
  | fqdn
  | ip
  | url
  | tcp
  | dnsZone
  | canary
deriving DecidableEq

def Kind.text : Kind → JsString
  | .fqdn => js "fqdn"
  | .ip => js "ip"
  | .url => js "url"
  | .tcp => js "tcp"
  | .dnsZone => js "dns_zone"
  | .canary => js "canary"

def targetKinds : List Kind := [.fqdn,.ip,.url,.tcp,.dnsZone,.canary]

structure Platform where
  toLowerCase : JsString → JsString
  isIP : JsString → ℕ
  domainToASCII : JsString → JsString
  Url : Type
  newUrl : JsString → Option Url
  protocol : Url → JsString
  username : Url → JsString
  password : Url → JsString
  hostname : Url → JsString
  setHostname : Url → JsString → Url
  clearHash : Url → Url
  href : Url → JsString

section
variable (P : Platform)

/-- `String(input ?? '')` -/
def textOf (input : JsVal) : JsString := toStr (orElse input (.str []))

def kindAliases : List (String × String) := [("domain","fqdn"),("hostname","fqdn")]

def aliased (raw : JsString) : JsString :=
  match kindAliases.find? fun p => js p.1 == raw with
  | some p => js p.2
  | none => raw

def normalizeTargetKind (input : JsVal) : Except Failure Kind :=
  let raw := P.toLowerCase (trim (textOf input))
  match targetKinds.find? fun k => k.text == aliased raw with
  | some kind => .ok kind
  | none =>
      .error (.invalid (js "kind")
        (js "Unsupported target kind: "++if raw = [] then js "(empty)" else raw)
        (js "invalid_target"))

def isAddressMark (u : UInt16) : Bool :=
  u = 58 || u = 47 || u = 64 || u = 92 || u = 63 || u = 35

/-- `/^[a-z0-9](?:[a-z0-9-]*[a-z0-9])?$/` -/
def isLabel (label : JsString) : Bool :=
  label.all (fun u => isTagStart u || u = 45) && label.head?.any isTagStart &&
    label.getLast?.any isTagStart

def notHostname : Failure := validationError "value" "FQDN target is not a valid DNS hostname."

def normalizeFqdn (input : JsString) : Except Failure JsString :=
  let raw := (trim input).rdropWhile (· = 46)
  if raw = [] ∨ raw.any isAddressMark then
    .error (validationError "value"
      "FQDN targets must be hostnames without a scheme, path, credentials, or port.")
  else
    let ascii := P.toLowerCase (P.domainToASCII raw)
    if ascii = [] ∨ 253 < ascii.length then .error notHostname
    else if (ascii.splitOn 46).any fun label => 63 < label.length || !isLabel label then
      .error notHostname
    else .ok ascii

/-- `http://[raw]/` -/
def bracketed (raw : JsString) : JsString := js "http://["++raw++js "]/"

/-- `slice(1,-1)` -/
def withoutEnds (s : JsString) : JsString := s.tail.dropLast

def normalizeIp (input : JsString) : Except Failure JsString :=
  let raw := trim input
  if raw = [] ∨ P.isIP raw = 0 then
    .error (validationError "value"
      "IP targets must contain only an IPv4 or IPv6 address; host:port belongs to kind \"tcp\".")
  else if P.isIP raw = 4 then .ok raw
  else match P.newUrl (bracketed raw) with
    | none => .error .typeError
    | some url => .ok (P.toLowerCase (withoutEnds (P.hostname url)))

def normalizeHost (host : JsString) : Except Failure JsString :=
  if P.isIP host ≠ 0 then normalizeIp P host else normalizeFqdn P host

def withBrackets (host : JsString) : JsString :=
  if P.isIP host = 6 then js "["++host++js "]" else host

def unbracketed (hostname : JsString) : JsString :=
  if hostname.head? = some 91 ∧ hostname.getLast? = some 93 then withoutEnds hostname else hostname

def normalizeUrl (input : JsString) : Except Failure JsString :=
  match P.newUrl (trim input) with
  | none =>
      .error (validationError "value" "URL targets must be absolute HTTP or HTTPS URLs.")
  | some parsed =>
      if (P.protocol parsed ≠ js "http:" ∧ P.protocol parsed ≠ js "https:") ∨
          P.username parsed ≠ [] ∨ P.password parsed ≠ [] then
        .error (validationError "value"
          "URL targets must use HTTP or HTTPS and must not contain credentials.")
      else do
        let normalizedHostname ← normalizeHost P (unbracketed (P.hostname parsed))
        return P.href (P.clearHash (P.setHostname parsed (withBrackets P normalizedHostname)))

def isDigitUnit (u : UInt16) : Bool := 48 ≤ u.toNat && u.toNat ≤ 57

def isDigits (s : JsString) : Bool := s ≠ [] && s.all isDigitUnit

/-- `/^\[([^\]]+)]:(\d+)$/` -/
def bracketMatch (raw : JsString) : Option (JsString × JsString) :=
  match raw with
  | [] => none
  | u::rest =>
      let host := rest.takeWhile (· ≠ 93)
      match rest.dropWhile (· ≠ 93) with
      | 93::58::port => if u = 91 ∧ host ≠ [] ∧ isDigits port then some (host,port) else none
      | _ => none

/-- `/^([^:]+):(\d+)$/` -/
def plainMatch (raw : JsString) : Option (JsString × JsString) :=
  let host := raw.takeWhile (· ≠ 58)
  match raw.dropWhile (· ≠ 58) with
  | 58::port => if host ≠ [] ∧ isDigits port then some (host,port) else none
  | _ => none

def tcpMatch (raw : JsString) : Option (JsString × JsString) :=
  (bracketMatch raw).or (plainMatch raw)

def normalizeTcp (input : JsString) : Except Failure JsString :=
  match tcpMatch (trim input) with
  | none => .error (validationError "value" "TCP targets must use host:port or [IPv6]:port.")
  | some (matched,digits) => do
      let host ← normalizeHost P matched
      let port := decimalNumber digits
      if port < 1 ∨ 65535 < port then
        throw (validationError "value" "TCP target port must be between 1 and 65535.")
      return withBrackets P host++js ":"++asciiUnits (Nat.toDigits 10 port)

/-- `/^https?:\/\//i` -/
def startsHttp (raw : JsString) : Bool :=
  let lowered := raw.map fun u => if 65 ≤ u.toNat ∧ u.toNat ≤ 90 then u+32 else u
  (js "http://").isPrefixOf lowered || (js "https://").isPrefixOf lowered

/-- The branches of `normalizeTargetValue`. -/
def normalizeByKind (kind : Kind) (value : JsString) : Except Failure JsString :=
  match kind with
  | .fqdn | .dnsZone => normalizeFqdn P value
  | .ip => normalizeIp P value
  | .url => normalizeUrl P value
  | .tcp => normalizeTcp P value
  | .canary =>
      let raw := trim value
      if startsHttp raw then normalizeUrl P raw else normalizeFqdn P raw

def normalizeTargetValue (kindInput : JsVal) (value : JsVal) : Except Failure JsString := do
  let kind ← normalizeTargetKind P kindInput
  normalizeByKind P kind (textOf value)

structure Normalized where
  kind : Kind
  value : JsString
  metadata : JsVal
  tags : List JsString
  droppedFields : List JsString

def sourceOf (input : JsVal) : JsVal := if isObject input then input else .obj []

/-- `source.kind ?? current?.kind ?? 'fqdn'` -/
def kindOf (input current : JsVal) : JsVal :=
  orElse (orElse (field (sourceOf input) "kind") (field current "kind")) (.str (js "fqdn"))

/-- `source.value ?? current?.value` -/
def valueOf (input current : JsVal) : JsVal :=
  orElse (field (sourceOf input) "value") (field current "value")

def metadataOf (record : JsVal) : JsVal :=
  orElse (field record "metadata") (field record "metadata_json")

/-- The metadata of the request, or else what the target has. -/
def sanitizedOf (input current : JsVal) : JsVal × List JsString :=
  let source := sourceOf input
  if !(field source "metadata").isUndefined || !(field source "metadata_json").isUndefined then
    sanitizeClientTargetMetadata P.toLowerCase (metadataOf source)
  else (orElse (metadataOf current) (.obj []),[])

def tagsOf (input current : JsVal) : Except Failure (List JsString) :=
  let tags := field (sourceOf input) "tags"
  if tags.isUndefined then .ok (targetTagsFromRecord current)
  else normalizeTargetTags P.toLowerCase tags

/-- The tags take the place of what the metadata has under the two reserved names. -/
def tagged (metadata : JsVal) (tags : List JsString) : JsVal :=
  let rest := remove (remove (spread metadata) "tags") "control_declarations"
  if tags ≠ [] then put rest "tags" (.arr (tags.map .str)) else rest

/-- The stored declarations stay with the target. -/
def attached (metadata : JsVal) (tags : List JsString) (current : JsVal) : JsVal :=
  let stored := field (metadataOf current) "control_declarations"
  if isPlain stored then put (tagged metadata tags) "control_declarations" stored
  else tagged metadata tags

def normalizeTargetInput (input current : JsVal) : Except Failure Normalized := do
  let kind ← normalizeTargetKind P (kindOf input current)
  let value ← normalizeTargetValue P (.str kind.text) (valueOf input current)
  let sanitized := sanitizedOf P input current
  let tags ← tagsOf P input current
  return ⟨kind,value,attached sanitized.1 tags current,tags,sanitized.2⟩

def Normalized.asTarget (t : Normalized) : JsVal :=
  .obj [(js "kind",.str t.kind.text),(js "value",.str t.value),
    (js "normalized_value",.str t.value),(js "metadata",t.metadata),
    (js "tags",.arr (t.tags.map .str)),(js "dropped_fields",.arr (t.droppedFields.map .str))]

def targetDedupeKey (target : JsVal) : Except Failure JsString := do
  let normalized ← normalizeTargetInput P target .null
  return normalized.kind.text++[0]++normalized.value

end

section
variable {P : Platform}

theorem normalizeTargetInput_ok {input current : JsVal} {kind : Kind} {value : JsString}
    {tags : List JsString} (hkind : normalizeTargetKind P (kindOf input current) = .ok kind)
    (hvalue : normalizeTargetValue P (.str kind.text) (valueOf input current) = .ok value)
    (htags : tagsOf P input current = .ok tags) :
    normalizeTargetInput P input current = .ok ⟨kind,value,
      attached (sanitizedOf P input current).1 tags current,tags,
      (sanitizedOf P input current).2⟩ := by
  rw [normalizeTargetInput,hkind]
  simp only [bind,Except.bind]
  rw [hvalue]
  simp only
  rw [htags]
  rfl

/-- What went into a result. -/
theorem normalizeTargetInput_parts {input current : JsVal} {t : Normalized}
    (h : normalizeTargetInput P input current = .ok t) :
    normalizeTargetKind P (kindOf input current) = .ok t.kind ∧
      normalizeTargetValue P (.str t.kind.text) (valueOf input current) = .ok t.value ∧
      tagsOf P input current = .ok t.tags ∧
      t.metadata = attached (sanitizedOf P input current).1 t.tags current ∧
      t.droppedFields = (sanitizedOf P input current).2 := by
  rw [normalizeTargetInput] at h
  simp only [bind,Except.bind] at h
  cases hkind : normalizeTargetKind P (kindOf input current) with
  | error e =>
      rw [hkind] at h
      cases h
  | ok kind =>
      rw [hkind] at h
      simp only at h
      cases hvalue : normalizeTargetValue P (.str kind.text) (valueOf input current) with
      | error e =>
          rw [hvalue] at h
          cases h
      | ok value =>
          rw [hvalue] at h
          simp only at h
          cases htags : tagsOf P input current with
          | error e =>
              rw [htags] at h
              cases h
          | ok tags =>
              rw [htags] at h
              cases h
              exact ⟨rfl,hvalue,rfl,rfl,rfl⟩

end

end AstraNull.TargetInput
