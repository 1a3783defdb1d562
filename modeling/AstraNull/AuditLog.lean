import Mathlib
import AstraNull.NumberText
import AstraNull.JsonText
import AstraNull.CanonicalJson
import AstraNull.ScriptText
import AstraNull.ScriptValue
import AstraNull.ScriptObject
import AstraNull.ProbeJobSigning

/-!
# The audit log

`audit.mjs`: an entry is redacted, numbered after the last chained row, linked to its hash and
hashed over the canonical text of everything but the hash itself. `verifyAuditChain` recomputes
all of it. The canonical text is the one of `stableStringify`, the same function as for probe
jobs.
-/
namespace AstraNull.AuditLog
open NumberText JsonText CanonicalJson ScriptText ScriptValue ScriptObject ProbeJobSigning

structure Platform where
  sha256 : ByteArray → List UInt8
  /-- The replacement of token-like parts of a text. -/
  redactString : JsString → JsString

def isLower (u : UInt16) : Bool := 97 ≤ u.toNat && u.toNat ≤ 122

def isUpper (u : UInt16) : Bool := 65 ≤ u.toNat && u.toNat ≤ 90

/-- `replace(/([a-z])([A-Z])/g,'$1_$2')` -/
def splitCamel : JsString → JsString
  | u::v::rest =>
      if isLower u && isUpper v then u::95::splitCamel (v::rest) else u::splitCamel (v::rest)
  | rest => rest

/-- `replace(/[^A-Za-z0-9]+/g,'_')`, inside such a run or not. -/
def joinOthers : Bool → JsString → JsString
  | _,[] => []
  | inRun,u::us =>
      if isAlphanumeric u.toNat then u::joinOthers false us
      else if inRun then joinOthers true us else 95::joinOthers true us

def normalizeEvidenceKey (key : JsString) : JsString :=
  (trimBy (fun u => u == 95) (joinOthers false (splitCamel key))).map fun u =>
    if isUpper u then u+32 else u

def benignEvidenceKeys : List String :=
  ["evidence_uri","provider_key","security_signoff","signoff_reference"]

def exactSensitiveNormalizedKeys : List String :=
  ["api_key","apikey","authorization","bearer_token","client_secret","access_token",
    "refresh_token","id_token","cookie","credential","key_material","password","private_key",
    "public_key_der_base64","secret","set_cookie","token","x_api_key"]

def sensitiveKeySuffixes : List String :=
  ["_secret","_token","_credential","_credentials","_password","_api_key"]

def isVariantSensitiveKey (key : JsString) : Bool :=
  let normalized := normalizeEvidenceKey key
  if benignEvidenceKeys.any fun k => normalized == js k then false
  else if exactSensitiveNormalizedKeys.any fun k => normalized == js k then true
  else sensitiveKeySuffixes.any fun k => (js k).isSuffixOf normalized

section
variable (P : Platform)

def tooDeep : JsVal := .str (js "[REDACTED_DEPTH]")

mutual

def redactObject : ℕ → JsVal → JsVal
  | depth,.str s => if 8 < depth then tooDeep else .str (P.redactString s)
  | depth,.arr vs => if 8 < depth then tooDeep else .arr (redactElements (depth+1) vs)
  | depth,.obj kvs => if 8 < depth then tooDeep else .obj (redactMembers (depth+1) kvs)
  | depth,v => if 8 < depth then tooDeep else v

def redactElements : ℕ → List JsVal → List JsVal
  | _,[] => []
  | depth,v::vs => redactObject depth v::redactElements depth vs

/-- An assignment to `__proto__` makes no member. -/
def redactMembers : ℕ → List (JsString × JsVal) → List (JsString × JsVal)
  | _,[] => []
  | depth,(k,v)::kvs =>
      if k = js "__proto__" then redactMembers depth kvs
      else (k,if isVariantSensitiveKey k then .str (js "[REDACTED]") else redactObject depth v)::
        redactMembers depth kvs

end

def hashAuditPayload (payload : JsVal) : JsString :=
  hex (P.sha256 (String.ofList (stableStringify payload)).toUTF8)

def buildHashableRecord (record : JsVal) : JsVal := remove record "entry_hash"

def computeEntryHash (record : JsVal) : JsString := hashAuditPayload P (buildHashableRecord record)

def lastChainedEntry (log : List JsVal) : Option JsVal :=
  log.reverse.find? fun e => truthy (field e "entry_hash")

inductive Verdict where
  | valid
  | invalid (error : String) (index : ℕ)
  /-- Reading a property of null throws. -/
  | thrown
deriving DecidableEq

/-- The loop, from an index on. -/
def verifyFrom (lastHash : JsVal) (lastSequence : ℚ) (index : ℕ) : List JsVal → Verdict
  | [] => .valid
  | entry::rest =>
      if nullish entry then .thrown
      else if !truthy (field entry "entry_hash") then
        verifyFrom lastHash lastSequence (index+1) rest
      else match field entry "sequence" with
        | .num n =>
            if (rational n).den ≠ 1 ∨ rational n < 1 then .invalid "invalid_sequence" index
            else if rational n ≤ lastSequence then .invalid "sequence_not_monotonic" index
            else if !strictEq (field entry "prev_hash") lastHash then
              .invalid "prev_hash_mismatch" index
            else if !strictEq (field entry "entry_hash") (.str (computeEntryHash P entry)) then
              .invalid "entry_hash_mismatch" index
            else verifyFrom (field entry "entry_hash") (rational n) (index+1) rest
        | _ => .invalid "invalid_sequence" index

def verifyAuditChain (auditLog : JsVal) : Verdict :=
  match auditLog with
  | .arr entries => verifyFrom P .null 0 0 entries
  | _ => .invalid "audit_log_not_array" 0

/-- `n + 1` for an integer. -/
def successor (n : Number) : Number :=
  let v := rational n+1
  (Number.ofDecimal (decide (v < 0)) |v|).getD n

/-- The members of the second object over those of the first. -/
def assign (v w : JsVal) : JsVal :=
  .obj ((members w).foldl (fun kvs p => setMember kvs p.1 p.2) (members v))

def nextSequence (priorEntry : Option JsVal) : Number :=
  match priorEntry.map fun e => field e "sequence" with
  | some (.num n) => if (rational n).den = 1 then successor n else successor .zero
  | _ => successor .zero

def buildAuditRecord (entry : JsVal) (priorEntry : Option JsVal) (id timestamp : JsString) :
    JsVal :=
  let redactedEntry := redactObject P 0 entry
  let base := .obj [(js "id",.str id),(js "timestamp",.str timestamp)]
  let record := put (put (assign base redactedEntry) "sequence" (.num (nextSequence priorEntry)))
    "prev_hash" (ScriptValue.orElse ((priorEntry.map fun e => field e "entry_hash").getD .undefined)
      .null)
  put record "entry_hash" (.str (computeEntryHash P record))

/-- An entry with the id and the time that its record gets. -/
structure Audit where
  entry : JsVal
  id : JsString
  timestamp : JsString

/-- The number of elements an array can have. -/
def maxArrayLength : ℕ := 2^32-1

/-- A push to a full array throws and leaves its elements. -/
def audit (log : List JsVal) (a : Audit) : List JsVal :=
  if maxArrayLength ≤ log.length then log
  else log++[buildAuditRecord P a.entry (lastChainedEntry log) a.id a.timestamp]

end

end AstraNull.AuditLog
