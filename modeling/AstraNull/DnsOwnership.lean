import Mathlib
import AstraNull.CanonicalJson
import AstraNull.ScriptValue
import AstraNull.ProbeProfile
import AstraNull.Tables
import AstraNull.OwnershipTransitions

/-!
# Proof of ownership by a name server record

`services/dnsOwnership.mjs` with `lib/dnsOwnershipTarget.mjs`: a challenge is issued for a
target and names the record to publish; a verification reads the challenge, looks the record
up and decides afterwards. Nothing of the store is locked during the lookup, so the function
is given in its two synchronous parts.

The address test, lower case, the parser of addresses, the digest and the clock text belong to
the platform.
-/
namespace AstraNull.DnsOwnership
open JsonText CanonicalJson ScriptText ScriptValue ProbeProfile OwnershipTransitions

/-- A parsed address. -/
structure Url where
  protocol : JsString
  username : JsString
  password : JsString
  search : JsString
  hash : JsString
  port : JsString
  hostname : JsString

structure Platform where
  /-- `isIP(text) !== 0` -/
  isIP : JsString → Bool
  toLowerCase : JsString → JsString
  /-- `new URL(text)`, nothing when it throws. -/
  parseUrl : JsString → Option Url
  /-- `createHash('sha256').update(bytes).digest('hex')` -/
  sha256 : ByteArray → JsString
  toISOString : ℤ → JsString

inductive TargetKind where
  | fqdn
  | ip
  | url
  | tcp
  | dnsZone
  | canary
deriving DecidableEq

def TargetKind.text : TargetKind → String
  | .fqdn => "fqdn"
  | .ip => "ip"
  | .url => "url"
  | .tcp => "tcp"
  | .dnsZone => "dns_zone"
  | .canary => "canary"

/-- A value as it is stored: object names are distinct at every depth. -/
abbrev Plain := {v : JsVal // WellFormed v}

structure Target where
  id : JsString
  tenantId : JsString
  targetGroupId : JsString
  kind : TargetKind
  value : JsString
  protocol : Plain
  port : Plain
  expectedBehavior : Plain
  declarationJson : Plain
  deleted : Bool

structure TargetGroup where
  id : JsString
  tenantId : JsString
  archived : Bool

section Names
variable (P : Platform)

/-- `/^[a-z0-9](?:[a-z0-9-]*[a-z0-9])?$/` and the length of a label. -/
def isLabel (label : JsString) : Bool :=
  let alnum : UInt16 → Bool := fun u =>
    (97 ≤ u.toNat && u.toNat ≤ 122) || (48 ≤ u.toNat && u.toNat ≤ 57)
  0 < label.length && label.length ≤ 63 && label.all (fun u => alnum u || u = 45) &&
    label.head?.any alnum && label.getLast?.any alnum

/-- Names of the local network. -/
def isLocalName (host : JsString) : Bool :=
  ["localhost","local","internal"].any fun name =>
    host = js name || (js ("."++name)).isSuffixOf host

def withoutLastPoint (s : JsString) : JsString := if s.getLast? = some 46 then s.dropLast else s

def hostname (value : JsString) : Option JsString :=
  let host := withoutLastPoint (P.toLowerCase value)
  if P.isIP host || 232 < host.length || !host.contains 46 || isLocalName host ||
      !(host.splitOn 46).all isLabel then none
  else some host

/-- The address starts with its scheme and has no blank, backslash, query or fragment. -/
def isPlainAddress (value : JsString) : Bool :=
  let lower := value.map fun u => if 65 ≤ u.toNat ∧ u.toNat ≤ 90 then u+32 else u
  ((js "http://").isPrefixOf lower || (js "https://").isPrefixOf lower) &&
    value.all fun u => !(isWhiteSpace u.toNat || u = 92 || u = 63 || u = 35)

def dnsOwnershipDomain (target : Target) : Option JsString :=
  match target.kind with
  | .fqdn => hostname P (trim target.value)
  | .url =>
      if !isPlainAddress target.value then none
      else match P.parseUrl target.value with
        | none => none
        | some endpoint =>
            let https := endpoint.protocol = js "https:"
            if (!https && endpoint.protocol ≠ js "http:") || endpoint.username ≠ [] ||
                endpoint.password ≠ [] || endpoint.search ≠ [] || endpoint.hash ≠ [] ||
                ((target.value.splitOn 47)[2]?).any (·.contains 64) then none
            else
              let port := if endpoint.port ≠ [] then numberOfString endpoint.port
                else natNumber (if https then 443 else 80)
              if !nullish target.port.1 && !sameNumber target.port.1 port then none
              else if !nullish target.protocol.1 &&
                  !strictEq target.protocol.1 (.str endpoint.protocol.dropLast) then none
              else hostname P endpoint.hostname
  | _ => none

def recordNameOf (domain : JsString) : JsString := js "_astranull-challenge."++domain

end Names

section Bindings
variable (P : Platform)

/-- `canonicalJsonStringify` -/
def canonicalText (v : JsVal) : List Char := text (canonical v)

def sha256CanonicalJson (v : JsVal) : JsString := P.sha256 (String.ofList (canonicalText v)).toUTF8

/-- The material part of a target, as `deriveAssuranceScope` digests it. -/
def definition (target : Target) : JsVal :=
  .obj [(js "id",.str target.id),(js "kind",.str (js target.kind.text)),
    (js "value",.str target.value),(js "protocol",orElse target.protocol.1 .null),
    (js "port",orElse target.port.1 .null),(js "target_group_id",.str target.targetGroupId),
    (js "expected_behavior",orElse target.expectedBehavior.1 .null),
    (js "declaration_json",orElse target.declarationJson.1 .null)]

structure Binding where
  version : JsString
  tenantId : JsString
  targetGroupId : JsString
  targetId : JsString
  definitionDigest : JsString
deriving DecidableEq

def Binding.json (b : Binding) : JsVal :=
  .obj [(js "version",.str b.version),(js "tenant_id",.str b.tenantId),
    (js "target_group_id",.str b.targetGroupId),(js "target_id",.str b.targetId),
    (js "definition_digest",.str b.definitionDigest)]

def dnsTargetBindingVersion : JsString := js "dns-ownership-target.v2"

def dnsOwnershipTargetBinding (target : Target) : Binding :=
  ⟨dnsTargetBindingVersion,target.tenantId,target.targetGroupId,target.id,
    sha256CanonicalJson P (definition target)⟩

/-- `/^[A-Za-z0-9][A-Za-z0-9_.:-]{0,127}$/` -/
def isId (s : JsString) : Bool :=
  s.head?.any (fun u => isAlphanumeric u.toNat) && s.length ≤ 128 &&
    s.all fun u => isAlphanumeric u.toNat || u = 95 || u = 46 || u = 58 || u = 45

/-- `/^[a-f0-9]{64}$/` -/
def isDigestText (s : JsString) : Bool :=
  s.length = 64 && s.all fun u =>
    (97 ≤ u.toNat && u.toNat ≤ 102) || (48 ≤ u.toNat && u.toNat ≤ 57)

def bindingMatches (binding : Option Binding) (target : Target) : Bool :=
  match binding with
  | none => false
  | some b => b = dnsOwnershipTargetBinding P target && b.version = dnsTargetBindingVersion &&
      isId b.tenantId && isId b.targetGroupId && isId b.targetId && isDigestText b.definitionDigest

def dnsOwnershipLookupTarget (target : Target) : JsVal :=
  if target.kind = .url then (dnsOwnershipTargetBinding P target).json
  else .arr [.str target.tenantId,.str target.id,.str target.targetGroupId,
    .str (js target.kind.text),.str target.value]

end Bindings

inductive ChallengeState where
  | pending
  | resolved
  | expired
deriving DecidableEq

/-- The outcome of the last check, apart from the binding it carries along. -/
inductive LastCheck where
  | expired
  | checked (records : List JsString) (matched timedOut : Bool)
deriving DecidableEq

structure Challenge where
  id : JsString
  tenantId : JsString
  targetGroupId : JsString
  targetId : JsString
  recordName : JsString
  recordValue : JsString
  state : ChallengeState
  issuedAt : ℤ
  expiresAt : ℤ
  resolvedAt : Option ℤ
  lastCheckedAt : Option ℤ
  lastCheck : Option LastCheck
  /-- `last_check_result.dns_target_binding` -/
  binding : Option Binding
deriving DecidableEq

structure Bucket where
  windowStart : ℤ
  count : ℕ

structure Store where
  now : ℤ
  targetGroups : List TargetGroup
  targets : List Target
  dnsChallenges : List Challenge
  targetVerifications : List Verification
  verifyRateBuckets : JsString → Option Bucket

def challengeLifetimeMs : ℤ := 15*60*1000

def verifyRateLimit : ℕ := 6

def verifyRateWindowMs : ℤ := 60000

structure Refusal where
  error : String
  status : ℕ
deriving DecidableEq

inductive Response where
  | refused (refusal : Refusal)
  | rateLimited (retryAfterSeconds : ℤ)
  | expired (challenge : Challenge)
  | settled (challenge : Challenge) (verified : Bool)
  | checked (challenge : Challenge) (verified timeout : Bool)
  | threw (code : String)

def findActiveTargetGroup (s : Store) (tenantId groupId : JsString) : Option TargetGroup :=
  s.targetGroups.find? fun g => g.id == groupId && g.tenantId == tenantId && !g.archived

def findTarget (s : Store) (tenantId groupId targetId : JsString) : Option Target :=
  if targetId = [] then none
  else s.targets.find? fun t =>
    t.id == targetId && t.tenantId == tenantId && t.targetGroupId == groupId && !t.deleted

def isChallenge (tenantId challengeId : JsString) (c : Challenge) : Bool :=
  c.id == challengeId && c.tenantId == tenantId

def findChallenge (s : Store) (tenantId challengeId : JsString) : Option Challenge :=
  s.dnsChallenges.find? (isChallenge tenantId challengeId)

def findPendingChallengeForTarget (s : Store) (tenantId groupId targetId : JsString) :
    Option Challenge :=
  s.dnsChallenges.find? fun c => c.tenantId == tenantId && c.targetGroupId == groupId &&
    c.targetId == targetId && c.state == .pending && s.now < c.expiresAt

/-- A row that is pending past its time reads as expired. -/
def formatChallenge (s : Store) (c : Challenge) : Challenge :=
  if c.state = .pending ∧ c.expiresAt ≤ s.now then { c with state := .expired } else c

def flattenTxtRecords (records : List (JsString ⊕ List JsString)) : List JsString :=
  records.flatMap fun
    | .inl chunk => [chunk]
    | .inr chunks => chunks

section Issue
variable (P : Platform)

/-- The target the challenge is for: the one asked for, or the first host name of the group. -/
def issueTarget (s : Store) (tenantId groupId targetId : JsString) : Option Target :=
  if targetId = [] then
    s.targets.find? fun t =>
      t.tenantId == tenantId && t.targetGroupId == groupId && t.kind == .fqdn && !t.deleted
  else findTarget s tenantId groupId targetId

def newChallenge (s : Store) (tenantId groupId : JsString) (target : Target)
    (domain challengeId recordValue : JsString) : Challenge where
  id := challengeId
  tenantId := tenantId
  targetGroupId := groupId
  targetId := target.id
  recordName := recordNameOf domain
  recordValue := recordValue
  state := .pending
  issuedAt := s.now
  expiresAt := s.now+challengeLifetimeMs
  resolvedAt := none
  lastCheckedAt := none
  lastCheck := none
  binding := if target.kind = .url then some (dnsOwnershipTargetBinding P target) else none

/-- The fresh identifier and the random value are arguments. -/
def issueChallenge (s : Store) (tenantId groupId targetId challengeId recordValue : JsString) :
    Store × Except Refusal Challenge :=
  match findActiveTargetGroup s tenantId groupId with
  | none => (s,.error ⟨"target_group_not_found",404⟩)
  | some _ => match issueTarget s tenantId groupId targetId with
    | none => (s,.error (if targetId = [] then ⟨"no_fqdn_target",409⟩ else ⟨"target_not_found",404⟩))
    | some target =>
        if target.kind ≠ .fqdn ∧ target.kind ≠ .url then (s,.error ⟨"no_fqdn_target",409⟩)
        else match dnsOwnershipDomain P target with
          | none => (s,.error ⟨"invalid_dns_ownership_target",400⟩)
          | some domain =>
              if target.id ≠ [] ∧
                  (findPendingChallengeForTarget s tenantId groupId target.id).isSome then
                (s,.error ⟨"challenge_active",409⟩)
              else
                let c := newChallenge P s tenantId groupId target domain challengeId recordValue
                ({ s with dnsChallenges := s.dnsChallenges++[c] },.ok (formatChallenge s c))

end Issue

/-- What a call keeps across the lookup. -/
structure Captured where
  tenantId : JsString
  userId : JsString
  challengeId : JsString
  recordName : JsString
  originalBinding : List Char
  originalTarget : List Char
  originalOwnership : JsString

inductive Begin where
  | returned (response : Response)
  | lookup (captured : Captured)

section Verify
variable (P : Platform)

def dnsOwnershipChallengeMatchesTarget (c : Challenge) (target : Target) : Bool :=
  match dnsOwnershipDomain P target with
  | none => false
  | some domain => domain ≠ [] && c.tenantId = target.tenantId && c.targetId = target.id &&
      c.targetGroupId = target.targetGroupId && c.recordName = recordNameOf domain &&
      (target.kind ≠ .url || bindingMatches P c.binding target)

def challengeBinding (c : Challenge) : List Char :=
  text (.arr [.str c.tenantId,.str c.targetGroupId,.str c.targetId,.str c.recordName,
    .str c.recordValue,.str (P.toISOString c.issuedAt),.str (P.toISOString c.expiresAt),
    (c.binding.map Binding.json).getD .null])

def rowJson (row : Verification) : JsVal :=
  .obj [(js "id",.str row.id),(js "tenant_id",.str row.tenantId),
    (js "target_id",.str row.targetId),(js "state",.str row.state),
    (js "source_kind",.str row.sourceKind),(js "source_ref",row.sourceRef),
    (js "transitioned_at",.str row.transitionedAt),
    (js "transitioned_by",.str row.transitionedBy),
    (js "audit_entry_id",.str row.auditEntryId)]

/-- The canonical texts of rows, sorted. -/
def historyTexts (rows : List Verification) : List JsString :=
  (rows.map fun row => (canonicalText (rowJson row)).flatMap units).mergeSort
    fun a b => decide (keyLE a b)

def ownershipGeneration (rows : List Verification) (tenantId targetId : JsString) : JsString :=
  sha256CanonicalJson P (.arr ((historyTexts (rows.filter (isOf tenantId targetId))).map .str))

/-- Nothing when the check is allowed, otherwise the seconds to wait. -/
def checkVerifyRateLimit (s : Store) (targetId : JsString) : Store × Option ℤ :=
  let fresh : Bucket := ⟨s.now,1⟩
  match s.verifyRateBuckets targetId with
  | none => ({ s with
      verifyRateBuckets := Function.update s.verifyRateBuckets targetId (some fresh) },none)
  | some bucket =>
      if verifyRateWindowMs ≤ s.now-bucket.windowStart then
        ({ s with
          verifyRateBuckets := Function.update s.verifyRateBuckets targetId (some fresh) },none)
      else
        let next : Bucket := ⟨bucket.windowStart,bucket.count+1⟩
        ({ s with
          verifyRateBuckets := Function.update s.verifyRateBuckets targetId (some next) },
          if verifyRateLimit < next.count then
            some ((verifyRateWindowMs-(s.now-bucket.windowStart)+999)/1000)
          else none)

def writeChallenge (s : Store) (c : Challenge) (f : Challenge → Challenge) : Store :=
  { s with dnsChallenges := Tables.update (isChallenge c.tenantId c.id) f s.dnsChallenges }

def expired (now : ℤ) (c : Challenge) : Challenge :=
  { c with
    state := .expired
    lastCheckedAt := some now
    lastCheck := some .expired }

def expireChallenge (s : Store) (c : Challenge) : Store × Response :=
  (writeChallenge s c (expired s.now),.expired (expired s.now c))

/-- A challenge that is no longer pending is reported as it is. -/
def settled (s : Store) (c : Challenge) : Response :=
  .settled (formatChallenge s c) (c.state = .resolved)

/-- `verifyChallenge` up to the lookup. -/
def beginVerify (s : Store) (tenantId userId challengeId targetGroupId : JsString) :
    Store × Begin :=
  match findChallenge s tenantId challengeId with
  | none => (s,.returned (.refused ⟨"challenge_not_found",404⟩))
  | some c =>
      if targetGroupId ≠ [] ∧ c.targetGroupId ≠ targetGroupId then
        (s,.returned (.refused ⟨"challenge_not_found",404⟩))
      else match findActiveTargetGroup s tenantId c.targetGroupId with
        | none => (s,.returned (.refused ⟨"target_group_not_found",404⟩))
        | some _ =>
            if c.targetId = [] then
              (s,.returned (.refused ⟨"challenge_target_not_bound",409⟩))
            else match findTarget s tenantId c.targetGroupId c.targetId with
              | none => (s,.returned (.refused ⟨"target_not_found",404⟩))
              | some target =>
                  if !dnsOwnershipChallengeMatchesTarget P c target then
                    (s,.returned (.refused ⟨"challenge_binding_changed",409⟩))
                  else if c.state ≠ .pending then (s,.returned (settled s c))
                  else if c.expiresAt ≤ s.now then
                    ((expireChallenge s c).1,.returned (expireChallenge s c).2)
                  else match checkVerifyRateLimit s c.targetId with
                    | (t,some wait) => (t,.returned (.rateLimited wait))
                    | (t,none) => (t,.lookup {
                        tenantId := tenantId
                        userId := userId
                        challengeId := challengeId
                        recordName := c.recordName
                        originalBinding := challengeBinding P c
                        originalTarget := canonicalText (dnsOwnershipLookupTarget P target)
                        originalOwnership :=
                          ownershipGeneration P s.targetVerifications tenantId target.id })

/-- The row that records the proof. -/
def verifiedRow (call : Captured) (c : Challenge) (ms : ℤ) (rowId auditId : JsString) :
    Verification where
  id := rowId
  tenantId := call.tenantId
  targetId := c.targetId
  state := js "dns_verified"
  sourceKind := js "dns_txt"
  sourceRef := .obj ((js "dns_challenge_id",.str c.id)::
    (c.binding.map fun b => (js "dns_target_binding",b.json)).toList)
  transitionedAt := P.toISOString ms
  transitionedBy := call.userId
  auditEntryId := auditId

def checkedChallenge (now : ℤ) (values : List JsString) (found timedOut : Bool) (c : Challenge) :
    Challenge :=
  { c with
    lastCheckedAt := some now
    lastCheck := some (.checked values found timedOut)
    state := if found then .resolved else c.state
    resolvedAt := if found then some now else c.resolvedAt }

/-- The decision, once every recheck has passed. -/
def decideVerify (s : Store) (call : Captured) (c : Challenge) (values : List JsString)
    (timedOut : Bool) (rowId auditId : JsString) : Store × Response × Option Verification :=
  if c.recordValue ∈ values then
    match allocateOwnershipTransitionAt s.targetVerifications call.tenantId c.targetId s.now with
    | none => (s,.threw "ownership_transition_invalid",none)
    | some ms =>
        let row := verifiedRow P call c ms rowId auditId
        ({ writeChallenge s c (checkedChallenge s.now values true timedOut) with
          targetVerifications := s.targetVerifications++[row] },
          .checked (checkedChallenge s.now values true timedOut c) true timedOut,some row)
  else
    (writeChallenge s c (checkedChallenge s.now values false timedOut),
      .checked (checkedChallenge s.now values false timedOut c) false timedOut,none)

/-- `verifyChallenge` after the lookup: everything is read again. -/
def finishVerify (s : Store) (call : Captured) (records : List (JsString ⊕ List JsString))
    (timedOut : Bool) (rowId auditId : JsString) : Store × Response × Option Verification :=
  match findChallenge s call.tenantId call.challengeId with
  | none => (s,.refused ⟨"challenge_not_found",404⟩,none)
  | some c =>
      if challengeBinding P c ≠ call.originalBinding then
        if c.state = .pending ∧ c.expiresAt ≤ s.now then
          ((expireChallenge s c).1,(expireChallenge s c).2,none)
        else (s,.refused ⟨"challenge_binding_changed",409⟩,none)
      else match findActiveTargetGroup s call.tenantId c.targetGroupId with
        | none => (s,.refused ⟨"target_group_not_found",404⟩,none)
        | some _ => match findTarget s call.tenantId c.targetGroupId c.targetId with
          | none => (s,.refused ⟨"target_not_found",404⟩,none)
          | some target =>
              if canonicalText (dnsOwnershipLookupTarget P target) ≠ call.originalTarget ∨
                  !dnsOwnershipChallengeMatchesTarget P c target then
                (s,.refused ⟨"challenge_binding_changed",409⟩,none)
              else if c.state ≠ .pending then (s,settled s c,none)
              else if c.expiresAt ≤ s.now then
                ((expireChallenge s c).1,(expireChallenge s c).2,none)
              else if ownershipGeneration P s.targetVerifications call.tenantId c.targetId ≠
                  call.originalOwnership then
                (s,.refused ⟨"ownership_state_changed",409⟩,none)
              else decideVerify P s call c (flattenTxtRecords records) timedOut rowId auditId

end Verify

end AstraNull.DnsOwnership
