import Mathlib
import AstraNull.AuditLog
import AstraNull.ProbeProfile

/-!
# Retention of a tenant's metadata

`services/privacyRetention.mjs`: the rows of a tenant that are older than its settings allow are
removed from four collections, from the origin clues and from the batches that brought them. A
batch that still owns a clue stays with its reply blanked. A legal hold keeps everything.

Dates belong to the platform. A collection that is missing is empty.
-/
namespace AstraNull.PrivacyRetention
open JsonText ScriptText ScriptValue ScriptObject AuditLog
open ProbeProfile (numeral)

structure Platform extends AuditLog.Platform where
  /-- `new Date(value).getTime()`, nothing when it is not finite. -/
  dateOf : JsVal → Option ℤ
  toISOString : ℤ → JsString

/-- `Math.trunc`. -/
def trunc (q : ℚ) : ℤ := if q < 0 then ⌈q⌉ else ⌊q⌋

def clampRetentionDays (value : JsVal) (fallback min max : ℕ) : ℕ :=
  match value with
  | .num n =>
      let days := trunc (rational n)
      if days < min then min else if max < days then max else days.toNat
  | _ => fallback

structure EvidenceRetention where
  auditLogDays : ℕ
  highScaleArtifactDays : ℕ
  reportDays : ℕ
  legalHold : Bool

def normalizeEvidenceRetention (input : JsVal) : EvidenceRetention :=
  let source := if isObject input then input else .obj []
  ⟨clampRetentionDays (field source "audit_log_days") 2555 365 3650,
    clampRetentionDays (field source "high_scale_artifact_days") 2555 365 3650,
    clampRetentionDays (field source "report_days") 365 30 3650,
    truthy (field source "legal_hold")⟩

def EvidenceRetention.toJs (e : EvidenceRetention) : JsVal :=
  .obj [(js "audit_log_days",numeral e.auditLogDays),
    (js "high_scale_artifact_days",numeral e.highScaleArtifactDays),
    (js "report_days",numeral e.reportDays),(js "legal_hold",.bool e.legalHold)]

def defaultPrivacy : JsVal :=
  .obj [(js "store_packet_payloads",.bool false),(js "metadata_retention_days",numeral 365),
    (js "evidence_retention_days",numeral 1825),(js "audit_retention_days",numeral 2555),
    (js "redact_headers_by_default",.bool true)]

structure Privacy where
  /-- The settings as given, over the defaults. -/
  merged : JsVal
  metadataRetentionDays : ℕ
  evidenceRetentionDays : ℕ
  auditRetentionDays : ℕ
  storePacketPayloads : Bool
  redactHeadersByDefault : Bool
  evidenceRetention : EvidenceRetention

def normalizePrivacySettings (input : JsVal) : Privacy :=
  let merged := assigned defaultPrivacy (if isObject input then input else .obj [])
  ⟨merged,clampRetentionDays (field merged "metadata_retention_days") 365 1 3650,
    clampRetentionDays (field merged "evidence_retention_days") 1825 30 3650,
    clampRetentionDays (field merged "audit_retention_days") 2555 365 3650,
    truthy (field merged "store_packet_payloads"),
    !isFalse (field merged "redact_headers_by_default"),
    normalizeEvidenceRetention (field merged "evidence_retention")⟩

/-- The settings as they are stored. -/
def Privacy.toJs (p : Privacy) : JsVal :=
  [("metadata_retention_days",numeral p.metadataRetentionDays),
    ("evidence_retention_days",numeral p.evidenceRetentionDays),
    ("audit_retention_days",numeral p.auditRetentionDays),
    ("store_packet_payloads",.bool p.storePacketPayloads),
    ("redact_headers_by_default",.bool p.redactHeadersByDefault),
    ("evidence_retention",p.evidenceRetention.toJs)].foldl (fun v q => put v q.1 q.2) p.merged

def getEffectiveReportRetentionDays (p : Privacy) : ℕ :=
  max p.metadataRetentionDays p.evidenceRetention.reportDays

def metadataCutoffMs (p : Privacy) (now : ℤ) : ℤ := now-p.metadataRetentionDays*86400000

def reportCutoffMs (p : Privacy) (now : ℤ) : ℤ :=
  now-getEffectiveReportRetentionDays p*86400000

/-- A clue as far as its retention reads it. -/
structure Clue where
  id : JsString
  tenantId : JsString
  targetId : JsString
  batchId : JsString
  retrievedAt : JsVal
  content : JsVal

/-- The copy of a clue in a reply. -/
structure Copy where
  id : JsString
  retrievedAt : JsVal
  content : JsVal

/-- The reply kept for a repeated request: as the service built it, or the notice that replaces
it. -/
inductive Response where
  | saved (items : List Copy) (content : JsVal)
  | expired

def Response.items : Response → List Copy
  | .saved items _ => items
  | .expired => []

def Response.isExpired : Response → Bool
  | .saved _ _ => false
  | .expired => true

structure Batch where
  id : JsString
  tenantId : JsString
  targetId : JsString
  createdAt : JsVal
  response : Option Response
  content : JsVal

/-- The collections that retention purges. -/
structure Contents where
  events : List JsVal
  evidenceVault : List JsVal
  reports : List JsVal
  notificationEvents : List JsVal
  originClues : List Clue
  originClueBatches : List Batch

/-- The collections that it protects, besides the audit log. -/
structure Governance where
  highScaleRequests : List JsVal
  highScaleAuthorizationArtifacts : List JsVal
  socNotes : List JsVal
  socReports : List JsVal
  findings : List JsVal
  testRuns : List JsVal

structure Store where
  tenants : List JsVal
  contents : Contents
  governance : Governance
  auditLog : List JsVal
  lifecycleGenerations : JsString → ℕ

section Purge
variable (P : Platform)

/-- The time that decides about a row; nothing when it has none that can be read. -/
def retentionTime (value : JsVal) : Option ℤ :=
  if nullish value || is value "" then none else P.dateOf value

def expired (value : JsVal) (cutoff : ℤ) : Bool := (retentionTime P value).any fun t => t < cutoff

def ownedBy (tenantId : JsString) (row : JsVal) : Bool :=
  strictEq (field row "tenant_id") (.str tenantId)

/-- The rows that stay, and how many do not. -/
def purge (rows : List JsVal) (tenantId : JsString) (name : String) (cutoff : ℤ) :
    List JsVal × ℕ :=
  let kept := rows.filter fun row => !ownedBy tenantId row || !expired P (field row name) cutoff
  (kept,rows.length-kept.length)

inductive Fate where
  | kept
  | blanked
  | removed
deriving DecidableEq

def hasChildren (tenantId : JsString) (keptClues : List Clue) (batch : Batch) : Bool :=
  keptClues.any fun clue => clue.tenantId = tenantId && clue.targetId = batch.targetId &&
    clue.batchId = batch.id

def batchFate (tenantId : JsString) (cutoff : ℤ) (erase : Bool) (removedIds : List JsString)
    (keptClues : List Clue) (batch : Batch) : Fate :=
  if batch.tenantId ≠ tenantId then .kept
  else
    let old := expired P batch.createdAt cutoff
    if erase || (old && !hasChildren tenantId keptClues batch) then .removed
    else
      let hasExpiredCopy := (batch.response.elim [] Response.items).any fun item =>
        removedIds.contains item.id || expired P item.retrievedAt cutoff
      if (old || hasExpiredCopy) && !batch.response.any Response.isExpired then .blanked
      else .kept

def Batch.after (batch : Batch) : Fate → Option Batch
  | .kept => some batch
  | .blanked => some { batch with response := some .expired }
  | .removed => none

structure OriginPlan where
  originClues : List Clue
  originClueBatches : List Batch
  removedClues : ℕ
  removedBatches : ℕ
  blankedResponses : ℕ

def removedClues (c : Contents) (tenantId : JsString) (cutoff : ℤ) (erase : Bool) : List Clue :=
  c.originClues.filter fun clue =>
    clue.tenantId = tenantId && (erase || expired P clue.retrievedAt cutoff)

def removedIds (c : Contents) (tenantId : JsString) (cutoff : ℤ) (erase : Bool) : List JsString :=
  (removedClues P c tenantId cutoff erase).map Clue.id

def keptClues (c : Contents) (tenantId : JsString) (cutoff : ℤ) (erase : Bool) : List Clue :=
  c.originClues.filter fun clue =>
    clue.tenantId ≠ tenantId || !(removedIds P c tenantId cutoff erase).contains clue.id

def planOriginClueLifecycle (c : Contents) (tenantId : JsString) (cutoff : ℤ) (erase : Bool) :
    OriginPlan :=
  let fate := batchFate P tenantId cutoff erase (removedIds P c tenantId cutoff erase)
    (keptClues P c tenantId cutoff erase)
  ⟨keptClues P c tenantId cutoff erase,
    c.originClueBatches.filterMap fun batch => batch.after (fate batch),
    (removedClues P c tenantId cutoff erase).length,
    c.originClueBatches.countP fun batch => fate batch = .removed,
    c.originClueBatches.countP fun batch => fate batch = .blanked⟩

structure Counts where
  events : ℕ
  evidenceVault : ℕ
  reports : ℕ
  notificationEvents : ℕ
  originClues : ℕ
  originClueBatches : ℕ
  originClueResponses : ℕ
deriving DecidableEq

def Counts.zeros : Counts := ⟨0,0,0,0,0,0,0⟩

def totalRetentionCounts (c : Counts) : ℕ :=
  c.events+c.evidenceVault+c.reports+c.notificationEvents+c.originClues+c.originClueBatches+
    c.originClueResponses

/-- The collections without what has expired, and the counts. -/
def retentionPlan (c : Contents) (tenantId : JsString) (p : Privacy) (now : ℤ) :
    Contents × Counts :=
  let events := purge P c.events tenantId "timestamp" (metadataCutoffMs p now)
  let evidenceVault := purge P c.evidenceVault tenantId "created_at" (metadataCutoffMs p now)
  let reports := purge P c.reports tenantId "created_at" (reportCutoffMs p now)
  let notificationEvents :=
    purge P c.notificationEvents tenantId "created_at" (metadataCutoffMs p now)
  let origin := planOriginClueLifecycle P c tenantId (metadataCutoffMs p now) false
  (⟨events.1,evidenceVault.1,reports.1,notificationEvents.1,origin.originClues,
      origin.originClueBatches⟩,
    ⟨events.2,evidenceVault.2,reports.2,notificationEvents.2,origin.removedClues,
      origin.removedBatches,origin.blankedResponses⟩)

end Purge

def Counts.toJs (c : Counts) : JsVal :=
  .obj [(js "events",numeral c.events),(js "evidenceVault",numeral c.evidenceVault),
    (js "reports",numeral c.reports),(js "notificationEvents",numeral c.notificationEvents),
    (js "originClues",numeral c.originClues),(js "originClueBatches",numeral c.originClueBatches),
    (js "originClueResponses",numeral c.originClueResponses)]

def protectedGovernanceCollections : List String :=
  ["auditLog","highScaleRequests","highScaleAuthorizationArtifacts","socNotes","socReports",
    "findings","testRuns"]

def deletionCollections : List String :=
  ["events","evidenceVault","reports","notificationEvents","connectorPollJobs",
    "connectorSnapshots","originClues","originClueBatches"]

def buildRetentionPolicySnapshot (tenant : JsVal) : JsVal :=
  let p := normalizePrivacySettings (orElse (field tenant "privacy_settings") (.obj []))
  .obj [(js "tenant_id",field tenant "id"),
    (js "metadata_retention_days",numeral p.metadataRetentionDays),
    (js "evidence_retention",p.evidenceRetention.toJs),
    (js "protected_collections",.arr (protectedGovernanceCollections.map fun s => .str (js s))),
    (js "deletion_collections",.arr (deletionCollections.map fun s =>
      .obj [(js "collection",.str (js s)),
        (js "effective_retention_days",numeral (if s = "reports"
          then getEffectiveReportRetentionDays p else p.metadataRetentionDays))]))]

structure AuditContext where
  userId : JsVal
  role : JsVal

def eventFor (tenantId : JsString) (ctx : AuditContext) (action : String) (metadata : JsVal) :
    JsVal :=
  .obj [(js "tenant_id",.str tenantId),(js "actor_user_id",orElse ctx.userId .null),
    (js "actor_role",orElse ctx.role (.str (js "system"))),(js "action",.str (js action)),
    (js "resource_type",.str (js "tenant")),(js "resource_id",.str tenantId),
    (js "metadata",metadata)]

structure Options where
  now : ℤ
  tenantUpdate : JsVal
  auditEvents : List JsVal
  /-- The ids of the records that the call writes. -/
  newId : ℕ → JsString

structure Reply where
  tenantId : JsString
  deleted : Counts
  metadataRetentionDays : ℕ
  evidenceRetention : EvidenceRetention
  policySnapshot : JsVal
  legalHold : Bool

/-- What a call stages; a collection that is left out stays. -/
structure Changes where
  tenants : List JsVal
  contents : Option Contents
  auditLog : Option (List JsVal)

def commitDevStoreChanges (store : Store) (changes : Changes) : Store :=
  { store with
    tenants := changes.tenants
    contents := changes.contents.getD store.contents
    auditLog := changes.auditLog.getD store.auditLog }

def advanceTenantLifecycleGeneration (store : Store) (tenantId : JsString) : Store :=
  { store with lifecycleGenerations := fun id =>
      store.lifecycleGenerations id+if id = tenantId then 1 else 0 }

section Enforce
variable (P : Platform)

def chainedAudit (log : List JsVal) (audits : List Audit) : List JsVal :=
  audits.foldl (fun result a => result++[buildAuditRecord P.toPlatform a.entry
    (lastChainedEntry result) a.id a.timestamp]) log

def isTenant (tenantId : JsString) (row : JsVal) : Bool :=
  strictEq (field row "id") (.str tenantId)

/-- The tenant with the update over it, before its settings are normalised. -/
def updated (current : JsVal) (o : Options) : JsVal := assigned current o.tenantUpdate

/-- The settings that the call enforces. -/
def settings (current : JsVal) (o : Options) : Privacy :=
  normalizePrivacySettings (field (updated current o) "privacy_settings")

def staged (current : JsVal) (o : Options) : JsVal :=
  put (updated current o) "privacy_settings" (settings current o).toJs

/-- The entry of the call itself. -/
def retentionEvent (tenantId : JsString) (ctx : AuditContext) (tenant : JsVal) (p : Privacy)
    (candidates : Counts) : JsVal :=
  let held := p.evidenceRetention.legalHold
  eventFor tenantId ctx (if held then "privacy.retention_legal_hold"
      else "privacy.retention_purged")
    (.obj ([(js "deleted",(if held then Counts.zeros else candidates).toJs)]++
      (if held then [(js "blocked_deletions",candidates.toJs)] else [])++
      [(js "metadata_retention_days",numeral p.metadataRetentionDays),
        (js "policy_snapshot",buildRetentionPolicySnapshot tenant)]))

def auditEntries (tenantId : JsString) (ctx : AuditContext) (o : Options) (tenant : JsVal)
    (p : Privacy) (candidates : Counts) : List JsVal :=
  o.auditEvents++if totalRetentionCounts candidates = 0 then []
    else [retentionEvent tenantId ctx tenant p candidates]

def asAudits (o : Options) (entries : List JsVal) : List Audit :=
  entries.zipIdx.map fun e => ⟨e.1,o.newId e.2,P.toISOString o.now⟩

/-- What the call would remove. -/
def candidates (store : Store) (tenantId : JsString) (o : Options) (current : JsVal) : Counts :=
  (retentionPlan P store.contents tenantId (settings current o) o.now).2

/-- What it removes. -/
def deleted (store : Store) (tenantId : JsString) (o : Options) (current : JsVal) : Counts :=
  if (settings current o).evidenceRetention.legalHold then Counts.zeros
  else candidates P store tenantId o current

def entriesOf (store : Store) (tenantId : JsString) (ctx : AuditContext) (o : Options)
    (current : JsVal) : List JsVal :=
  auditEntries tenantId ctx o (staged current o) (settings current o)
    (candidates P store tenantId o current)

def changesOf (store : Store) (tenantId : JsString) (ctx : AuditContext) (o : Options)
    (current : JsVal) : Changes where
  tenants := store.tenants.map fun item =>
    if isTenant tenantId item then staged current o else item
  contents := if !(settings current o).evidenceRetention.legalHold &&
      totalRetentionCounts (candidates P store tenantId o current) ≠ 0
    then some (retentionPlan P store.contents tenantId (settings current o) o.now).1 else none
  auditLog := if entriesOf P store tenantId ctx o current ≠ []
    then some (chainedAudit P store.auditLog
      (asAudits P o (entriesOf P store tenantId ctx o current)))
    else none

def commits (store : Store) (tenantId : JsString) (ctx : AuditContext) (o : Options)
    (current : JsVal) : Bool :=
  entriesOf P store tenantId ctx o current ≠ [] ||
    stringify current ≠ stringify (staged current o) ||
    totalRetentionCounts (deleted P store tenantId o current) ≠ 0

def enforceMetadataRetentionForTenant (store : Store) (tenantId : JsString) (ctx : AuditContext)
    (o : Options) : Option Reply × Store :=
  match store.tenants.find? (isTenant tenantId) with
  | none => (none,store)
  | some current =>
      let p := settings current o
      (some ⟨tenantId,deleted P store tenantId o current,p.metadataRetentionDays,
          p.evidenceRetention,buildRetentionPolicySnapshot (staged current o),
          p.evidenceRetention.legalHold⟩,
        if commits P store tenantId ctx o current then
          advanceTenantLifecycleGeneration
            (commitDevStoreChanges store (changesOf P store tenantId ctx o current)) tenantId
        else store)

end Enforce

end AstraNull.PrivacyRetention
