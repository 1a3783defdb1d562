import Mathlib
import AstraNull.AuditChain
import AstraNull.PrivacyRetention

/-!
# What retention removes, and what it leaves

After a call no row of the tenant is older than its settings allow, unless a legal hold keeps
everything; rows of other tenants stay, the audit log grows by records that verify, and a second
call finds nothing to remove.
-/
namespace AstraNull.RetentionFrame
open JsonText CanonicalJson ScriptText ScriptValue ScriptObject AuditChain PrivacyRetention
open AuditLog hiding Platform
open ProbeProfile (numeral)

theorem numeral_spec {k : ℕ} (hpos : 0 < k) (hk : k < 2^53) :
    ∃ n,numeral k = .num n ∧ rational n = k := by
  obtain ⟨x,hx,hof⟩ := NumberText.Number.exists_natural hpos hk
  exact ⟨.nonzero false x,by rw [numeral,hof]; rfl,hx⟩

theorem trunc_natCast (k : ℕ) : trunc (k : ℚ) = k := by
  rw [trunc,if_neg (not_lt.mpr (Nat.cast_nonneg k))]
  exact Int.floor_natCast k

section Clamp
variable {fallback min max : ℕ}

theorem clampRetentionDays_numeral {days : ℕ} (hpos : 0 < days) (hsmall : days < 2^53)
    (hmin : min ≤ days) (hmax : days ≤ max) :
    clampRetentionDays (numeral days) fallback min max = days := by
  obtain ⟨n,hn,hval⟩ := numeral_spec hpos hsmall
  rw [hn]
  simp only [clampRetentionDays,hval,trunc_natCast]
  rw [if_neg (by omega),if_neg (by omega),Int.toNat_natCast]

variable (hlow : min ≤ fallback) (hhigh : fallback ≤ max)
include hlow hhigh

theorem clampRetentionDays_mem (value : JsVal) :
    min ≤ clampRetentionDays value fallback min max ∧
      clampRetentionDays value fallback min max ≤ max := by
  cases value with
  | num n =>
      simp only [clampRetentionDays]
      split_ifs with h h'
      · exact ⟨le_refl _,hlow.trans hhigh⟩
      · exact ⟨hlow.trans hhigh,le_refl _⟩
      · omega
  | _ => exact ⟨hlow,hhigh⟩

theorem clampRetentionDays_idem (hpos : 0 < min) (hmax : max < 2^53) (value : JsVal) :
    clampRetentionDays (numeral (clampRetentionDays value fallback min max)) fallback min max =
      clampRetentionDays value fallback min max := by
  obtain ⟨h,h'⟩ := clampRetentionDays_mem hlow hhigh value
  exact clampRetentionDays_numeral (hpos.trans_le h) (h'.trans_lt hmax) h h'

end Clamp

theorem normalizeEvidenceRetention_idem (input : JsVal) :
    normalizeEvidenceRetention (normalizeEvidenceRetention input).toJs =
      normalizeEvidenceRetention input := by
  generalize he : normalizeEvidenceRetention input = e
  have hobject : isObject e.toJs = true := rfl
  have hlog : field e.toJs "audit_log_days" = numeral e.auditLogDays := rfl
  have hartifact : field e.toJs "high_scale_artifact_days" = numeral e.highScaleArtifactDays := rfl
  have hreport : field e.toJs "report_days" = numeral e.reportDays := rfl
  have hhold : field e.toJs "legal_hold" = .bool e.legalHold := rfl
  rw [normalizeEvidenceRetention]
  simp only [hobject,if_true,hlog,hartifact,hreport,hhold,truthy]
  subst he
  simp only [normalizeEvidenceRetention]
  rw [clampRetentionDays_idem (by norm_num) (by norm_num) (by norm_num) (by norm_num),
    clampRetentionDays_idem (by norm_num) (by norm_num) (by norm_num) (by norm_num),
    clampRetentionDays_idem (by norm_num) (by norm_num) (by norm_num) (by norm_num)]

theorem field_toJs_days (p : Privacy) :
    field p.toJs "metadata_retention_days" = numeral p.metadataRetentionDays := by
  simp only [Privacy.toJs,List.foldl_cons,List.foldl_nil]
  repeat rw [field_put_other (by decide)]
  rw [field_put_self]

theorem field_toJs_evidence (p : Privacy) :
    field p.toJs "evidence_retention" = p.evidenceRetention.toJs := by
  simp only [Privacy.toJs,List.foldl_cons,List.foldl_nil,field_put_self]

/-- Settings that were normalised keep what decides about retention. -/
theorem normalizePrivacySettings_idem (input : JsVal) :
    (normalizePrivacySettings (normalizePrivacySettings input).toJs).metadataRetentionDays =
        (normalizePrivacySettings input).metadataRetentionDays ∧
      (normalizePrivacySettings (normalizePrivacySettings input).toJs).evidenceRetention =
        (normalizePrivacySettings input).evidenceRetention := by
  generalize hp : normalizePrivacySettings input = p
  have hobject : isObject p.toJs = true := rfl
  have hread : ∀ {name x},field p.toJs name = x → x.isUndefined = false →
      field (assigned defaultPrivacy p.toJs) name = x := by
    intro name x hx hdefined
    rw [field_assigned,if_pos (has_of_field (by rw [hx,hdefined])),hx]
  constructor
  · simp only [normalizePrivacySettings,hobject,if_true]
    rw [hread (field_toJs_days p) rfl,← hp,normalizePrivacySettings]
    exact clampRetentionDays_idem (by norm_num) (by norm_num) (by norm_num) (by norm_num) _
  · simp only [normalizePrivacySettings,hobject,if_true]
    rw [hread (field_toJs_evidence p) rfl,← hp,normalizePrivacySettings]
    exact normalizeEvidenceRetention_idem _

section Rows
variable (P : Platform) {tenantId : JsString}

theorem expired_eq_false {value : JsVal} {cutoff : ℤ} :
    expired P value cutoff = false ↔ ∀ t ∈ retentionTime P value,cutoff ≤ t := by
  rw [expired]
  cases retentionTime P value <;> simp

variable {rows : List JsVal} {name : String} {cutoff : ℤ}

theorem purge_current : ∀ row ∈ (purge P rows tenantId name cutoff).1,
    ownedBy tenantId row = true → ∀ t ∈ retentionTime P (field row name),cutoff ≤ t := by
  intro row hrow howned
  have hkeep := (List.mem_filter.mp hrow).2
  rw [howned] at hkeep
  exact (expired_eq_false P).mp (by simpa using hkeep)

theorem purge_foreign : (purge P rows tenantId name cutoff).1.filter (fun row =>
    !ownedBy tenantId row) = rows.filter fun row => !ownedBy tenantId row := by
  rw [purge,List.filter_filter]
  refine List.filter_congr fun row _ => ?_
  cases ownedBy tenantId row <;> simp

theorem purge_none (h : (purge P rows tenantId name cutoff).2 = 0) :
    (purge P rows tenantId name cutoff).1 = rows := by
  have hsub : ((purge P rows tenantId name cutoff).1).Sublist rows := List.filter_sublist
  refine hsub.eq_of_length_le ?_
  change rows.length-(purge P rows tenantId name cutoff).1.length = 0 at h
  omega

theorem purge_again : purge P (purge P rows tenantId name cutoff).1 tenantId name cutoff =
    ((purge P rows tenantId name cutoff).1,0) := by
  have hfix : (purge P (purge P rows tenantId name cutoff).1 tenantId name cutoff).1 =
      (purge P rows tenantId name cutoff).1 := by
    rw [purge,List.filter_eq_self]
    intro row hrow
    exact (List.mem_filter.mp hrow).2
  refine Prod.ext hfix ?_
  change (purge P rows tenantId name cutoff).1.length-
    (purge P (purge P rows tenantId name cutoff).1 tenantId name cutoff).1.length = 0
  rw [hfix]
  exact Nat.sub_self _

end Rows

section Clues
variable (P : Platform) {c : Contents} {tenantId : JsString} {cutoff : ℤ}

theorem mem_removedIds {clue : Clue} (hin : clue ∈ c.originClues)
    (htenant : clue.tenantId = tenantId) (hold : expired P clue.retrievedAt cutoff = true) :
    clue.id ∈ removedIds P c tenantId cutoff false :=
  List.mem_map_of_mem (List.mem_filter.mpr ⟨hin,by simp [htenant,hold]⟩)

theorem removed_of_not_kept {clue : Clue} (hin : clue ∈ c.originClues)
    (hgone : clue ∉ keptClues P c tenantId cutoff false) :
    clue.id ∈ removedIds P c tenantId cutoff false := by
  by_contra hid
  exact hgone (List.mem_filter.mpr ⟨hin,by simp [hid]⟩)

theorem keptClues_current : ∀ clue ∈ keptClues P c tenantId cutoff false,
    clue.tenantId = tenantId → ∀ t ∈ retentionTime P clue.retrievedAt,cutoff ≤ t := by
  intro clue hclue htenant
  obtain ⟨hin,hkeep⟩ := List.mem_filter.mp hclue
  refine (expired_eq_false P).mp ?_
  by_contra hold
  have hid := mem_removedIds P hin htenant (by simpa using hold)
  simp [htenant,hid] at hkeep

theorem keptClues_foreign : (keptClues P c tenantId cutoff false).filter (fun clue =>
    decide (clue.tenantId ≠ tenantId)) =
      c.originClues.filter fun clue => decide (clue.tenantId ≠ tenantId) := by
  rw [keptClues,List.filter_filter]
  refine List.filter_congr fun clue _ => ?_
  by_cases htenant : clue.tenantId = tenantId <;> simp [htenant]

theorem keptClues_none (h : removedClues P c tenantId cutoff false = []) :
    keptClues P c tenantId cutoff false = c.originClues := by
  rw [keptClues,List.filter_eq_self]
  simp [removedIds,h]

theorem removedClues_again {c' : Contents}
    (h : c'.originClues = keptClues P c tenantId cutoff false) :
    removedClues P c' tenantId cutoff false = [] := by
  rw [removedClues,h,List.filter_eq_nil_iff]
  intro clue hclue hremoved
  simp only [Bool.false_or,Bool.and_eq_true,decide_eq_true_eq] at hremoved
  have hnot := (expired_eq_false P).mpr (keptClues_current P clue hclue hremoved.1)
  rw [hnot] at hremoved
  exact absurd hremoved.2 Bool.false_ne_true

end Clues

section Batches
variable (P : Platform) {tenantId : JsString} {cutoff : ℤ} {ids : List JsString}
  {clues : List Clue} {batch : Batch}

/-- A copy in the reply that must not stay. -/
def staleCopy (P : Platform) (ids : List JsString) (cutoff : ℤ) (batch : Batch) : Bool :=
  (batch.response.elim [] Response.items).any fun item =>
    ids.contains item.id || expired P item.retrievedAt cutoff

theorem batchFate_foreign (h : batch.tenantId ≠ tenantId) :
    batchFate P tenantId cutoff false ids clues batch = .kept := if_pos h

theorem batchFate_own (h : batch.tenantId = tenantId) :
    batchFate P tenantId cutoff false ids clues batch =
      if expired P batch.createdAt cutoff && !hasChildren tenantId clues batch then .removed
      else if (expired P batch.createdAt cutoff || staleCopy P ids cutoff batch) &&
        !batch.response.any Response.isExpired then .blanked else .kept := by
  rw [batchFate,if_neg (not_not.mpr h)]
  rfl

theorem items_of_isExpired (h : batch.response.any Response.isExpired = true) :
    batch.response.elim [] Response.items = [] := by
  cases hr : batch.response with
  | none => rfl
  | some r =>
      rw [hr] at h
      cases r with
      | saved items content => cases h
      | expired => rfl

theorem owns_of_stays {left : Batch} (h : batch.tenantId = tenantId)
    (hleft : left ∈ batch.after (batchFate P tenantId cutoff false ids clues batch)) :
    expired P batch.createdAt cutoff = true → hasChildren tenantId clues batch = true := by
  intro hold
  by_contra hchildless
  rw [batchFate_own P h,if_pos (by simp [hold,hchildless])] at hleft
  cases hleft

theorem fresh_of_stays {left : Batch} (h : batch.tenantId = tenantId)
    (hleft : left ∈ batch.after (batchFate P tenantId cutoff false ids clues batch)) :
    staleCopy P ids cutoff left = false := by
  rw [batchFate_own P h] at hleft
  split_ifs at hleft with hgone hblank
  · cases hleft
  · cases hleft
    rfl
  · cases hleft
    by_contra hstale
    have hexpired : batch.response.any Response.isExpired = true := by
      by_contra hsaved
      exact hblank (by simp [Bool.not_eq_true] at hsaved hstale; simp [hsaved,hstale])
    rw [staleCopy,items_of_isExpired hexpired] at hstale
    exact hstale rfl

/-- What a batch keeps: its reply may be blanked. -/
theorem after_same {left : Batch} {fate : Fate} (h : left ∈ batch.after fate) :
    left.id = batch.id ∧ left.tenantId = batch.tenantId ∧ left.targetId = batch.targetId ∧
      left.createdAt = batch.createdAt := by
  cases fate <;> cases h <;> exact ⟨rfl,rfl,rfl,rfl⟩

theorem fate_again {left : Batch}
    (hleft : left ∈ batch.after (batchFate P tenantId cutoff false ids clues batch)) :
    batchFate P tenantId cutoff false [] clues left = .kept := by
  obtain ⟨hid,htenant,htarget,hcreated⟩ := after_same hleft
  by_cases h : batch.tenantId = tenantId
  · have hchildren : hasChildren tenantId clues left = hasChildren tenantId clues batch := by
      rw [hasChildren,hasChildren,htarget,hid]
    have howns := owns_of_stays P h hleft
    have hfresh := fresh_of_stays P h hleft
    have hnone : staleCopy P [] cutoff left = false := by
      rw [staleCopy,List.any_eq_false] at hfresh ⊢
      intro item hitem
      have := hfresh item hitem
      simp_all
    have hnotOld : expired P batch.createdAt cutoff = true →
        left.response.any Response.isExpired = true := by
      intro hold
      by_contra hsaved
      rw [batchFate_own P h] at hleft
      split_ifs at hleft with hgone hblank
      · cases hleft
      · cases hleft
        exact hsaved rfl
      · cases hleft
        exact hblank (by simp [hold,Bool.not_eq_true] at hsaved ⊢; exact hsaved)
    rw [batchFate_own P (htenant.trans h),hcreated,hchildren,hnone]
    cases hold : expired P batch.createdAt cutoff with
    | false => simp
    | true => simp [howns hold,hnotOld hold]
  · exact batchFate_foreign P (by rwa [htenant])

end Batches

/-- No row of the tenant is older than the settings allow, except a batch that still owns a clue,
and no reply of a batch holds a copy of a clue that is gone or too old. -/
structure Complete (P : Platform) (tenantId : JsString) (p : Privacy) (now : ℤ)
    (before after : Contents) : Prop where
  events : ∀ row ∈ after.events,ownedBy tenantId row = true →
    ∀ t ∈ retentionTime P (field row "timestamp"),metadataCutoffMs p now ≤ t
  evidenceVault : ∀ row ∈ after.evidenceVault,ownedBy tenantId row = true →
    ∀ t ∈ retentionTime P (field row "created_at"),metadataCutoffMs p now ≤ t
  reports : ∀ row ∈ after.reports,ownedBy tenantId row = true →
    ∀ t ∈ retentionTime P (field row "created_at"),reportCutoffMs p now ≤ t
  notificationEvents : ∀ row ∈ after.notificationEvents,ownedBy tenantId row = true →
    ∀ t ∈ retentionTime P (field row "created_at"),metadataCutoffMs p now ≤ t
  originClues : ∀ clue ∈ after.originClues,clue.tenantId = tenantId →
    ∀ t ∈ retentionTime P clue.retrievedAt,metadataCutoffMs p now ≤ t
  originClueBatches : ∀ batch ∈ after.originClueBatches,batch.tenantId = tenantId →
    (∀ t ∈ retentionTime P batch.createdAt,metadataCutoffMs p now ≤ t) ∨
      ∃ clue ∈ after.originClues,clue.tenantId = tenantId ∧ clue.targetId = batch.targetId ∧
        clue.batchId = batch.id
  copies : ∀ batch ∈ after.originClueBatches,batch.tenantId = tenantId →
    ∀ item ∈ batch.response.elim [] Response.items,
      (∀ t ∈ retentionTime P item.retrievedAt,metadataCutoffMs p now ≤ t) ∧
        ∀ clue ∈ before.originClues,clue ∉ after.originClues → item.id ≠ clue.id

/-- The rows of other tenants, in their order. -/
structure ForeignKept (tenantId : JsString) (before after : Contents) : Prop where
  events : after.events.filter (fun row => !ownedBy tenantId row) =
    before.events.filter fun row => !ownedBy tenantId row
  evidenceVault : after.evidenceVault.filter (fun row => !ownedBy tenantId row) =
    before.evidenceVault.filter fun row => !ownedBy tenantId row
  reports : after.reports.filter (fun row => !ownedBy tenantId row) =
    before.reports.filter fun row => !ownedBy tenantId row
  notificationEvents : after.notificationEvents.filter (fun row => !ownedBy tenantId row) =
    before.notificationEvents.filter fun row => !ownedBy tenantId row
  originClues : after.originClues.filter (fun clue => decide (clue.tenantId ≠ tenantId)) =
    before.originClues.filter fun clue => decide (clue.tenantId ≠ tenantId)
  originClueBatches :
    after.originClueBatches.filter (fun batch => decide (batch.tenantId ≠ tenantId)) =
      before.originClueBatches.filter fun batch => decide (batch.tenantId ≠ tenantId)

section Plan
variable (P : Platform) (c : Contents) (tenantId : JsString) (p : Privacy) (now : ℤ)

theorem plan_batches : (retentionPlan P c tenantId p now).1.originClueBatches =
    c.originClueBatches.filterMap fun batch => batch.after (batchFate P tenantId
      (metadataCutoffMs p now) false (removedIds P c tenantId (metadataCutoffMs p now) false)
      (keptClues P c tenantId (metadataCutoffMs p now) false) batch) := rfl

theorem plan_complete : Complete P tenantId p now c (retentionPlan P c tenantId p now).1 where
  events := purge_current P
  evidenceVault := purge_current P
  reports := purge_current P
  notificationEvents := purge_current P
  originClues := keptClues_current P
  originClueBatches := by
    intro left hleft htenant
    rw [plan_batches] at hleft
    obtain ⟨batch,hbatch,hafter⟩ := List.mem_filterMap.mp hleft
    obtain ⟨hid,hsame,htarget,hcreated⟩ := after_same hafter
    rw [hcreated,hid,htarget]
    cases hold : expired P batch.createdAt (metadataCutoffMs p now) with
    | false => exact .inl ((expired_eq_false P).mp hold)
    | true =>
        right
        obtain ⟨clue,hclue,hown⟩ :=
          List.any_eq_true.mp (owns_of_stays P (hsame.symm.trans htenant) hafter hold)
        simp only [Bool.and_eq_true,decide_eq_true_eq] at hown
        exact ⟨clue,hclue,hown.1.1,hown.1.2,hown.2⟩
  copies := by
    intro left hleft htenant item hitem
    rw [plan_batches] at hleft
    obtain ⟨batch,hbatch,hafter⟩ := List.mem_filterMap.mp hleft
    obtain ⟨-,hsame,-⟩ := after_same hafter
    have hfresh := fresh_of_stays P (hsame.symm.trans htenant) hafter
    rw [staleCopy,List.any_eq_false] at hfresh
    have hcopy := hfresh item hitem
    simp only [Bool.or_eq_true,not_or,Bool.not_eq_true,List.contains_iff_mem] at hcopy
    refine ⟨(expired_eq_false P).mp hcopy.2,?_⟩
    intro clue hclue hgone hid
    have hremoved := removed_of_not_kept P hclue hgone
    rw [← hid] at hremoved
    exact hcopy.1 hremoved

theorem plan_foreign : ForeignKept tenantId c (retentionPlan P c tenantId p now).1 where
  events := purge_foreign P
  evidenceVault := purge_foreign P
  reports := purge_foreign P
  notificationEvents := purge_foreign P
  originClues := keptClues_foreign P
  originClueBatches := by
    rw [plan_batches]
    induction c.originClueBatches with
    | nil => rfl
    | cons batch batches ih =>
        by_cases htenant : batch.tenantId = tenantId
        · rw [List.filterMap_cons,List.filter_cons_of_neg (by simp [htenant]),← ih]
          split
          · rfl
          · rename_i left hleft
            obtain ⟨-,hsame,-⟩ := after_same hleft
            rw [List.filter_cons_of_neg (by simp [hsame,htenant])]
        · rw [List.filterMap_cons,batchFate_foreign P htenant]
          change List.filter _ (batch::List.filterMap _ batches) = _
          rw [List.filter_cons_of_pos (by simp [htenant]),
            List.filter_cons_of_pos (by simp [htenant]),ih]

/-- A plan that counts nothing changes nothing. -/
theorem plan_none (h : totalRetentionCounts (retentionPlan P c tenantId p now).2 = 0) :
    (retentionPlan P c tenantId p now).1 = c ∧
      (retentionPlan P c tenantId p now).2 = Counts.zeros := by
  simp only [totalRetentionCounts,Nat.add_eq_zero_iff] at h
  obtain ⟨⟨⟨⟨⟨⟨hevents,hvault⟩,hreports⟩,hnotes⟩,hclues⟩,hbatches⟩,hresponses⟩ := h
  have hbatch : ∀ batch ∈ c.originClueBatches,batchFate P tenantId (metadataCutoffMs p now) false
      (removedIds P c tenantId (metadataCutoffMs p now) false)
      (keptClues P c tenantId (metadataCutoffMs p now) false) batch = .kept := by
    intro batch hin
    have hstays := List.countP_eq_zero.mp hbatches batch hin
    have hwhole := List.countP_eq_zero.mp hresponses batch hin
    cases hfate : batchFate P tenantId (metadataCutoffMs p now) false
      (removedIds P c tenantId (metadataCutoffMs p now) false)
      (keptClues P c tenantId (metadataCutoffMs p now) false) batch with
    | kept => rfl
    | blanked => simp [hfate] at hwhole
    | removed => simp [hfate] at hstays
  have hlist : (retentionPlan P c tenantId p now).1.originClueBatches = c.originClueBatches := by
    rw [plan_batches]
    refine (List.filterMap_congr fun batch hin => ?_).trans List.filterMap_some
    rw [hbatch batch hin]
    rfl
  constructor
  · have hcontents : ∀ a b : Contents,a.events = b.events → a.evidenceVault = b.evidenceVault →
        a.reports = b.reports → a.notificationEvents = b.notificationEvents →
        a.originClues = b.originClues → a.originClueBatches = b.originClueBatches → a = b := by
      rintro ⟨⟩ ⟨⟩ rfl rfl rfl rfl rfl rfl
      rfl
    exact hcontents _ _ (purge_none P hevents) (purge_none P hvault) (purge_none P hreports)
      (purge_none P hnotes) (keptClues_none P (List.length_eq_zero_iff.mp hclues)) hlist
  · have hcounts : ∀ a : Counts,a.events = 0 → a.evidenceVault = 0 → a.reports = 0 →
        a.notificationEvents = 0 → a.originClues = 0 → a.originClueBatches = 0 →
        a.originClueResponses = 0 → a = Counts.zeros := by
      rintro ⟨⟩ rfl rfl rfl rfl rfl rfl rfl
      rfl
    exact hcounts _ hevents hvault hreports hnotes hclues hbatches hresponses

/-- A second plan at the same time counts nothing. -/
theorem plan_again : totalRetentionCounts
    (retentionPlan P (retentionPlan P c tenantId p now).1 tenantId p now).2 = 0 := by
  have hclues : removedClues P (retentionPlan P c tenantId p now).1 tenantId
      (metadataCutoffMs p now) false = [] := removedClues_again P rfl
  have hkept : keptClues P (retentionPlan P c tenantId p now).1 tenantId (metadataCutoffMs p now)
      false = keptClues P c tenantId (metadataCutoffMs p now) false := keptClues_none P hclues
  have hids : removedIds P (retentionPlan P c tenantId p now).1 tenantId (metadataCutoffMs p now)
      false = [] := by rw [removedIds,hclues,List.map_nil]
  have hfate : ∀ left ∈ (retentionPlan P c tenantId p now).1.originClueBatches,
      batchFate P tenantId (metadataCutoffMs p now) false
        (removedIds P (retentionPlan P c tenantId p now).1 tenantId (metadataCutoffMs p now) false)
        (keptClues P (retentionPlan P c tenantId p now).1 tenantId (metadataCutoffMs p now) false)
        left = .kept := by
    intro left hleft
    rw [plan_batches] at hleft
    obtain ⟨batch,-,hafter⟩ := List.mem_filterMap.mp hleft
    rw [hids,hkept]
    exact fate_again P hafter
  simp only [totalRetentionCounts,Nat.add_eq_zero_iff]
  refine ⟨⟨⟨⟨⟨⟨?_,?_⟩,?_⟩,?_⟩,?_⟩,?_⟩,?_⟩
  · exact congrArg Prod.snd (purge_again P)
  · exact congrArg Prod.snd (purge_again P)
  · exact congrArg Prod.snd (purge_again P)
  · exact congrArg Prod.snd (purge_again P)
  · exact congrArg List.length hclues
  · refine List.countP_eq_zero.mpr fun left hleft => ?_
    rw [hfate left hleft]
    decide
  · refine List.countP_eq_zero.mpr fun left hleft => ?_
    rw [hfate left hleft]
    decide

variable {p} in
/-- The plan reads the cutoffs of the settings alone. -/
theorem plan_congr {q : Privacy} (hdays : q.metadataRetentionDays = p.metadataRetentionDays)
    (hevidence : q.evidenceRetention = p.evidenceRetention) :
    retentionPlan P c tenantId q now = retentionPlan P c tenantId p now := by
  have hmeta : metadataCutoffMs q now = metadataCutoffMs p now := by
    rw [metadataCutoffMs,metadataCutoffMs,hdays]
  have hreport : reportCutoffMs q now = reportCutoffMs p now := by
    rw [reportCutoffMs,reportCutoffMs,getEffectiveReportRetentionDays,
      getEffectiveReportRetentionDays,hdays,hevidence]
  simp only [retentionPlan,hmeta,hreport]

end Plan

section Call
variable (P : Platform) {store : Store} {tenantId : JsString} (ctx : AuditContext) (o : Options)

theorem enforce_unknown (h : store.tenants.find? (isTenant tenantId) = none) :
    enforceMetadataRetentionForTenant P store tenantId ctx o = (none,store) := by
  rw [enforceMetadataRetentionForTenant,h]

/-- What a call does for a tenant that exists. -/
structure Outcome (store : Store) (tenantId : JsString) (current : JsVal)
    (result : Option Reply × Store) : Prop where
  contents : result.2.contents = if (settings current o).evidenceRetention.legalHold
    then store.contents
    else (retentionPlan P store.contents tenantId (settings current o) o.now).1
  governance : result.2.governance = store.governance
  reply : ∃ reply,result.1 = some reply ∧ reply.deleted = deleted P store tenantId o current
  tenants : result.2 = store ∧ totalRetentionCounts (candidates P store tenantId o current) = 0 ∨
    result.2.tenants =
      store.tenants.map fun item => if isTenant tenantId item then staged current o else item
  auditLog : result.2.auditLog = chainedAudit P store.auditLog
    (asAudits P o (entriesOf P store tenantId ctx o current))

theorem candidates_of_quiet {current : JsVal} (h : entriesOf P store tenantId ctx o current = []) :
    totalRetentionCounts (candidates P store tenantId o current) = 0 := by
  by_contra hsome
  rw [entriesOf,auditEntries,if_neg hsome] at h
  simp at h

theorem enforce_known {current : JsVal}
    (h : store.tenants.find? (isTenant tenantId) = some current) :
    Outcome P ctx o store tenantId current
      (enforceMetadataRetentionForTenant P store tenantId ctx o) := by
  have hnone := plan_none P store.contents tenantId (settings current o) o.now
  rw [enforceMetadataRetentionForTenant,h]
  dsimp only
  cases hcommit : commits P store tenantId ctx o current with
  | true =>
      refine ⟨?_,rfl,⟨_,rfl,rfl⟩,.inr rfl,?_⟩
      · change (changesOf P store tenantId ctx o current).contents.getD store.contents = _
        cases hheld : (settings current o).evidenceRetention.legalHold with
        | true => simp [changesOf,hheld]
        | false =>
            by_cases htotal : totalRetentionCounts (candidates P store tenantId o current) = 0
            · simp [changesOf,htotal,(hnone htotal).1]
            · simp [changesOf,hheld,htotal]
      · change (changesOf P store tenantId ctx o current).auditLog.getD store.auditLog = _
        by_cases hentries : entriesOf P store tenantId ctx o current = []
        · simp [changesOf,hentries,asAudits,chainedAudit]
        · simp [changesOf,hentries]
  | false =>
      simp only [commits,Bool.or_eq_false_iff,decide_eq_false_iff_not,not_not] at hcommit
      have htotal := candidates_of_quiet P ctx o hcommit.1.1
      refine ⟨?_,rfl,⟨_,rfl,rfl⟩,.inl ⟨rfl,htotal⟩,?_⟩
      · rw [(hnone htotal).1,ite_self]
        rfl
      · rw [hcommit.1.1]
        rfl

/-- The tenant found after a call is the one it staged. -/
theorem find_staged {rows : List JsVal} {tenant found : JsVal}
    (h : (rows.map fun item => if isTenant tenantId item then tenant else item).find?
      (isTenant tenantId) = some found) : found = tenant := by
  obtain ⟨item,-,hitem⟩ := List.mem_map.mp (List.mem_of_find?_eq_some h)
  have hfound := List.find?_some h
  split_ifs at hitem with his
  · exact hitem.symm
  · rw [← hitem] at hfound
    exact absurd hfound his

/-- Settings that were staged are those that a repeated call enforces. -/
theorem settings_staged (current : JsVal) :
    (settings (staged current o) o).metadataRetentionDays =
        (settings current o).metadataRetentionDays ∧
      (settings (staged current o) o).evidenceRetention =
        (settings current o).evidenceRetention := by
  by_cases hupdate : has o.tenantUpdate "privacy_settings"
  · have hread : ∀ v,field (updated v o) "privacy_settings" =
        field o.tenantUpdate "privacy_settings" := by
      intro v
      rw [updated,field_assigned,if_pos hupdate]
    rw [settings,settings,hread,hread]
    exact ⟨rfl,rfl⟩
  · have hread : field (updated (staged current o) o) "privacy_settings" =
        (settings current o).toJs := by
      rw [updated,field_assigned,if_neg hupdate,staged,field_put_self]
    rw [settings,hread]
    exact normalizePrivacySettings_idem _

theorem deleted_again (again : Option Reply × Store)
    (hagain : again = enforceMetadataRetentionForTenant P
      (enforceMetadataRetentionForTenant P store tenantId ctx o).2 tenantId ctx o) :
    (∀ reply ∈ again.1,reply.deleted = Counts.zeros) ∧
      again.2.contents = (enforceMetadataRetentionForTenant P store tenantId ctx o).2.contents := by
  subst hagain
  cases hfind : store.tenants.find? (isTenant tenantId) with
  | none =>
      rw [enforce_unknown P ctx o hfind]
      simp only
      rw [enforce_unknown P ctx o hfind]
      exact ⟨by simp,rfl⟩
  | some current =>
      have hfirst := enforce_known P ctx o hfind
      generalize enforceMetadataRetentionForTenant P store tenantId ctx o = first at hfirst
      -- the second call plans nothing, or a hold keeps everything
      have hidle : ∀ found,first.2.tenants.find? (isTenant tenantId) = some found →
          (settings found o).evidenceRetention.legalHold = true ∨
          totalRetentionCounts
            (retentionPlan P first.2.contents tenantId (settings found o) o.now).2 = 0 := by
        intro found hfound
        rcases hfirst.tenants with ⟨hsame,htotal⟩ | htenants
        · rw [hsame,hfind] at hfound
          cases hfound
          rw [hsame]
          exact .inr htotal
        · rw [htenants] at hfound
          rw [find_staged hfound]
          obtain ⟨hdays,hevidence⟩ := settings_staged o current
          rw [hevidence]
          cases hheld : (settings current o).evidenceRetention.legalHold with
          | true => exact .inl rfl
          | false =>
              right
              rw [hfirst.contents,hheld,plan_congr P _ tenantId o.now hdays hevidence]
              exact plan_again P store.contents tenantId _ o.now
      cases hfound : first.2.tenants.find? (isTenant tenantId) with
      | none =>
          rw [enforce_unknown P ctx o hfound]
          exact ⟨by simp,rfl⟩
      | some found =>
          have hsecond := enforce_known P ctx o hfound
          obtain ⟨reply,hreply,hdeleted⟩ := hsecond.reply
          rw [hreply,hsecond.contents]
          rcases hidle found hfound with hheld | htotal
          · refine ⟨?_,by rw [hheld]; rfl⟩
            rintro _ ⟨⟩
            rw [hdeleted,deleted,if_pos hheld]
          · obtain ⟨hcontents,hcounts⟩ := plan_none P _ _ _ _ htotal
            refine ⟨?_,by rw [hcontents,ite_self]⟩
            rintro _ ⟨⟩
            rw [hdeleted,deleted,candidates,hcounts,ite_self]

end Call

section Log
variable (P : Platform)

theorem chainedAudit_grows (log : List JsVal) (audits : List Audit) :
    ∃ added,chainedAudit P log audits = log++added := by
  induction audits generalizing log with
  | nil => exact ⟨[],(List.append_nil log).symm⟩
  | cons a audits ih =>
      obtain ⟨added,hadded⟩ := ih (withRecord P.toPlatform log a)
      exact ⟨_::added,hadded.trans (List.append_assoc _ [_] added)⟩

theorem chainedAudit_valid (hne : ∀ bytes,P.sha256 bytes ≠ []) {audits : List Audit}
    (haudits : ∀ a ∈ audits,WellFormed a.entry) {log : List JsVal}
    (hlog : ∀ e ∈ log,WellFormed e) (hvalid : verifyAuditChain P.toPlatform (.arr log) = .valid)
    (hroom : lastSequence log+audits.length < 2^53) :
    verifyAuditChain P.toPlatform (.arr (chainedAudit P log audits)) = .valid := by
  induction audits generalizing log with
  | nil => exact hvalid
  | cons a audits ih =>
      rw [List.length_cons,Nat.cast_succ] at hroom
      have hcount : (0 : ℚ) ≤ audits.length := Nat.cast_nonneg _
      obtain ⟨hlog',hvalid',hlast⟩ := valid_withRecord hne hlog hvalid (by linarith)
        (haudits a List.mem_cons_self)
      have hroom' : lastSequence (withRecord P.toPlatform log a)+audits.length < 2^53 := by
        rw [hlast]
        linarith
      exact ih (fun b hb => haudits b (List.mem_cons_of_mem _ hb)) hlog' hvalid' hroom'

/-- No object that goes into the log has a member twice. -/
structure Proper (store : Store) (ctx : AuditContext) (o : Options) : Prop where
  tenants : ∀ t ∈ store.tenants,WellFormed t
  update : WellFormed o.tenantUpdate
  userId : WellFormed ctx.userId
  role : WellFormed ctx.role
  auditEvents : ∀ e ∈ o.auditEvents,WellFormed e
  auditLog : ∀ e ∈ store.auditLog,WellFormed e

theorem wellFormed_orElse {v w : JsVal} (hv : WellFormed v) (hw : WellFormed w) :
    WellFormed (orElse v w) := by
  rw [orElse]
  split_ifs
  · exact hw
  · exact hv

theorem wellFormed_counts (c : Counts) : WellFormed c.toJs := by
  refine .obj (show [js "events",js "evidenceVault",js "reports",js "notificationEvents",
    js "originClues",js "originClueBatches",js "originClueResponses"].Nodup by decide) ?_
  simp only [List.forall_mem_cons]
  exact ⟨.num _,.num _,.num _,.num _,.num _,.num _,.num _,by simp⟩

theorem wellFormed_evidence (e : EvidenceRetention) : WellFormed e.toJs := by
  refine .obj (show [js "audit_log_days",js "high_scale_artifact_days",js "report_days",
    js "legal_hold"].Nodup by decide) ?_
  simp only [List.forall_mem_cons]
  exact ⟨.num _,.num _,.num _,.bool _,by simp⟩

theorem wellFormed_snapshot {tenant : JsVal} (h : WellFormed (field tenant "id")) :
    WellFormed (buildRetentionPolicySnapshot tenant) := by
  refine .obj (show [js "tenant_id",js "metadata_retention_days",js "evidence_retention",
    js "protected_collections",js "deletion_collections"].Nodup by decide) ?_
  simp only [List.forall_mem_cons]
  refine ⟨h,.num _,wellFormed_evidence _,.arr ?_,.arr ?_,by simp⟩
  · intro v hv
    obtain ⟨s,-,rfl⟩ := List.mem_map.mp hv
    exact .str _
  · intro v hv
    obtain ⟨s,-,rfl⟩ := List.mem_map.mp hv
    refine .obj (show [js "collection",js "effective_retention_days"].Nodup by decide) ?_
    simp only [List.forall_mem_cons]
    exact ⟨.str _,.num _,by simp⟩

theorem wellFormed_retentionEvent {ctx : AuditContext} {tenant : JsVal} (tenantId : JsString)
    (p : Privacy) (c : Counts) (huser : WellFormed ctx.userId) (hrole : WellFormed ctx.role)
    (hid : WellFormed (field tenant "id")) :
    WellFormed (retentionEvent tenantId ctx tenant p c) := by
  have hmetadata : ∀ extra : List (JsString × JsVal),
      extra = [] ∨ extra = [(js "blocked_deletions",c.toJs)] → ∀ d : Counts,
      WellFormed (.obj ([(js "deleted",d.toJs)]++extra++
        [(js "metadata_retention_days",numeral p.metadataRetentionDays),
          (js "policy_snapshot",buildRetentionPolicySnapshot tenant)])) := by
    rintro extra (rfl | rfl) d
    · refine .obj (show [js "deleted",js "metadata_retention_days",js "policy_snapshot"].Nodup by
        decide) ?_
      simp only [List.append_nil,List.singleton_append,List.forall_mem_cons]
      exact ⟨wellFormed_counts d,.num _,wellFormed_snapshot hid,by simp⟩
    · refine .obj (show [js "deleted",js "blocked_deletions",js "metadata_retention_days",
        js "policy_snapshot"].Nodup by decide) ?_
      simp only [List.cons_append,List.nil_append,List.forall_mem_cons]
      exact ⟨wellFormed_counts d,wellFormed_counts c,.num _,wellFormed_snapshot hid,by simp⟩
  refine .obj (show [js "tenant_id",js "actor_user_id",js "actor_role",js "action",
    js "resource_type",js "resource_id",js "metadata"].Nodup by decide) ?_
  simp only [List.forall_mem_cons]
  refine ⟨.str _,wellFormed_orElse huser .null,wellFormed_orElse hrole (.str _),.str _,.str _,
    .str _,hmetadata _ ?_ _,by simp⟩
  split_ifs
  · exact .inr rfl
  · exact .inl rfl

theorem wellFormed_stagedId {current : JsVal} {o : Options} (hcurrent : WellFormed current)
    (hupdate : WellFormed o.tenantUpdate) : WellFormed (field (staged current o) "id") := by
  rw [staged,field_put_other (by decide),updated,field_assigned]
  split_ifs
  · exact wellFormed_get hupdate _
  · exact wellFormed_get hcurrent _

theorem wellFormed_entries {store : Store} {ctx : AuditContext} {o : Options} {current : JsVal}
    (tenantId : JsString) (h : Proper store ctx o) (hcurrent : WellFormed current) :
    ∀ e ∈ entriesOf P store tenantId ctx o current,WellFormed e := by
  intro e he
  rcases List.mem_append.mp he with he | he
  · exact h.auditEvents e he
  · split_ifs at he
    · cases he
    · rw [List.mem_singleton.mp he]
      exact wellFormed_retentionEvent tenantId _ _ h.userId h.role
        (wellFormed_stagedId hcurrent h.update)

theorem length_entries (store : Store) (tenantId : JsString) (ctx : AuditContext) (o : Options)
    (current : JsVal) :
    (asAudits P o (entriesOf P store tenantId ctx o current)).length ≤ o.auditEvents.length+1 := by
  rw [asAudits,List.length_map,List.length_zipIdx,entriesOf,auditEntries,List.length_append]
  split_ifs <;> simp

end Log

/-- What a call guarantees. -/
structure Retained (P : Platform) (store : Store) (tenantId : JsString) (ctx : AuditContext)
    (o : Options) (after : Store) : Prop where
  unknown : store.tenants.find? (isTenant tenantId) = none → after = store
  held : ∀ current,store.tenants.find? (isTenant tenantId) = some current →
    (settings current o).evidenceRetention.legalHold = true → after.contents = store.contents
  complete : ∀ current,store.tenants.find? (isTenant tenantId) = some current →
    (settings current o).evidenceRetention.legalHold = false →
    Complete P tenantId (settings current o) o.now store.contents after.contents
  foreign : ForeignKept tenantId store.contents after.contents
  tenants : List.Forall₂ (fun old new => isTenant tenantId old = false → new = old)
    store.tenants after.tenants
  governance : after.governance = store.governance
  grows : ∃ added,after.auditLog = store.auditLog++added
  verifies : verifyAuditChain P.toPlatform (.arr store.auditLog) = .valid →
    lastSequence store.auditLog+(o.auditEvents.length+1 : ℕ) < 2^53 →
    verifyAuditChain P.toPlatform (.arr after.auditLog) = .valid
  nothingMore :
    (∀ reply ∈ (enforceMetadataRetentionForTenant P after tenantId ctx o).1,
      reply.deleted = Counts.zeros) ∧
    (enforceMetadataRetentionForTenant P after tenantId ctx o).2.contents = after.contents

theorem foreignKept_refl (tenantId : JsString) (c : Contents) : ForeignKept tenantId c c :=
  ⟨rfl,rfl,rfl,rfl,rfl,rfl⟩

/-- Retention is complete unless a hold keeps everything; it leaves other tenants and the protected
collections, extends a log that still verifies, and finds nothing when repeated. -/
theorem metadata_retention (P : Platform) (hne : ∀ bytes,P.sha256 bytes ≠ []) (store : Store)
    (tenantId : JsString) (ctx : AuditContext) (o : Options) (hproper : Proper store ctx o) :
    Retained P store tenantId ctx o
      (enforceMetadataRetentionForTenant P store tenantId ctx o).2 := by
  have hagain := deleted_again P ctx o _ (rfl : enforceMetadataRetentionForTenant P
    (enforceMetadataRetentionForTenant P store tenantId ctx o).2 tenantId ctx o = _)
  cases hfind : store.tenants.find? (isTenant tenantId) with
  | none =>
      rw [enforce_unknown P ctx o hfind] at hagain ⊢
      exact ⟨fun _ => rfl,by simp [hfind],by simp [hfind],foreignKept_refl _ _,
        List.forall₂_same.mpr fun _ _ _ => rfl,rfl,⟨[],(List.append_nil _).symm⟩,
        fun hvalid _ => hvalid,hagain⟩
  | some current =>
      have hout := enforce_known P ctx o hfind
      have hcurrent := hproper.tenants current (List.mem_of_find?_eq_some hfind)
      have hentries := wellFormed_entries P tenantId hproper hcurrent
      refine ⟨by simp [hfind],?_,?_,?_,?_,hout.governance,?_,?_,hagain⟩
      · intro current' hcurrent' hheld
        cases hfind.symm.trans hcurrent'
        rw [hout.contents,if_pos hheld]
      · intro current' hcurrent' hheld
        cases hfind.symm.trans hcurrent'
        rw [hout.contents,hheld]
        exact plan_complete P store.contents tenantId _ o.now
      · rw [hout.contents]
        split_ifs
        · exact foreignKept_refl _ _
        · exact plan_foreign P store.contents tenantId _ o.now
      · rcases hout.tenants with ⟨hsame,-⟩ | htenants
        · rw [hsame]
          exact List.forall₂_same.mpr fun _ _ _ => rfl
        · rw [htenants,List.forall₂_map_right_iff,List.forall₂_same]
          intro item _ hother
          rw [hother]
          rfl
      · rw [hout.auditLog]
        exact chainedAudit_grows P _ _
      · intro hvalid hroom
        rw [hout.auditLog]
        refine chainedAudit_valid P hne ?_ hproper.auditLog hvalid ?_
        · intro a ha
          obtain ⟨e,he,rfl⟩ := List.mem_map.mp ha
          exact hentries e.1 (List.fst_mem_of_mem_zipIdx he)
        · have hlength : ((asAudits P o (entriesOf P store tenantId ctx o current)).length : ℚ) ≤
              (o.auditEvents.length+1 : ℕ) := by
            exact_mod_cast length_entries P store tenantId ctx o current
          linarith

def old : JsVal := .str (js "1970-01-01T00:00:00.000Z")

def fresh : JsVal := .str (js "1971-01-01T00:00:00.000Z")

/-- Two dates, and a digest that is the text. -/
def twoDates : Platform where
  toPlatform := transparent
  dateOf := fun v => if is v "1970-01-01T00:00:00.000Z" then some 0
    else if is v "1971-01-01T00:00:00.000Z" then some 31536000000 else none
  toISOString := fun _ => js "1971-01-02T00:00:00.000Z"

def oldClue : Clue := ⟨js "c1",js "t",js "g",js "b1",old,.null⟩

def freshClue : Clue := ⟨js "c2",js "t",js "g",js "b2",fresh,.null⟩

def foreignClue : Clue := ⟨js "c1",js "u",js "g",js "b1",old,.null⟩

/-- A fresh batch with a copy of the old clue. -/
def copying : Batch := ⟨js "b1",js "t",js "g",fresh,some (.saved [⟨js "c1",old,.null⟩] .null),.null⟩

/-- An old batch that owns the fresh clue. -/
def owning : Batch := ⟨js "b2",js "t",js "g",old,some (.saved [⟨js "c2",fresh,.null⟩] .null),.null⟩

def childless : Batch := ⟨js "b3",js "t",js "g",old,none,.null⟩

/-- A tenant with an event of the first day of the epoch and its origin clues, beside a clue of
another tenant. -/
def epochStore : Store where
  tenants := [.obj [(js "id",.str (js "t"))]]
  contents := ⟨[.obj [(js "tenant_id",.str (js "t")),(js "timestamp",old)]],[],[],[],
    [oldClue,freshClue,foreignClue],[copying,owning,childless]⟩
  governance := ⟨[],[],[],[],[],[]⟩
  auditLog := []
  lifecycleGenerations := fun _ => 0

def atEpochYear : Options := ⟨366*86400000,.undefined,[],fun _ => js "evt"⟩

theorem epochStore_proper : Proper epochStore ⟨.null,.null⟩ atEpochYear where
  tenants := by
    intro t ht
    rw [List.mem_singleton.mp ht]
    refine .obj (show [js "id"].Nodup by decide) ?_
    simp only [List.forall_mem_cons]
    exact ⟨.str _,by simp⟩
  update := .undefined
  userId := .null
  role := .null
  auditEvents := by simp [atEpochYear]
  auditLog := by simp [epochStore]

/-- Without settings rows are kept for a year. -/
theorem settings_default {current : JsVal} {o : Options}
    (h : field (updated current o) "privacy_settings" = .undefined) :
    (settings current o).evidenceRetention.legalHold = false ∧
      metadataCutoffMs (settings current o) o.now = o.now-365*86400000 := by
  have hdays : field (assigned defaultPrivacy (.obj [])) "metadata_retention_days" = numeral 365 :=
    rfl
  have hevidence : field (assigned defaultPrivacy (.obj [])) "evidence_retention" = .undefined :=
    rfl
  have hplain : isObject .undefined = false := rfl
  rw [settings,h,normalizePrivacySettings]
  simp only [metadataCutoffMs,hplain,Bool.false_eq_true,if_false,hdays,hevidence,
    clampRetentionDays_numeral (show 0 < 365 by norm_num) (by norm_num) (show 1 ≤ 365 by norm_num)
      (show 365 ≤ 3650 by norm_num)]
  exact ⟨rfl,rfl⟩

/-- The old clue goes with its copy and the batch without clues, and the old batch that owns a clue
stays without its reply. -/
theorem old_clue_gone : ∃ after,(enforceMetadataRetentionForTenant twoDates epochStore (js "t")
      ⟨.null,.null⟩ atEpochYear).2 = after ∧
    Retained twoDates epochStore (js "t") ⟨.null,.null⟩ atEpochYear after ∧
    after.contents.events = [] ∧ after.contents.originClues = [freshClue,foreignClue] ∧
    after.contents.originClueBatches = [{ copying with response := some .expired },
      { owning with response := some .expired }] := by
  have hfind : epochStore.tenants.find? (isTenant (js "t")) = some (.obj [(js "id",.str (js "t"))]) :=
    rfl
  obtain ⟨hheld,hcutoff⟩ := @settings_default (.obj [(js "id",.str (js "t"))]) atEpochYear rfl
  have hcontents := (enforce_known twoDates ⟨.null,.null⟩ atEpochYear hfind).contents
  rw [hheld,if_neg Bool.false_ne_true] at hcontents
  refine ⟨_,rfl,metadata_retention twoDates transparent_digest epochStore (js "t") ⟨.null,.null⟩
    atEpochYear epochStore_proper,?_⟩
  rw [hcontents]
  generalize settings (.obj [(js "id",.str (js "t"))]) atEpochYear = p at hcutoff
  have hnow : atEpochYear.now-365*86400000 = 86400000 := by norm_num [atEpochYear]
  simp only [retentionPlan,hcutoff,hnow]
  exact ⟨rfl,rfl,rfl⟩

end AstraNull.RetentionFrame
