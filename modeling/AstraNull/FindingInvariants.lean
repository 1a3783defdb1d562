import Mathlib
import AstraNull.JsonText
import AstraNull.Tables
import AstraNull.FindingRecords
import AstraNull.FindingLifecycle
import AstraNull.ProtectionFindings
import AstraNull.Findings

/-!
# What the writes keep of a finding

Verdicts, evaluations and retests store open findings, note something on a finding, or verify an
open one. With the patches of the customer these are all the writes, so the closing time, the
accepted risk and the basis of a verification follow the status in every state. There is at most
one open finding for an identity as long as no patch reopens one beside another.
-/
namespace AstraNull.FindingInvariants
open JsonText FindingRecords FindingLifecycle ProtectionFindings Findings

/-- The finding is about the same thing. -/
structure Same (f g : Finding) : Prop where
  id : g.id = f.id
  tenantId : g.tenantId = f.tenantId
  targetGroupId : g.targetGroupId = f.targetGroupId
  targetId : g.targetId = f.targetId
  checkId : g.checkId = f.checkId
  dedupeKey : findingDedupeKey g = findingDedupeKey f

theorem Same.refl (f : Finding) : Same f f := ⟨rfl,rfl,rfl,rfl,rfl,rfl⟩

/-- What becomes of one row; `closes` says which open rows may be verified. -/
inductive RowStep (closes : Finding → Prop) (f g : Finding) : Prop
  | note (same : Same f g) (status : g.status = f.status) (closedAt : g.closedAt = f.closedAt)
      (risk : g.riskAcceptance = f.riskAcceptance)
      (basis : g.verificationBasis = f.verificationBasis)
  | verify (same : Same f g) (isOpen : f.status.isOpen = true) (by_ : closes f)
      (status : g.status = .fixVerified) (closedAt : g.closedAt.isSome = true)
      (risk : g.riskAcceptance = f.riskAcceptance)

theorem RowStep.refl (closes : Finding → Prop) (f : Finding) : RowStep closes f f :=
  .note (.refl f) rfl rfl rfl rfl

theorem RowStep.same {closes : Finding → Prop} {f g : Finding} (h : RowStep closes f g) :
    Same f g := by
  cases h with
  | note same => exact same
  | verify same => exact same

/-- The place a finding takes while it is open. -/
inductive Slot where
  | check (tenantId : String) (targetGroupId targetId checkId : Option String)
  | protection (tenantId dedupeKey : String)

def slotAt (f : Finding) (status : Status) : Option Slot :=
  match findingDedupeKey f with
  | none => if status = .opened then
      some (.check f.tenantId f.targetGroupId f.targetId f.checkId) else none
  | some key => if status.isOpen then some (.protection f.tenantId key) else none

def slot (f : Finding) : Option Slot := slotAt f f.status

def slots (s : Store) : List Slot := s.findings.filterMap slot

inductive Write (closes : Finding → Prop) (s : Store) : Store → Prop
  | store (f : Finding) (hid : f.id = s.nextId) (hopen : f.status = .opened)
      (hclosed : f.closedAt = none) (hrisk : f.riskAcceptance = none)
      (hbasis : f.verificationBasis = none) (hfree : ∀ b,slot f = some b → b ∉ slots s) :
      Write closes s (push s f)
  | rows (l : List Finding) (h : List.Forall₂ (RowStep closes) s.findings l) :
      Write closes s { s with findings := l }

abbrev Writes (closes : Finding → Prop) : Store → Store → Prop := Relation.ReflTransGen (Write closes)

section
variable {closes : Finding → Prop} {s t : Store}

theorem Write.update {p : Finding → Bool} {g : Finding → Finding}
    (hg : ∀ f,s.findings.find? p = some f → RowStep closes f (g f)) :
    Write closes s { s with findings := Tables.update p g s.findings } :=
  .rows _ (Tables.forall₂_update (RowStep.refl closes) hg)

theorem dedupeKey_eq_none {f : Finding} :
    findingDedupeKey f = none ↔ isProtectionValidationFinding f = false := by
  cases hp : f.protection <;> simp [findingDedupeKey,isProtectionValidationFinding,hp]

theorem writes_upsertFindingFromVerdict {tenantId : String} {v : VerdictInput} {now : ℤ} :
    Writes closes s (upsertFindingFromVerdict s tenantId v now) := by
  unfold upsertFindingFromVerdict
  split_ifs with hfound
  · exact .single (.update fun f _ => .note ⟨rfl,rfl,rfl,rfl,rfl,rfl⟩ rfl rfl rfl rfl)
  · refine .single (.store _ rfl rfl rfl rfl rfl fun b hb hmem => hfound ?_)
    have hslot : b = .check tenantId v.targetGroupId (some v.targetId) v.checkId :=
      (Option.some.inj hb).symm
    obtain ⟨f,hf,hfb⟩ := List.mem_filterMap.mp hmem
    rw [List.find?_isSome]
    refine ⟨f,hf,?_⟩
    rw [hslot,slot,slotAt] at hfb
    cases hkey : findingDedupeKey f with
    | none =>
        simp only [hkey] at hfb
        split_ifs at hfb with hopen
        simp only [Option.some.injEq,Slot.check.injEq] at hfb
        obtain ⟨h1,h2,h3,h4⟩ := hfb
        simp [sameOpen,h1,h2,h3,h4,hopen,dedupeKey_eq_none.mp hkey]
    | some key =>
        simp only [hkey] at hfb
        split_ifs at hfb
        cases hfb

theorem write_applyPassingRetestToFindings {tenantId : String} {retest : Retest}
    {target : Option String} {now : ℤ} :
    Write (fun _ => True) s (applyPassingRetestToFindings s tenantId retest target now) := by
  refine .rows _ (List.forall₂_map_right_iff.mpr (List.forall₂_same.mpr fun f _ => ?_))
  unfold retestRow
  split_ifs with happlies
  · exact .refl _ f
  · split
    · exact .refl _ f
    · have hopen : f.status.isOpen = true := by
        simp only [retestApplies,Bool.not_eq_true',Bool.not_eq_false,Bool.and_eq_true] at happlies
        exact happlies.1.1.1.2
      exact .verify ⟨rfl,rfl,rfl,rfl,rfl,rfl⟩ hopen trivial rfl rfl rfl

theorem same_applyProtectionFindingPatch (f : Finding) (patch : UpsertPatch) (now : ℤ) :
    RowStep closes f (applyProtectionFindingPatch f patch now) := by
  refine .note ⟨rfl,rfl,rfl,rfl,rfl,?_⟩ rfl rfl rfl rfl
  cases hp : f.protection <;> simp [applyProtectionFindingPatch,findingDedupeKey,hp]

theorem write_patchRow {tenantId : String} {id : ℕ} {patch : UpsertPatch} {now : ℤ} :
    Write closes s (patchRow s tenantId id patch now) :=
  .update fun f _ => same_applyProtectionFindingPatch f patch now

/-- A finding is created where no finding of the key is open. -/
theorem free_of_create {tenantId : String} {c : Candidate} {recurrenceOf escalatedFrom : Option ℕ}
    (htenant : c.tenantId = tenantId)
    (h : planProtectionFindingUpsert (s.findings.filter (ofTenant tenantId)) c =
      .create recurrenceOf escalatedFrom) : Slot.protection tenantId c.dedupeKey ∉ slots s := by
  intro hmem
  obtain ⟨f,hf,hfb⟩ := List.mem_filterMap.mp hmem
  rw [slot,slotAt] at hfb
  cases hkey : findingDedupeKey f with
  | none =>
      simp only [hkey] at hfb
      split_ifs at hfb
      cases hfb
  | some key =>
      simp only [hkey] at hfb
      split_ifs at hfb with hopen
      simp only [Option.some.injEq,Slot.protection.injEq] at hfb
      obtain ⟨ht,rfl⟩ := hfb
      have hprot : isProtectionValidationFinding f = true := by
        by_contra hp
        rw [dedupeKey_eq_none.mpr (by simpa using hp)] at hkey
        cases hkey
      have hmatch : f ∈ matching (s.findings.filter (ofTenant tenantId)) c := by
        rw [matching,List.mem_insertionSort,List.mem_filter,List.mem_filter]
        exact ⟨⟨hf,by simp [ofTenant,ht,hprot]⟩,by simp [ht,htenant,hkey]⟩
      obtain ⟨row,hrow⟩ := Option.isSome_iff_exists.mp
        (List.find?_isSome.mpr ⟨f,hmatch,hopen⟩ : ((matching (s.findings.filter (ofTenant tenantId))
          c).find? fun row => row.status.isOpen).isSome = true)
      rw [planProtectionFindingUpsert,hrow] at h
      split_ifs at h
      simp only at h
      split_ifs at h

theorem writes_upsertCandidate {tenantId : String} {now : ℤ} {c : Candidate} :
    Writes closes s (upsertCandidate tenantId now s c) := by
  unfold upsertCandidate
  split_ifs with htenant
  · exact .refl
  · split
    · exact .refl
    · exact .single write_patchRow
    · exact .single write_patchRow
    · exact .single write_patchRow
    · next recurrenceOf escalatedFrom hplan =>
        refine .single (.store _ rfl rfl rfl rfl rfl fun b hb => ?_)
        have hslot : b = .protection c.tenantId c.dedupeKey := (Option.some.inj hb).symm
        rw [not_not] at htenant
        rw [hslot,htenant]
        exact free_of_create htenant hplan

theorem writes_foldl {α : Type} {step : Store → α → Store} (h : ∀ s a,Writes closes s (step s a))
    (l : List α) : Writes closes s (l.foldl step s) := by
  induction l generalizing s with
  | nil => exact .refl
  | cons a l ih => exact (h s a).trans ih

end

structure Fresh (s : Store) : Prop where
  lt : ∀ f ∈ s.findings,f.id < s.nextId
  nodup : (s.findings.map Finding.id).Nodup

section
variable {closes : Finding → Prop} {s t : Store}

theorem map_id_of_rows {k l : List Finding} (h : List.Forall₂ (RowStep closes) k l) :
    l.map Finding.id = k.map Finding.id := by
  induction h with
  | nil => rfl
  | cons hfg _ ih => rw [List.map_cons,List.map_cons,ih,hfg.same.id]

/-- Every row comes from one. -/
theorem row_before {k l : List Finding} (h : List.Forall₂ (RowStep closes) k l) {g : Finding}
    (hg : g ∈ l) : ∃ f ∈ k,RowStep closes f g := by
  induction h with
  | nil => simp at hg
  | cons hfg _ ih =>
      rcases List.mem_cons.mp hg with rfl | hg
      · exact ⟨_,List.mem_cons_self,hfg⟩
      · obtain ⟨f,hf,hfg⟩ := ih hg
        exact ⟨f,List.mem_cons_of_mem _ hf,hfg⟩

theorem Write.fresh (hw : Write closes s t) (h : Fresh s) : Fresh t := by
  cases hw with
  | store f hid =>
      constructor
      · intro g hg
        rcases List.mem_append.mp hg with hg | hg
        · exact Nat.lt_succ_of_lt (h.lt g hg)
        · cases List.mem_singleton.mp hg
          rw [hid]
          exact Nat.lt_succ_self _
      · rw [push,List.map_append,List.nodup_append]
        refine ⟨h.nodup,by simp,fun a ha b hb => ?_⟩
        obtain ⟨g,hg,rfl⟩ := List.mem_map.mp ha
        cases List.mem_singleton.mp hb
        have := h.lt g hg
        omega
  | rows l hl =>
      have hids := map_id_of_rows hl
      constructor
      · intro g hg
        obtain ⟨f,hf,hfg⟩ := row_before hl hg
        rw [hfg.same.id]
        exact h.lt f hf
      · rw [hids]
        exact h.nodup

theorem Writes.fresh (hw : Writes closes s t) (h : Fresh s) : Fresh t := by
  induction hw with
  | refl => exact h
  | tail _ hw ih => exact hw.fresh ih

/-- Some complete passing observation has the key of the finding of the tenant. -/
def ClosedBy (tenantId : String) (passing : List Passing) (f : Finding) : Prop :=
  f.tenantId = tenantId ∧
    ∃ o ∈ passing,o.closesFindings = true ∧ findingDedupeKey f = some o.dedupeKey

/-- Rows with the identifier of a row of the snapshot have its key. -/
def Agrees (snapshot : List Finding) (s : Store) : Prop :=
  ∀ row ∈ snapshot,∀ f ∈ s.findings,f.id = row.id → findingDedupeKey f = findingDedupeKey row

theorem agrees_write {snapshot l : List Finding} (h : Agrees snapshot s)
    (hl : List.Forall₂ (RowStep closes) s.findings l) :
    Agrees snapshot { s with findings := l } := by
  intro row hrow g hg he
  obtain ⟨f,hf,hfg⟩ := row_before hl hg
  rw [hfg.same.dedupeKey]
  exact h row hrow f hf (by rw [← hfg.same.id,he])

theorem same_closeFinding {o : Passing} {now : ℤ} {f : Finding} (hc : closes f) :
    RowStep closes f (closeFinding o now f) := by
  unfold closeFinding
  split_ifs with hopen
  · exact .refl closes f
  · exact .verify ⟨rfl,rfl,rfl,rfl,rfl,rfl⟩ (by simpa using hopen) hc rfl rfl rfl

theorem rows_closeRow {passing : List Passing} {o : Passing} {tenantId : String} {now : ℤ}
    {snapshot : List Finding} {row : Finding} (ho : o ∈ passing) (hrow : row ∈ snapshot)
    (h : Agrees snapshot s) : ∃ l,List.Forall₂ (RowStep (ClosedBy tenantId passing)) s.findings l ∧
      closeRow tenantId now o s row = { s with findings := l } := by
  unfold closeRow
  split_ifs with hsignal
  · exact ⟨s.findings,List.forall₂_same.mpr fun f _ => .refl _ f,rfl⟩
  · refine ⟨_,Tables.forall₂_update (RowStep.refl _) fun f hf => same_closeFinding ?_,rfl⟩
    have hid := List.find?_some hf
    simp only [hasId,Bool.and_eq_true,beq_iff_eq] at hid
    simp only [protectionFindingClosureSignal,Bool.not_eq_true',Bool.not_eq_false,
      Bool.and_eq_true,beq_iff_eq] at hsignal
    refine ⟨hid.2,o,ho,hsignal.1.1.1,?_⟩
    rw [h row hrow f (List.mem_of_find?_eq_some hf) hid.1]
    exact hsignal.1.1.2

theorem writes_closeObserved {passing : List Passing} {o : Passing} {tenantId : String} {now : ℤ}
    (ho : o ∈ passing) (hs : Fresh s) :
    Writes (ClosedBy tenantId passing) s (closeObserved tenantId now s o) := by
  have hfold : ∀ (snapshot rows : List Finding) (s : Store),(∀ row ∈ rows,row ∈ snapshot) →
      Agrees snapshot s → Writes (ClosedBy tenantId passing) s (rows.foldl (closeRow tenantId now o) s) := by
    intro snapshot rows
    induction rows with
    | nil => exact fun s _ _ => .refl
    | cons row rows ih =>
        intro s hsub h
        obtain ⟨l,hl,he⟩ : ∃ l,List.Forall₂ (RowStep (ClosedBy tenantId passing)) s.findings l ∧
            closeRow tenantId now o s row = { s with findings := l } :=
          rows_closeRow ho (hsub row List.mem_cons_self) h
        rw [List.foldl_cons,he]
        have hrest := ih { s with findings := l } (fun r hr => hsub r (List.mem_cons_of_mem row hr))
          (agrees_write h hl)
        exact Relation.ReflTransGen.head (.rows l hl) hrest
  refine hfold (s.findings.filter (ofTenant tenantId)) _ s (fun _ h => h) ?_
  intro row hrow f hf he
  rw [List.inj_on_of_nodup_map hs.nodup hf (List.mem_of_mem_filter hrow) he]

theorem writes_foldl_closeObserved {passing : List Passing} {tenantId : String} {now : ℤ}
    (l : List Passing) (hl : ∀ o ∈ l,o ∈ passing) (hs : Fresh s) :
    Writes (ClosedBy tenantId passing) s (l.foldl (closeObserved tenantId now) s) := by
  induction l generalizing s with
  | nil => exact .refl
  | cons o l ih =>
      have hfirst : Writes (ClosedBy tenantId passing) s (closeObserved tenantId now s o) :=
        writes_closeObserved (hl o List.mem_cons_self) hs
      exact hfirst.trans (ih (fun o ho => hl o (List.mem_cons_of_mem _ ho)) (hfirst.fresh hs))

theorem writes_evaluation {P : Platform} {tenantId : String} {evaluation : Evaluation}
    {d : Declarations} {now : ℤ} (hs : Fresh s) {derived : Derived}
    (hd : deriveProtectionFindingCandidates P evaluation d = .ok derived) :
    Writes (ClosedBy tenantId derived.passing) s
      (upsertProtectionFindingsFromEvaluation P s tenantId evaluation d now).1 := by
  simp only [upsertProtectionFindingsFromEvaluation,hd]
  have hupsert : Writes (ClosedBy tenantId derived.passing) s
      ((dedupeProtectionFindingCandidates P derived.candidates).foldl (upsertCandidate tenantId now)
        s) := writes_foldl (fun _ _ => writes_upsertCandidate) _
  exact hupsert.trans (writes_foldl_closeObserved _ (fun _ h => h) (hupsert.fresh hs))

theorem Writes.mono {wider : Finding → Prop} (hc : ∀ f,closes f → wider f) (h : Writes closes s t) :
    Writes wider s t := by
  have hrow : ∀ f g,RowStep closes f g → RowStep wider f g := by
    intro f g hfg
    cases hfg with
    | note same status closedAt risk basis => exact .note same status closedAt risk basis
    | verify same isOpen by_ status closedAt risk =>
        exact .verify same isOpen (hc f by_) status closedAt risk
  refine Relation.ReflTransGen.mono (fun s t hw => ?_) _ _ h
  cases hw with
  | store f hid hopen hclosed hrisk hbasis hfree =>
      exact .store f hid hopen hclosed hrisk hbasis hfree
  | rows l hl => exact .rows l (hl.imp hrow)

end

/-- The status a body asks for. -/
def requestedStatus (body : PatchBody) : Option Status :=
  body.status.bind fun text => lifecycle.find? fun s => s.text == text

/-- What a patch does to the lifecycle: nothing, or everything that goes with the new status. -/
theorem planFindingPatch_ok {parse : JsString → Option ℤ} {body : PatchBody} {ctx : Ctx} {now : ℤ}
    {patch : Patch} (h : planFindingPatch parse body ctx now = .ok patch) :
    patch = ⟨none,none,none⟩ ∨ ∃ status risk,requestedStatus body = some status ∧
      patch = ⟨some status,some risk,some (if status.isClosure then some now else none)⟩ ∧
      (risk.isSome = true ↔ status = .acceptedRisk) := by
  have hclosed : ∀ status : Status,(if status.isClosure then some (some now)
      else if status = .opened ∨ status = .inProgress then some none else none) =
      some (if status.isClosure then some now else none) := by
    intro status
    cases status <;> rfl
  unfold planFindingPatch at h
  simp only [hclosed] at h
  split at h
  · cases h
  split at h
  · cases h
    exact Or.inl rfl
  next text htext =>
  split at h
  · cases h
    exact Or.inl rfl
  split at h
  · cases h
  next status hstatus =>
  have hrequested : requestedStatus body = some status := by
    rw [requestedStatus,htext]
    exact hstatus
  right
  split at h
  · next hrisk =>
      split at h
      · cases h
      split at h
      · cases h
      · cases h
        exact ⟨status,_,hrequested,rfl,by simp [hrisk]⟩
  · next hrisk =>
      cases h
      exact ⟨status,none,hrequested,rfl,by simp [hrisk]⟩

theorem same_patchedRow (patch : Patch) (body : PatchBody) (now : ℤ) (f : Finding) :
    Same f (patchedRow patch body now f) := ⟨rfl,rfl,rfl,rfl,rfl,rfl⟩

def patched (s : Store) (ctx : Ctx) (id : ℕ) (patch : Patch) (body : PatchBody) (now : ℤ) : Store :=
  { s with findings := Tables.update (hasId ctx.tenantId id) (patchedRow patch body now) s.findings }

inductive Effect (parse : JsString → Option ℤ) (s : Store) : Op → Store → Prop
  | writes {op : Op} {t : Store} (h : Writes (fun _ => True) s t) : Effect parse s op t
  | patch (ctx : Ctx) (id : ℕ) (body : PatchBody) (now : ℤ) (plan : Patch)
      (hplan : planFindingPatch parse body ctx now = .ok plan) :
      Effect parse s (.patch ctx id body now) (patched s ctx id plan body now)

section
variable {P : Platform} {parse : JsString → Option ℤ} {s t : Store}

theorem apply_effect (hs : Fresh s) (op : Op) : Effect parse s op (apply P parse s op).1 := by
  cases op with
  | verdict tenantId input now => exact .writes writes_upsertFindingFromVerdict
  | evaluation tenantId evaluation d now =>
      cases hd : deriveProtectionFindingCandidates P evaluation d with
      | error reason =>
          simp only [apply,upsertProtectionFindingsFromEvaluation,hd]
          exact .writes .refl
      | ok derived => exact .writes ((writes_evaluation hs hd).mono fun _ _ => trivial)
  | retest tenantId retest target now => exact .writes (.single write_applyPassingRetestToFindings)
  | patch ctx id body now =>
      simp only [apply,patchFinding]
      split
      · exact .writes .refl
      split
      · exact .writes .refl
      next plan hplan => exact .patch ctx id body now plan hplan

theorem Effect.fresh {op : Op} (he : Effect parse s op t) (hs : Fresh s) : Fresh t := by
  cases he with
  | writes h => exact h.fresh hs
  | patch ctx id body now plan hplan =>
      have hids : (patched s ctx id plan body now).findings.map Finding.id =
          s.findings.map Finding.id := Tables.map_update fun _ => rfl
      refine ⟨Tables.forall_update hs.lt fun f hf => ?_,hids ▸ hs.nodup⟩
      exact hs.lt f (List.mem_of_find?_eq_some hf)

theorem fresh_empty : Fresh Store.empty := ⟨by simp [Store.empty],by simp [Store.empty]⟩

/-- What every operation keeps holds after every sequence of operations. -/
theorem exec_invariant {I : Store → Prop} (hempty : I Store.empty)
    (hstep : ∀ s t op,Fresh s → I s → Effect parse s op t → I t) (ops : List Op) :
    Fresh (exec P parse Store.empty ops) ∧ I (exec P parse Store.empty ops) := by
  have hrun : ∀ (ops : List Op) (s : Store),Fresh s → I s →
      Fresh (exec P parse s ops) ∧ I (exec P parse s ops) := by
    intro ops
    induction ops with
    | nil => exact fun s hs hi => ⟨hs,hi⟩
    | cons op ops ih =>
        intro s hs hi
        have he : Effect parse s op (apply P parse s op).1 := apply_effect hs op
        exact ih _ (he.fresh hs) (hstep s _ op hs hi he)
  exact hrun ops Store.empty fresh_empty hempty

structure Coupled (f : Finding) : Prop where
  closedAt : f.closedAt.isSome = true ↔ f.status.isClosure = true
  riskAcceptance : f.riskAcceptance.isSome = true ↔ f.status = .acceptedRisk
  verificationBasis : f.status.isOpen = true → f.verificationBasis = none

theorem Coupled.rowStep {closes : Finding → Prop} {f g : Finding} (h : Coupled f)
    (hfg : RowStep closes f g) : Coupled g := by
  cases hfg with
  | note same status closedAt risk basis =>
      exact ⟨by rw [status,closedAt]; exact h.closedAt,by rw [status,risk]; exact h.riskAcceptance,
        by rw [status,basis]; exact h.verificationBasis⟩
  | verify same isOpen by_ status closedAt risk =>
      refine ⟨by rw [status,closedAt]; exact iff_of_true rfl rfl,?_,by rw [status]; exact nofun⟩
      rw [status,risk,h.riskAcceptance]
      refine iff_of_false (fun he => ?_) (by simp)
      rw [he] at isOpen
      cases isOpen

theorem Coupled.patchedRow {body : PatchBody} {ctx : Ctx} {now : ℤ} {plan : Patch} {f : Finding}
    (h : Coupled f) (hplan : planFindingPatch parse body ctx now = .ok plan) :
    Coupled (patchedRow plan body now f) := by
  rcases planFindingPatch_ok hplan with rfl | ⟨status,risk,-,rfl,hrisk⟩
  · exact ⟨h.closedAt,h.riskAcceptance,by simpa [Findings.patchedRow] using h.verificationBasis⟩
  · refine ⟨?_,hrisk,?_⟩
    · cases hc : status.isClosure <;> simp [Findings.patchedRow,hc]
    · intro hopen
      have hopen : status.isOpen = true := hopen
      cases status with
      | opened => rfl
      | inProgress => rfl
      | _ => cases hopen

theorem coupled_writes {closes : Finding → Prop} (hw : Writes closes s t)
    (h : ∀ f ∈ s.findings,Coupled f) : ∀ f ∈ t.findings,Coupled f := by
  induction hw with
  | refl => exact h
  | tail _ hw ih =>
      cases hw with
      | store f hid hopen hclosed hrisk hbasis =>
          intro g hg
          rcases List.mem_append.mp hg with hg | hg
          · exact ih g hg
          · cases List.mem_singleton.mp hg
            exact ⟨by simp [hclosed,hopen,Status.isClosure],by simp [hrisk,hopen],fun _ => hbasis⟩
      | rows l hl =>
          intro g hg
          obtain ⟨f,hf,hfg⟩ := row_before hl hg
          exact (ih f hf).rowStep hfg

end

/-- After every sequence of operations the closing time, the accepted risk and the basis of each
finding follow its status, and an operation that returns an error changes nothing. -/
theorem lifecycle_coupled (P : Platform) (parse : JsString → Option ℤ) (ops : List Op) :
    let s := exec P parse Store.empty ops
    (∀ f ∈ s.findings,
      (f.closedAt.isSome = true ↔ f.status = .acceptedRisk ∨ f.status = .resolved ∨
        f.status = .closed ∨ f.status = .falsePositive ∨ f.status = .accepted ∨
        f.status = .fixVerified) ∧
      (f.riskAcceptance.isSome = true ↔ f.status = .acceptedRisk) ∧
      (f.status = .opened ∨ f.status = .inProgress → f.verificationBasis = none)) ∧
    ∀ op error,(apply P parse s op).2 = .error error → (apply P parse s op).1 = s := by
  have hempty : ∀ f ∈ Store.empty.findings,Coupled f := by simp [Store.empty]
  have hcoupled : ∀ f ∈ (exec P parse Store.empty ops).findings,Coupled f := by
    refine (exec_invariant (I := fun s => ∀ f ∈ s.findings,Coupled f) hempty
      (fun s t op _ h he => ?_) ops).2
    cases he with
    | writes hw => exact coupled_writes hw h
    | patch ctx id body now plan hplan =>
        refine Tables.forall_update h fun f hf => ?_
        exact (h f (List.mem_of_find?_eq_some hf)).patchedRow hplan
  refine ⟨fun f hf => ⟨?_,(hcoupled f hf).riskAcceptance,?_⟩,?_⟩
  · rw [(hcoupled f hf).closedAt]
    cases f.status <;> simp [Status.isClosure]
  · intro hopen
    refine (hcoupled f hf).verificationBasis ?_
    rcases hopen with h | h <;> rw [h] <;> rfl
  · intro op error herror
    cases op with
    | verdict tenantId input now => cases herror
    | evaluation tenantId evaluation d now =>
        simp only [apply,upsertProtectionFindingsFromEvaluation] at herror ⊢
        split at herror
        · rfl
        · cases herror
    | retest tenantId retest target now => cases herror
    | patch ctx id body now =>
        simp only [apply,patchFinding] at herror ⊢
        split at herror
        · rfl
        split at herror
        · rfl
        · cases herror

/-- A patch that opens a finding opens one whose place is its own already, or free. -/
def Fits (s : Store) : Op → Prop
  | .patch ctx id body _ => ∀ f status,s.findings.find? (hasId ctx.tenantId id) = some f →
      requestedStatus body = some status → ∀ b,slotAt f status = some b → slot f = some b ∨ b ∉ slots s
  | _ => True

section
variable {P : Platform} {parse : JsString → Option ℤ} {s t : Store}

theorem slotAt_congr {f g : Finding} (h : Same f g) (status : Status) :
    slotAt g status = slotAt f status := by
  simp only [slotAt,h.dedupeKey,h.tenantId,h.targetGroupId,h.targetId,h.checkId]

theorem slot_rowStep {closes : Finding → Prop} {f g : Finding} (h : RowStep closes f g) :
    slot g = slot f ∨ slot g = none := by
  rw [slot,slotAt_congr h.same]
  cases h with
  | note same status =>
      rw [status]
      exact Or.inl rfl
  | verify same isOpen by_ status =>
      right
      rw [status,slotAt]
      split <;> rfl

theorem nodup_writes {closes : Finding → Prop} (hw : Writes closes s t) (h : (slots s).Nodup) :
    (slots t).Nodup := by
  induction hw with
  | refl => exact h
  | tail _ hw ih =>
      cases hw with
      | store f hid hopen hclosed hrisk hbasis hfree =>
          rw [slots,push,List.filterMap_append]
          cases hslot : slot f with
          | none => simpa [List.filterMap_cons,hslot,slots] using ih
          | some b =>
              rw [List.filterMap_cons_some hslot,List.nodup_append]
              refine ⟨ih,by simp,fun a ha c hc => ?_⟩
              rw [List.filterMap_nil] at hc
              cases List.mem_singleton.mp hc
              exact fun he => hfree b hslot (he ▸ ha)
      | rows l hl =>
          exact ih.sublist (Tables.sublist_filterMap_of_forall₂ (hl.imp fun _ _ => slot_rowStep))

theorem nodup_patched {ctx : Ctx} {id : ℕ} {body : PatchBody} {now : ℤ} {plan : Patch}
    (hplan : planFindingPatch parse body ctx now = .ok plan) (hfits : Fits s (.patch ctx id body now))
    (h : (slots s).Nodup) : (slots (patched s ctx id plan body now)).Nodup := by
  refine Tables.nodup_filterMap_update h fun f b hf hb => ?_
  rw [slot,slotAt_congr (same_patchedRow plan body now f)] at hb
  rcases planFindingPatch_ok hplan with rfl | ⟨status,risk,hrequested,rfl,-⟩
  · exact Or.inl hb
  · exact hfits f status hf hrequested b hb

theorem Effect.nodup {op : Op} (he : Effect parse s op t) (hfits : Fits s op)
    (h : (slots s).Nodup) : (slots t).Nodup := by
  cases he with
  | writes hw => exact nodup_writes hw h
  | patch ctx id body now plan hplan => exact nodup_patched hplan hfits h

/-- Rows that take one place are at most one. -/
theorem length_filter_le_one {p : Finding → Bool} {b : Slot} (h : (slots s).Nodup)
    (hp : ∀ f,p f = true → slot f = some b) : (s.findings.filter p).length ≤ 1 := by
  have hsame : (s.findings.filter p).filterMap slot =
      List.replicate (s.findings.filter p).length b := by
    rw [List.eq_replicate_iff]
    have hmap : (s.findings.filter p).filterMap slot = (s.findings.filter p).map fun _ => b := by
      rw [← List.filterMap_eq_map]
      exact List.filterMap_congr fun f hf => hp f (List.mem_filter.mp hf).2
    rw [hmap]
    exact ⟨by simp,fun c hc => by simpa using (List.mem_map.mp hc).choose_spec.2.symm⟩
  have hnodup : ((s.findings.filter p).filterMap slot).Nodup :=
    h.sublist (List.filter_sublist.filterMap slot)
  rw [hsame] at hnodup
  exact List.nodup_replicate.mp hnodup

variable (P parse) in
def FitsRun (s : Store) : List Op → Prop
  | [] => True
  | op::ops => Fits s op ∧ FitsRun (apply P parse s op).1 ops

end

/-- In every run whose patches open a finding only where its place is free, there is at most one
open finding for a check, and at most one finding in work for a dedupe key. -/
theorem one_open_finding (P : Platform) (parse : JsString → Option ℤ) (ops : List Op)
    (h : FitsRun P parse Store.empty ops) :
    let s := exec P parse Store.empty ops
    (∀ tenantId targetGroupId targetId checkId,(s.findings.filter fun f =>
      !isProtectionValidationFinding f && f.tenantId == tenantId &&
        f.targetGroupId == targetGroupId && f.targetId == targetId && f.checkId == checkId &&
        f.status == .opened).length ≤ 1) ∧
    ∀ tenantId key,(s.findings.filter fun f => f.tenantId == tenantId &&
      findingDedupeKey f == some key && f.status.isOpen).length ≤ 1 := by
  have hrun : ∀ (ops : List Op) (s : Store),Fresh s → (slots s).Nodup → FitsRun P parse s ops →
      (slots (exec P parse s ops)).Nodup := by
    intro ops
    induction ops with
    | nil => exact fun s _ hn _ => hn
    | cons op ops ih =>
        intro s hs hn hfits
        have he : Effect parse s op (apply P parse s op).1 := apply_effect hs op
        exact ih _ (he.fresh hs) (he.nodup hfits.1 hn) hfits.2
  have hn := hrun ops Store.empty fresh_empty (by simp [slots,Store.empty]) h
  constructor
  · intro tenantId targetGroupId targetId checkId
    refine length_filter_le_one (b := .check tenantId targetGroupId targetId checkId) hn ?_
    intro f hf
    simp only [Bool.and_eq_true,Bool.not_eq_true',beq_iff_eq] at hf
    obtain ⟨⟨⟨⟨⟨hp,rfl⟩,rfl⟩,rfl⟩,rfl⟩,hopen⟩ := hf
    simp [slot,slotAt,dedupeKey_eq_none.mpr hp,hopen]
  · intro tenantId key
    refine length_filter_le_one (b := .protection tenantId key) hn ?_
    intro f hf
    simp only [Bool.and_eq_true,beq_iff_eq] at hf
    obtain ⟨⟨rfl,hkey⟩,hopen⟩ := hf
    simp [slot,slotAt,hkey,hopen]

def plainPlatform : Platform where
  digest := fun _ => "pvf_0"
  evaluationDigest := fun e => e.evaluationDigest
  parseDate := fun _ => some 0
  localeCompare := compare

def engineer : Ctx := ⟨"t",some "u",false,none⟩

def setStatus (text : String) : PatchBody := ⟨false,some text,none,none,none⟩

def exposed (verdictId : String) : Op :=
  .verdict "t" ⟨verdictId,none,"run",some "g","x",some "check",none,none⟩ 0

/-- The finding is resolved, and the next verdict stores another one. -/
def recurred : List Op := [exposed "v1",.patch engineer 0 (setStatus "resolved") 1,exposed "v2"]

theorem recurred_has_one_open_finding :
    ((exec plainPlatform (fun _ => none) Store.empty recurred).findings.filter fun f =>
      !isProtectionValidationFinding f && f.tenantId == "t" && f.targetGroupId == some "g" &&
        f.targetId == some "x" && f.checkId == some "check" && f.status == .opened).length ≤ 1 := by
  refine (one_open_finding plainPlatform (fun _ => none) recurred ⟨trivial,?_,trivial,trivial⟩).1
    "t" (some "g") (some "x") (some "check")
  intro f status hf hstatus b hb
  cases (by decide : requestedStatus (setStatus "resolved") = some .resolved).symm.trans hstatus
  rw [slotAt] at hb
  split at hb <;> cases hb

/-- Reopening the resolved finding makes two open findings of the same check. -/
theorem reopened_beside_open_finding :
    ((exec plainPlatform (fun _ => none) Store.empty
      (recurred++[.patch engineer 0 (setStatus "open") 2])).findings.filter fun f =>
      !isProtectionValidationFinding f && f.tenantId == "t" && f.targetGroupId == some "g" &&
        f.targetId == some "x" && f.checkId == some "check" && f.status == .opened).length = 2 := by
  decide

end AstraNull.FindingInvariants
