import Mathlib
import AstraNull.Runs
import AstraNull.DnsOwnership

/-!
# Verification across the lookup

Calls of `verifyChallenge` that overlap at their lookups, with challenges being issued, other
ownership rows being written and targets and groups being changed in between. Challenges keep
their identity and leave the pending state once, rows are only appended, and at most one
challenge of a target can still be verified.
-/
namespace AstraNull.DnsOwnershipProtocol
open JsonText CanonicalJson ScriptText ScriptValue OwnershipTransitions DnsOwnership Runs

/-- A challenge after a write: its identity stays and it never becomes pending again. -/
structure Kept (c d : Challenge) : Prop where
  id : d.id = c.id
  tenantId : d.tenantId = c.tenantId
  targetGroupId : d.targetGroupId = c.targetGroupId
  targetId : d.targetId = c.targetId
  recordName : d.recordName = c.recordName
  recordValue : d.recordValue = c.recordValue
  expiresAt : d.expiresAt = c.expiresAt
  binding : d.binding = c.binding
  settled : c.state ≠ .pending → d.state ≠ .pending

theorem Kept.refl (c : Challenge) : Kept c c := ⟨rfl,rfl,rfl,rfl,rfl,rfl,rfl,rfl,fun h => h⟩

theorem Kept.trans {c d e : Challenge} (h : Kept c d) (h' : Kept d e) : Kept c e where
  id := h'.id.trans h.id
  tenantId := h'.tenantId.trans h.tenantId
  targetGroupId := h'.targetGroupId.trans h.targetGroupId
  targetId := h'.targetId.trans h.targetId
  recordName := h'.recordName.trans h.recordName
  recordValue := h'.recordValue.trans h.recordValue
  expiresAt := h'.expiresAt.trans h.expiresAt
  binding := h'.binding.trans h.binding
  settled hc := h'.settled (h.settled hc)

theorem kept_expired (now : ℤ) (c : Challenge) : Kept c (expired now c) :=
  ⟨rfl,rfl,rfl,rfl,rfl,rfl,rfl,rfl,fun _ => by simp [expired]⟩

theorem kept_checked (now : ℤ) (values : List JsString) (found timedOut : Bool) (c : Challenge) :
    Kept c (checkedChallenge now values found timedOut c) := by
  refine ⟨rfl,rfl,rfl,rfl,rfl,rfl,rfl,rfl,fun hc => ?_⟩
  cases found with
  | true => simp [checkedChallenge]
  | false => simpa [checkedChallenge] using hc

/-- Only challenges and the rate buckets are written. -/
structure Touched (s t : Store) : Prop where
  now : t.now = s.now
  targetGroups : t.targetGroups = s.targetGroups
  targets : t.targets = s.targets
  challenges : List.Forall₂ Kept s.dnsChallenges t.dnsChallenges

theorem forall₂_kept_refl (l : List Challenge) : List.Forall₂ Kept l l :=
  List.forall₂_same.mpr fun c _ => Kept.refl c

theorem Touched.refl (s : Store) : Touched s s := ⟨rfl,rfl,rfl,forall₂_kept_refl _⟩

theorem touched_write (s : Store) (c : Challenge) {f : Challenge → Challenge}
    (hf : ∀ d,Kept d (f d)) : Touched s (writeChallenge s c f) := by
  refine ⟨rfl,rfl,rfl,?_⟩
  unfold writeChallenge
  dsimp only
  induction s.dnsChallenges with
  | nil => exact .nil
  | cons d l ih =>
      unfold Tables.update
      split
      · exact .cons (hf d) (forall₂_kept_refl l)
      · exact .cons (Kept.refl d) ih

theorem touched_rate (s : Store) (targetId : JsString) :
    Touched s (checkVerifyRateLimit s targetId).1 ∧
      (checkVerifyRateLimit s targetId).1.targetVerifications = s.targetVerifications := by
  unfold checkVerifyRateLimit
  dsimp only
  split
  · exact ⟨⟨rfl,rfl,rfl,forall₂_kept_refl _⟩,rfl⟩
  · split
    · exact ⟨⟨rfl,rfl,rfl,forall₂_kept_refl _⟩,rfl⟩
    · exact ⟨⟨rfl,rfl,rfl,forall₂_kept_refl _⟩,rfl⟩

section Functions
variable {P : Platform} {s : Store}

theorem beginVerify_touched (tenantId userId challengeId targetGroupId : JsString) :
    Touched s (beginVerify P s tenantId userId challengeId targetGroupId).1 ∧
      (beginVerify P s tenantId userId challengeId targetGroupId).1.targetVerifications =
        s.targetVerifications := by
  have hsame : Touched s s ∧ s.targetVerifications = s.targetVerifications :=
    ⟨Touched.refl s,rfl⟩
  unfold beginVerify
  split
  · exact hsame
  rename_i c hc
  split
  · exact hsame
  split
  · exact hsame
  split
  · exact hsame
  split
  · exact hsame
  split
  · exact hsame
  split
  · exact hsame
  split
  · exact ⟨touched_write s c (kept_expired s.now),rfl⟩
  have hrate := touched_rate s c.targetId
  split
  · rename_i t wait heq
    rw [heq] at hrate
    exact hrate
  · rename_i t heq
    rw [heq] at hrate
    exact hrate

theorem target_of_find {tenantId groupId targetId : JsString} {target : Target}
    (h : findTarget s tenantId groupId targetId = some target) :
    target ∈ s.targets ∧ target.id = targetId ∧ target.tenantId = tenantId ∧
      target.targetGroupId = groupId ∧ target.deleted = false := by
  unfold findTarget at h
  split at h
  · cases h
  · have hkey := List.find?_some h
    simp only [Bool.and_eq_true,beq_iff_eq,Bool.not_eq_true'] at hkey
    exact ⟨List.mem_of_find?_eq_some h,hkey.1.1.1,hkey.1.1.2,hkey.1.2,hkey.2⟩

theorem challenge_of_find {tenantId challengeId : JsString} {c : Challenge}
    (h : findChallenge s tenantId challengeId = some c) :
    c ∈ s.dnsChallenges ∧ c.id = challengeId ∧ c.tenantId = tenantId := by
  have hkey := List.find?_some h
  simp only [isChallenge,Bool.and_eq_true,beq_iff_eq] at hkey
  exact ⟨List.mem_of_find?_eq_some h,hkey⟩

/-- What a call holds when it goes to its lookup. -/
theorem beginVerify_lookup {tenantId userId challengeId targetGroupId : JsString} {t : Store}
    {captured : Captured}
    (h : beginVerify P s tenantId userId challengeId targetGroupId = (t,.lookup captured)) :
    ∃ c ∈ s.dnsChallenges,c.id = challengeId ∧ c.tenantId = tenantId ∧
      captured.tenantId = tenantId ∧ captured.challengeId = challengeId ∧
      captured.recordName = c.recordName ∧ captured.originalOwnership =
        ownershipGeneration P s.targetVerifications tenantId c.targetId := by
  unfold beginVerify at h
  split at h
  · cases h
  rename_i c hc
  split at h
  · cases h
  split at h
  · cases h
  split at h
  · cases h
  split at h
  · cases h
  rename_i target htarget
  split at h
  · cases h
  split at h
  · cases h
  split at h
  · cases h
  split at h
  · cases h
  · cases h
    obtain ⟨hmem,hid,hten⟩ := challenge_of_find hc
    refine ⟨c,hmem,hid,hten,rfl,rfl,rfl,?_⟩
    rw [(target_of_find htarget).2.1]

/-- Every exit of the second part. -/
theorem finishVerify_touched (call : Captured) (records : List (JsString ⊕ List JsString))
    (timedOut : Bool) (rowId auditId : JsString) :
    Touched s (finishVerify P s call records timedOut rowId auditId).1 ∧
      (finishVerify P s call records timedOut rowId auditId).1.targetVerifications =
        s.targetVerifications++
          (finishVerify P s call records timedOut rowId auditId).2.2.toList := by
  have hsame : Touched s s ∧ s.targetVerifications = s.targetVerifications++[] :=
    ⟨Touched.refl s,by simp⟩
  have hexpire : ∀ c,Touched s (expireChallenge s c).1 ∧
      (expireChallenge s c).1.targetVerifications = s.targetVerifications++[] :=
    fun c => ⟨touched_write s c (kept_expired s.now),by simp [expireChallenge,writeChallenge]⟩
  unfold finishVerify
  split
  · exact hsame
  rename_i c hc
  split
  · split
    · exact hexpire c
    · exact hsame
  split
  · exact hsame
  split
  · exact hsame
  split
  · exact hsame
  split
  · exact hsame
  split
  · exact hexpire c
  split
  · exact hsame
  unfold decideVerify
  split
  · split
    · exact hsame
    · have hw := touched_write s c (kept_checked s.now (flattenTxtRecords records) true timedOut)
      exact ⟨⟨hw.now,hw.targetGroups,hw.targets,hw.challenges⟩,rfl⟩
  · exact ⟨touched_write s c (kept_checked s.now (flattenTxtRecords records) false timedOut),
      by simp [writeChallenge]⟩

/-- What holds when the second part appends a row. -/
structure Appends (P : Platform) (s t : Store) (call : Captured)
    (records : List (JsString ⊕ List JsString)) (row : Verification) (c : Challenge)
    (target : Target) (domain : JsString) : Prop where
  found : findChallenge s call.tenantId call.challengeId = some c
  group : ∃ g ∈ s.targetGroups,g.id = c.targetGroupId ∧ g.tenantId = c.tenantId ∧
    g.archived = false
  live : findTarget s call.tenantId c.targetGroupId c.targetId = some target
  host : dnsOwnershipDomain P target = some domain
  recordName : c.recordName = recordNameOf domain
  definition : target.kind = .url → bindingMatches P c.binding target = true
  pending : c.state = .pending
  unexpired : s.now < c.expiresAt
  generation : ownershipGeneration P s.targetVerifications call.tenantId c.targetId =
    call.originalOwnership
  value : c.recordValue ∈ flattenTxtRecords records
  resolved : ∃ values timedOut,t.dnsChallenges = Tables.update (isChallenge c.tenantId c.id)
    (checkedChallenge s.now values true timedOut) s.dnsChallenges
  written : ∃ ms rowId auditId,row = verifiedRow P call c ms rowId auditId

theorem group_of_find {tenantId groupId : JsString} {g : TargetGroup}
    (h : findActiveTargetGroup s tenantId groupId = some g) :
    g ∈ s.targetGroups ∧ g.id = groupId ∧ g.tenantId = tenantId ∧ g.archived = false := by
  have hkey := List.find?_some h
  simp only [Bool.and_eq_true,beq_iff_eq,Bool.not_eq_true'] at hkey
  exact ⟨List.mem_of_find?_eq_some h,hkey.1.1,hkey.1.2,hkey.2⟩

theorem matches_domain {c : Challenge} {target : Target}
    (h : dnsOwnershipChallengeMatchesTarget P c target = true) :
    ∃ domain,dnsOwnershipDomain P target = some domain ∧ c.recordName = recordNameOf domain ∧
      (target.kind = .url → bindingMatches P c.binding target = true) := by
  unfold dnsOwnershipChallengeMatchesTarget at h
  split at h
  · cases h
  · rename_i domain hd
    simp only [Bool.and_eq_true,decide_eq_true_eq,Bool.or_eq_true] at h
    refine ⟨domain,hd,h.1.2,fun hk => ?_⟩
    rcases h.2 with hne | hm
    · exact absurd hk hne
    · exact hm

theorem finishVerify_row {call : Captured} {records : List (JsString ⊕ List JsString)}
    {timedOut : Bool} {rowId auditId : JsString} {t : Store} {response : Response}
    {row : Verification}
    (h : finishVerify P s call records timedOut rowId auditId = (t,response,some row)) :
    ∃ c target domain,Appends P s t call records row c target domain := by
  unfold finishVerify at h
  split at h
  · cases h
  rename_i c hc
  split at h
  · split at h <;> cases h
  split at h
  · cases h
  rename_i g hg
  split at h
  · cases h
  rename_i target htarget
  split at h
  · cases h
  rename_i hmatch
  split at h
  · cases h
  rename_i hpending
  split at h
  · cases h
  rename_i hexpires
  split at h
  · cases h
  rename_i hgeneration
  obtain ⟨-,hid,hten⟩ := challenge_of_find hc
  push Not at hmatch
  obtain ⟨domain,hd,hname,hdef⟩ := matches_domain (by simpa using hmatch.2)
  unfold decideVerify at h
  split at h
  · rename_i hvalue
    split at h
    · cases h
    · rename_i ms hms
      cases h
      obtain ⟨hgmem,hgid,hgten,harch⟩ := group_of_find hg
      refine ⟨c,target,domain,?_⟩
      constructor
      · exact hc
      · exact ⟨g,hgmem,hgid,hgten.trans hten.symm,harch⟩
      · exact htarget
      · exact hd
      · exact hname
      · exact hdef
      · exact not_not.mp hpending
      · exact lt_of_not_ge hexpires
      · exact not_not.mp hgeneration
      · exact hvalue
      · exact ⟨_,_,rfl⟩
      · exact ⟨ms,rowId,auditId,rfl⟩
  · cases h

/-- The first part goes to its lookup. -/
theorem beginVerify_eq {tenantId challengeId : JsString} (userId : JsString) {c : Challenge}
    {g : TargetGroup} {target : Target} (hc : findChallenge s tenantId challengeId = some c)
    (hg : findActiveTargetGroup s tenantId c.targetGroupId = some g)
    (ht : findTarget s tenantId c.targetGroupId c.targetId = some target)
    (hm : dnsOwnershipChallengeMatchesTarget P c target = true) (hp : c.state = .pending)
    (he : s.now < c.expiresAt) (hrate : (checkVerifyRateLimit s c.targetId).2 = none) :
    beginVerify P s tenantId userId challengeId [] = ((checkVerifyRateLimit s c.targetId).1,
      .lookup ⟨tenantId,userId,challengeId,c.recordName,challengeBinding P c,
        canonicalText (dnsOwnershipLookupTarget P target),
        ownershipGeneration P s.targetVerifications tenantId target.id⟩) := by
  have hne : c.targetId ≠ [] := by
    intro hnil
    simp [findTarget,hnil] at ht
  have hpair : checkVerifyRateLimit s c.targetId = ((checkVerifyRateLimit s c.targetId).1,none) :=
    Prod.ext rfl hrate
  unfold beginVerify
  rw [hc]
  simp only [ne_eq,not_true_eq_false,false_and,if_false]
  rw [hg]
  simp only [hne,if_false]
  rw [ht]
  simp only [hm,hp,Bool.not_true,Bool.false_eq_true,if_false,not_true_eq_false,not_le.mpr he]
  rw [hpair]

/-- A store in which nothing has changed since the lookup was sent verifies the challenge. -/
theorem finishVerify_eq {call : Captured} {records : List (JsString ⊕ List JsString)}
    (timedOut : Bool) (rowId auditId : JsString) {c : Challenge} {g : TargetGroup}
    {target : Target} {ms : ℤ} (hc : findChallenge s call.tenantId call.challengeId = some c)
    (hb : challengeBinding P c = call.originalBinding)
    (hg : findActiveTargetGroup s call.tenantId c.targetGroupId = some g)
    (ht : findTarget s call.tenantId c.targetGroupId c.targetId = some target)
    (hl : canonicalText (dnsOwnershipLookupTarget P target) = call.originalTarget)
    (hm : dnsOwnershipChallengeMatchesTarget P c target = true) (hp : c.state = .pending)
    (he : s.now < c.expiresAt)
    (hown : ownershipGeneration P s.targetVerifications call.tenantId c.targetId =
      call.originalOwnership) (hv : c.recordValue ∈ flattenTxtRecords records)
    (hms : allocateOwnershipTransitionAt s.targetVerifications call.tenantId c.targetId s.now =
      some ms) :
    (finishVerify P s call records timedOut rowId auditId).2.2 =
      some (verifiedRow P call c ms rowId auditId) := by
  unfold finishVerify
  rw [hc]
  simp only [hb,ne_eq,not_true_eq_false,if_false]
  rw [hg]
  dsimp only
  rw [ht]
  simp only [hl,hm,hp,hown,not_true_eq_false,Bool.not_true,Bool.false_eq_true,or_self,if_false,
    not_le.mpr he]
  unfold decideVerify
  rw [if_pos hv,hms]

/-- A challenge is appended only when no other one of the target can still be verified. -/
theorem issueChallenge_store (tenantId groupId targetId challengeId recordValue : JsString) :
    (issueChallenge P s tenantId groupId targetId challengeId recordValue).1 = s ∨
    ∃ target domain,issueTarget s tenantId groupId targetId = some target ∧
      (target.id ≠ [] → findPendingChallengeForTarget s tenantId groupId target.id = none) ∧
      (issueChallenge P s tenantId groupId targetId challengeId recordValue).1 =
        { s with dnsChallenges := s.dnsChallenges++
            [newChallenge P s tenantId groupId target domain challengeId recordValue] } := by
  unfold issueChallenge
  split
  · exact Or.inl rfl
  split
  · exact Or.inl rfl
  rename_i target htarget
  split
  · exact Or.inl rfl
  split
  · exact Or.inl rfl
  rename_i domain hd
  split
  · exact Or.inl rfl
  · rename_i hnone
    refine Or.inr ⟨target,domain,htarget,fun hne => ?_,rfl⟩
    simpa [hne] using hnone

theorem target_of_issue {tenantId groupId targetId : JsString} {target : Target}
    (h : issueTarget s tenantId groupId targetId = some target) :
    target ∈ s.targets ∧ target.tenantId = tenantId ∧ target.targetGroupId = groupId := by
  unfold issueTarget at h
  split at h
  · have hkey := List.find?_some h
    simp only [Bool.and_eq_true,beq_iff_eq] at hkey
    exact ⟨List.mem_of_find?_eq_some h,hkey.1.1.1,hkey.1.1.2⟩
  · obtain ⟨hmem,-,hten,hgrp,-⟩ := target_of_find h
    exact ⟨hmem,hten,hgrp⟩

end Functions

section Digests
variable {P : Platform}

theorem canonical_of_digest (hsha : Function.Injective P.sha256) {v w : JsVal}
    (hv : WellFormed v) (hw : WellFormed w)
    (h : sha256CanonicalJson P v = sha256CanonicalJson P w) :
    canonical (clean v) = canonical (clean w) := by
  have htext : canonicalText v = canonicalText w :=
    String.ofList_injective (String.toByteArray_inj.mp (hsha h))
  have hclean := text_injective (wellFormed_canonical hv) (wellFormed_canonical hw) htext
  rwa [clean_canonical hv,clean_canonical hw] at hclean

/-- Definitions that differ at most in the order of object members. -/
def SameDefinition (t u : Target) : Prop :=
  Reordering (clean (definition t)) (clean (definition u))

theorem wellFormed_orNull (v : Plain) : WellFormed (orElse v.1 .null) := by
  unfold orElse
  split
  · exact .null
  · exact v.2

theorem wellFormed_definition (t : Target) : WellFormed (definition t) := by
  unfold definition
  refine .obj ?_ ?_
  · simp only [List.map_cons,List.map_nil]
    decide
  · intro p hp
    simp only [List.mem_cons,List.not_mem_nil,or_false] at hp
    rcases hp with rfl | rfl | rfl | rfl | rfl | rfl | rfl | rfl
    · exact .str _
    · exact .str _
    · exact .str _
    · exact wellFormed_orNull t.protocol
    · exact wellFormed_orNull t.port
    · exact .str _
    · exact wellFormed_orNull t.expectedBehavior
    · exact wellFormed_orNull t.declarationJson

theorem sameDefinition_of_digest (hsha : Function.Injective P.sha256) {t u : Target}
    (h : sha256CanonicalJson P (definition t) = sha256CanonicalJson P (definition u)) :
    SameDefinition t u := by
  have hcan := canonical_of_digest hsha (wellFormed_definition t) (wellFormed_definition u) h
  exact (reordering_iff (wellFormed_definition t).isJson_clean.wellFormed).mpr hcan

theorem isJson_texts (l : List JsString) : IsJson (.arr (l.map .str)) := by
  refine .arr fun v hv => ?_
  obtain ⟨x,-,rfl⟩ := List.mem_map.mp hv
  exact .str x

theorem canonical_texts (l : List JsString) : canonical (.arr (l.map .str)) = .arr (l.map .str) := by
  rw [canonical,canonicalElements_eq,List.map_map]
  rfl

/-- A generation determines how many rows the target has. -/
theorem length_of_generation (hsha : Function.Injective P.sha256) {rows rows' : List Verification}
    {tenantId targetId : JsString} (h : ownershipGeneration P rows tenantId targetId =
      ownershipGeneration P rows' tenantId targetId) :
    (rows.filter (isOf tenantId targetId)).length =
      (rows'.filter (isOf tenantId targetId)).length := by
  unfold ownershipGeneration at h
  have hcan := canonical_of_digest hsha (isJson_texts _).wellFormed (isJson_texts _).wellFormed h
  rw [clean_of_isJson (isJson_texts _),clean_of_isJson (isJson_texts _),canonical_texts,
    canonical_texts] at hcan
  have hlen := congrArg List.length (JsVal.arr.inj hcan)
  simpa [historyTexts] using hlen

end Digests

inductive Phase where
  | importing
  | looking
  | answered (records : List (JsString ⊕ List JsString)) (timedOut : Bool)

structure Call where
  captured : Captured
  phase : Phase

structure State where
  store : Store
  calls : ℕ → Option Call
  nextCall : ℕ

inductive Op where
  | tick (now : ℤ)
  | groups (targetGroups : List TargetGroup)
  | addTarget (target : Target)
  | editTarget (target : Target)
  | transition (row : Verification)
  | issue (tenantId groupId targetId challengeId : JsString)
  | verify (id : ℕ) (tenantId challengeId : JsString)
  | lookup (id : ℕ) (recordName : JsString)
  | answer (id : ℕ) (records : List (JsString ⊕ List JsString)) (timedOut : Bool)
  | resume (id : ℕ) (row : Option Verification)

/-- The ownership rows an operation appends. -/
def Op.appended : Op → List Verification
  | .transition row => [row]
  | .resume _ row => row.toList
  | _ => []

def State.withStore (s : State) (store : Store) : State := { s with store := store }

def State.set (s : State) (id : ℕ) (call : Option Call) : State :=
  { s with calls := Function.update s.calls id call }

/-- The first part of a call either returns or leaves it before its lookup. -/
def State.started (s : State) (store : Store) (out : Begin) : State where
  store := store
  calls := Function.update s.calls s.nextCall (match out with
    | .returned _ => none
    | .lookup captured => some ⟨captured,.importing⟩)
  nextCall := s.nextCall+1

/-- Identifiers are fresh and the clock does not run backwards. Groups change in any way;
a target keeps its identifier, tenant and group, and may change in every other field. -/
inductive Step (P : Platform) : State → Op → State → Prop
  | tick {s : State} {now : ℤ} : s.store.now ≤ now →
      Step P s (.tick now) (s.withStore { s.store with now := now })
  | groups {s : State} {targetGroups : List TargetGroup} :
      Step P s (.groups targetGroups) (s.withStore { s.store with targetGroups := targetGroups })
  | addTarget {s : State} {target : Target} : target.id ≠ [] →
      (∀ t ∈ s.store.targets,t.id ≠ target.id) →
      Step P s (.addTarget target)
        (s.withStore { s.store with targets := s.store.targets++[target] })
  | editTarget {s : State} {target : Target} :
      (∀ t ∈ s.store.targets,t.id = target.id →
        t.tenantId = target.tenantId ∧ t.targetGroupId = target.targetGroupId) →
      Step P s (.editTarget target) (s.withStore { s.store with
        targets := Tables.updateAll (fun t => t.id == target.id) (fun _ => target)
          s.store.targets })
  | transition {s : State} {row : Verification} : Step P s (.transition row)
      (s.withStore { s.store with
        targetVerifications := s.store.targetVerifications++[row] })
  | issue {s : State} {tenantId groupId targetId challengeId recordValue : JsString} :
      (∀ c ∈ s.store.dnsChallenges,c.id ≠ challengeId) →
      Step P s (.issue tenantId groupId targetId challengeId) (s.withStore
        (issueChallenge P s.store tenantId groupId targetId challengeId recordValue).1)
  | verify {s : State} {tenantId userId challengeId targetGroupId : JsString} {store : Store}
      {out : Begin} :
      beginVerify P s.store tenantId userId challengeId targetGroupId = (store,out) →
      Step P s (.verify s.nextCall tenantId challengeId) (s.started store out)
  /-- The resolver module is loaded and the query is sent. -/
  | lookup {s : State} {id : ℕ} {c : Call} : s.calls id = some c → c.phase = .importing →
      Step P s (.lookup id c.captured.recordName) (s.set id (some { c with phase := .looking }))
  /-- Any answer after any delay; a failed or late query answers nothing. -/
  | answer {s : State} {id : ℕ} {c : Call} {records : List (JsString ⊕ List JsString)}
      {timedOut : Bool} : s.calls id = some c → c.phase = .looking →
      Step P s (.answer id records timedOut)
        (s.set id (some { c with phase := .answered records timedOut }))
  | resume {s : State} {id : ℕ} {c : Call} {records : List (JsString ⊕ List JsString)}
      {timedOut : Bool} {rowId auditId : JsString} {store : Store} {response : Response}
      {row : Option Verification} : s.calls id = some c → c.phase = .answered records timedOut →
      finishVerify P s.store c.captured records timedOut rowId auditId = (store,response,row) →
      Step P s (.resume id row) ((s.set id none).withStore store)

section Steps
variable {P : Platform} {s t : State} {op : Op}

theorem calls_set {s : State} {i j : ℕ} {call : Option Call} {c : Call}
    (h : (s.set i call).calls j = some c) :
    j = i ∧ call = some c ∨ j ≠ i ∧ s.calls j = some c := by
  by_cases hj : j = i
  · subst hj
    exact Or.inl ⟨rfl,by simpa [State.set] using h⟩
  · exact Or.inr ⟨hj,by simpa [State.set,hj] using h⟩

theorem step_rows (hs : Step P s op t) :
    t.store.targetVerifications = s.store.targetVerifications++op.appended := by
  cases hs with
  | tick _ => simp [State.withStore,Op.appended]
  | groups => simp [State.withStore,Op.appended]
  | addTarget _ _ => simp [State.withStore,Op.appended]
  | editTarget _ => simp [State.withStore,Op.appended]
  | transition => simp [State.withStore,Op.appended]
  | @issue tenantId groupId targetId challengeId recordValue _ =>
      rcases issueChallenge_store (P := P) (s := s.store) tenantId groupId targetId challengeId
        recordValue with h | ⟨target,domain,-,-,h⟩
      · simp [State.withStore,Op.appended,h]
      · simp [State.withStore,Op.appended,h]
  | @verify tenantId userId challengeId targetGroupId _ _ h =>
      have hb := (beginVerify_touched (P := P) (s := s.store) tenantId userId challengeId
        targetGroupId).2
      rw [h] at hb
      simpa [State.started,Op.appended] using hb
  | lookup _ _ => simp [State.set,Op.appended]
  | answer _ _ => simp [State.set,Op.appended]
  | @resume _ c records timedOut rowId auditId _ _ _ _ _ h =>
      have hf := (finishVerify_touched (P := P) (s := s.store) c.captured records timedOut rowId
        auditId).2
      rw [h] at hf
      exact hf

theorem run_rows {k : List Op} (hr : Run (Step P) s k t) :
    t.store.targetVerifications = s.store.targetVerifications++k.flatMap Op.appended := by
  induction hr with
  | start => simp
  | step _ hs ih => rw [step_rows hs,ih,List.flatMap_append,List.append_assoc]; simp

end Steps

/-- At most one challenge of a target can still be verified. -/
def OnePending (s : Store) : Prop :=
  ∀ c ∈ s.dnsChallenges,∀ d ∈ s.dnsChallenges,c.state = .pending → s.now < c.expiresAt →
    d.state = .pending → s.now < d.expiresAt → c.tenantId = d.tenantId →
    c.targetId = d.targetId → c = d

structure StoreInv (s : Store) : Prop where
  challengeIds : (s.dnsChallenges.map Challenge.id).Nodup
  targetIds : (s.targets.map Target.id).Nodup
  named : ∀ t ∈ s.targets,t.id ≠ []
  bound : ∀ c ∈ s.dnsChallenges,∃ t ∈ s.targets,t.id = c.targetId ∧ t.tenantId = c.tenantId ∧
    t.targetGroupId = c.targetGroupId
  onePending : OnePending s

/-- A call still knows its challenge, and its generation is one of an earlier history. -/
def CallOk (P : Platform) (s : Store) (call : Captured) : Prop :=
  ∃ c ∈ s.dnsChallenges,c.id = call.challengeId ∧ c.tenantId = call.tenantId ∧
    c.recordName = call.recordName ∧ ∃ old new,s.targetVerifications = old++new ∧
    call.originalOwnership = ownershipGeneration P old call.tenantId c.targetId

structure Inv (P : Platform) (s : State) : Prop where
  store : StoreInv s.store
  calls : ∀ id c,s.calls id = some c → CallOk P s.store c.captured

/-- Steps that issue no challenge. -/
structure Moves (s t : Store) : Prop where
  now : s.now ≤ t.now
  challenges : List.Forall₂ Kept s.dnsChallenges t.dnsChallenges
  targetIds : (t.targets.map Target.id).Nodup
  named : ∀ u ∈ t.targets,u.id ≠ []
  targets : ∀ u ∈ s.targets,∃ v ∈ t.targets,v.id = u.id ∧ v.tenantId = u.tenantId ∧
    v.targetGroupId = u.targetGroupId

/-- Every challenge is still there. -/
def Later (s t : Store) : Prop := ∀ c ∈ s.dnsChallenges,∃ d ∈ t.dnsChallenges,Kept c d

theorem forall₂_left {l k : List Challenge} (h : List.Forall₂ Kept l k) :
    ∀ c ∈ l,∃ d ∈ k,Kept c d := by
  induction h with
  | nil => simp
  | @cons a b l k hab _ ih =>
      intro c hc
      rcases List.mem_cons.mp hc with rfl | hc
      · exact ⟨b,List.mem_cons_self,hab⟩
      · obtain ⟨d,hd,hk⟩ := ih c hc
        exact ⟨d,List.mem_cons_of_mem b hd,hk⟩

theorem forall₂_right {l k : List Challenge} (h : List.Forall₂ Kept l k) :
    ∀ d ∈ k,∃ c ∈ l,Kept c d := by
  induction h with
  | nil => simp
  | @cons a b l k hab _ ih =>
      intro d hd
      rcases List.mem_cons.mp hd with rfl | hd
      · exact ⟨a,List.mem_cons_self,hab⟩
      · obtain ⟨c,hc,hk⟩ := ih d hd
        exact ⟨c,List.mem_cons_of_mem a hc,hk⟩

theorem forall₂_ids {l k : List Challenge} (h : List.Forall₂ Kept l k) :
    k.map Challenge.id = l.map Challenge.id := by
  induction h with
  | nil => rfl
  | cons hab _ ih => rw [List.map_cons,List.map_cons,hab.id,ih]

/-- The identifier determines the challenge. -/
theorem challenge_unique {l : List Challenge} (h : (l.map Challenge.id).Nodup) {c d : Challenge}
    (hc : c ∈ l) (hd : d ∈ l) (hid : c.id = d.id) : c = d :=
  List.inj_on_of_nodup_map h hc hd hid

section Preservation
variable {P : Platform} {s t : State} {op : Op}

theorem StoreInv.moves {s t : Store} (h : StoreInv s) (hm : Moves s t) : StoreInv t where
  challengeIds := by
    rw [forall₂_ids hm.challenges]
    exact h.challengeIds
  targetIds := hm.targetIds
  named := hm.named
  bound d hd := by
    obtain ⟨c,hc,hk⟩ := forall₂_right hm.challenges d hd
    obtain ⟨u,hu,hid,hten,hgrp⟩ := h.bound c hc
    obtain ⟨v,hv,hid',hten',hgrp'⟩ := hm.targets u hu
    exact ⟨v,hv,(hid'.trans hid).trans hk.targetId.symm,(hten'.trans hten).trans hk.tenantId.symm,
      (hgrp'.trans hgrp).trans hk.targetGroupId.symm⟩
  onePending d hd d' hd' hp he hp' he' hten htar := by
    obtain ⟨c,hc,hk⟩ := forall₂_right hm.challenges d hd
    obtain ⟨c',hc',hk'⟩ := forall₂_right hm.challenges d' hd'
    have hpc : c.state = .pending := by
      by_contra hne
      exact hk.settled hne hp
    have hpc' : c'.state = .pending := by
      by_contra hne
      exact hk'.settled hne hp'
    have hlt : s.now < c.expiresAt := lt_of_le_of_lt hm.now (hk.expiresAt ▸ he)
    have hlt' : s.now < c'.expiresAt := lt_of_le_of_lt hm.now (hk'.expiresAt ▸ he')
    have hcc : c = c' := h.onePending c hc c' hc' hpc hlt hpc' hlt'
      (hk.tenantId.symm.trans (hten.trans hk'.tenantId))
      (hk.targetId.symm.trans (htar.trans hk'.targetId))
    have hids : (t.dnsChallenges.map Challenge.id).Nodup := by
      rw [forall₂_ids hm.challenges]
      exact h.challengeIds
    refine challenge_unique hids hd hd' ?_
    rw [hk.id,hk'.id,hcc]

/-- A new challenge of a target that has none. -/
theorem StoreInv.issue {s : Store} (h : StoreInv s) {tenantId groupId targetId : JsString}
    {challengeId recordValue domain : JsString} {target : Target}
    (hfresh : ∀ c ∈ s.dnsChallenges,c.id ≠ challengeId)
    (htarget : issueTarget s tenantId groupId targetId = some target)
    (hnone : target.id ≠ [] →
      findPendingChallengeForTarget s tenantId groupId target.id = none) :
    StoreInv { s with dnsChallenges := s.dnsChallenges++
      [newChallenge P s tenantId groupId target domain challengeId recordValue] } := by
  obtain ⟨hmem,hten,hgrp⟩ := target_of_issue htarget
  have hfree := hnone (h.named target hmem)
  -- An older challenge of the target is of the same group, as the target is.
  have hother : ∀ c ∈ s.dnsChallenges,c.state = .pending → s.now < c.expiresAt →
      c.tenantId = tenantId → c.targetId ≠ target.id := by
    intro c hc hp he hct htar
    obtain ⟨u,hu,hid,-,hug⟩ := h.bound c hc
    have hut : u = target := List.inj_on_of_nodup_map h.targetIds hu hmem (hid.trans htar)
    have hcg : c.targetGroupId = groupId := by rw [← hug,hut,hgrp]
    refine List.find?_eq_none.mp hfree c hc ?_
    simp [hct,hcg,htar,hp,he]
  constructor
  · dsimp only
    rw [List.map_append,List.map_cons,List.map_nil]
    refine List.Nodup.append h.challengeIds (List.nodup_singleton _) ?_
    intro x hx hy
    cases List.mem_singleton.mp hy
    obtain ⟨c,hc,hid⟩ := List.mem_map.mp hx
    exact hfresh c hc hid
  · exact h.targetIds
  · exact h.named
  · intro c hc
    rcases List.mem_append.mp hc with hc | hc
    · exact h.bound c hc
    · cases List.mem_singleton.mp hc
      exact ⟨target,hmem,rfl,hten,hgrp⟩
  · intro c hc d hd hpc hec hpd hed hct htar
    rcases List.mem_append.mp hc with hc | hc
    · rcases List.mem_append.mp hd with hd | hd
      · exact h.onePending c hc d hd hpc hec hpd hed hct htar
      · cases List.mem_singleton.mp hd
        exact absurd htar (hother c hc hpc hec hct)
    · cases List.mem_singleton.mp hc
      rcases List.mem_append.mp hd with hd | hd
      · exact absurd htar.symm (hother d hd hpd hed hct.symm)
      · exact (List.mem_singleton.mp hd).symm

theorem Touched.moves {s t : Store} (h : Touched s t) (hinv : StoreInv s) : Moves s t where
  now := h.now.ge
  challenges := h.challenges
  targetIds := h.targets ▸ hinv.targetIds
  named := h.targets ▸ hinv.named
  targets u hu := ⟨u,h.targets ▸ hu,rfl,rfl,rfl⟩

/-- A step issues a challenge or moves the store. -/
theorem step_store (h : StoreInv s.store) (hs : Step P s op t) :
    Moves s.store t.store ∨
    ∃ tenantId groupId targetId challengeId recordValue target domain,
      op = .issue tenantId groupId targetId challengeId ∧
      (∀ c ∈ s.store.dnsChallenges,c.id ≠ challengeId) ∧
      issueTarget s.store tenantId groupId targetId = some target ∧
      (target.id ≠ [] →
        findPendingChallengeForTarget s.store tenantId groupId target.id = none) ∧
      t = s.withStore { s.store with dnsChallenges := s.store.dnsChallenges++
        [newChallenge P s.store tenantId groupId target domain challengeId recordValue] } := by
  have hsame : Moves s.store s.store := (Touched.refl s.store).moves h
  cases hs with
  | tick hnow =>
      exact Or.inl ⟨hnow,hsame.challenges,hsame.targetIds,hsame.named,hsame.targets⟩
  | groups =>
      exact Or.inl ⟨hsame.now,hsame.challenges,hsame.targetIds,hsame.named,hsame.targets⟩
  | @addTarget target hne hfresh =>
      refine Or.inl ⟨hsame.now,hsame.challenges,?_,?_,?_⟩
      · simp only [State.withStore,List.map_append,List.map_cons,List.map_nil]
        refine List.Nodup.append h.targetIds (List.nodup_singleton _) ?_
        intro x hx hy
        cases List.mem_singleton.mp hy
        obtain ⟨u,hu,hid⟩ := List.mem_map.mp hx
        exact hfresh u hu hid
      · intro u hu
        rcases List.mem_append.mp hu with hu | hu
        · exact h.named u hu
        · cases List.mem_singleton.mp hu
          exact hne
      · exact fun u hu => ⟨u,List.mem_append_left _ hu,rfl,rfl,rfl⟩
  | @editTarget target hkeep =>
      have hkey : ∀ u ∈ s.store.targets,∃ v ∈ Tables.updateAll (fun t => t.id == target.id)
          (fun _ => target) s.store.targets,v.id = u.id ∧ v.tenantId = u.tenantId ∧
            v.targetGroupId = u.targetGroupId := by
        intro u hu
        refine ⟨_,List.mem_map_of_mem hu,?_⟩
        split
        · rename_i hid
          have hid : u.id = target.id := by simpa using hid
          exact ⟨hid.symm,(hkeep u hu hid).1.symm,(hkeep u hu hid).2.symm⟩
        · exact ⟨rfl,rfl,rfl⟩
      have hids : (Tables.updateAll (fun t => t.id == target.id) (fun _ => target)
          s.store.targets).map Target.id = s.store.targets.map Target.id := by
        unfold Tables.updateAll
        rw [List.map_map]
        refine List.map_congr_left fun u _ => ?_
        simp only [Function.comp_apply]
        split
        · rename_i hid
          simpa using (beq_iff_eq.mp hid).symm
        · rfl
      refine Or.inl ⟨hsame.now,hsame.challenges,?_,?_,hkey⟩
      · exact hids ▸ h.targetIds
      · intro v hv
        have hmem : v.id ∈ s.store.targets.map Target.id := hids ▸ List.mem_map_of_mem hv
        obtain ⟨u,hu,hid⟩ := List.mem_map.mp hmem
        exact hid ▸ h.named u hu
  | transition =>
      exact Or.inl ⟨hsame.now,hsame.challenges,hsame.targetIds,hsame.named,hsame.targets⟩
  | @issue tenantId groupId targetId challengeId recordValue hfresh =>
      rcases issueChallenge_store (P := P) (s := s.store) tenantId groupId targetId challengeId
        recordValue with heq | ⟨target,domain,htarget,hnone,heq⟩
      · rw [heq]
        exact Or.inl hsame
      · refine Or.inr ⟨tenantId,groupId,targetId,challengeId,recordValue,target,domain,rfl,hfresh,
          htarget,hnone,?_⟩
        rw [heq]
  | @verify tenantId userId challengeId targetGroupId _ _ heq =>
      have hb := (beginVerify_touched (P := P) (s := s.store) tenantId userId challengeId
        targetGroupId).1
      rw [heq] at hb
      exact Or.inl (hb.moves h)
  | lookup _ _ => exact Or.inl hsame
  | answer _ _ => exact Or.inl hsame
  | @resume _ c records timedOut rowId auditId _ _ _ _ _ heq =>
      have hf := (finishVerify_touched (P := P) (s := s.store) c.captured records timedOut rowId
        auditId).1
      rw [heq] at hf
      exact Or.inl (hf.moves h)

theorem step_later (h : StoreInv s.store) (hs : Step P s op t) : Later s.store t.store := by
  rcases step_store h hs with hm | ⟨_,_,_,_,_,_,_,-,-,-,-,rfl⟩
  · exact forall₂_left hm.challenges
  · exact fun c hc => ⟨c,List.mem_append_left _ hc,Kept.refl c⟩

theorem CallOk.step {call : Captured} (hc : CallOk P s.store call) (h : StoreInv s.store)
    (hs : Step P s op t) : CallOk P t.store call := by
  obtain ⟨c,hmem,hid,hten,hname,old,new,hrows,hgen⟩ := hc
  obtain ⟨d,hd,hk⟩ := step_later h hs c hmem
  refine ⟨d,hd,hk.id.trans hid,hk.tenantId.trans hten,hk.recordName.trans hname,old,
    new++op.appended,?_,?_⟩
  · rw [step_rows hs,hrows,List.append_assoc]
  · rw [hgen,hk.targetId]

/-- A call that is there after a step was there before, or has just read its challenge. -/
theorem step_calls (hs : Step P s op t) {id : ℕ} {c : Call} (hc : t.calls id = some c) :
    (∃ c',s.calls id = some c' ∧ c'.captured = c.captured) ∨ CallOk P s.store c.captured := by
  cases hs with
  | tick _ => exact Or.inl ⟨c,hc,rfl⟩
  | groups => exact Or.inl ⟨c,hc,rfl⟩
  | addTarget _ _ => exact Or.inl ⟨c,hc,rfl⟩
  | editTarget _ => exact Or.inl ⟨c,hc,rfl⟩
  | transition => exact Or.inl ⟨c,hc,rfl⟩
  | issue _ => exact Or.inl ⟨c,hc,rfl⟩
  | @verify tenantId userId challengeId targetGroupId store out heq =>
      by_cases hid : id = s.nextCall
      · subst hid
        cases out with
        | returned response => simp [State.started] at hc
        | lookup captured =>
            obtain rfl : (⟨captured,.importing⟩ : Call) = c := by
              simpa [State.started] using hc
            obtain ⟨d,hd,hdid,hdten,hten,hcid,hname,hgen⟩ := beginVerify_lookup heq
            refine Or.inr ⟨d,hd,hdid.trans hcid.symm,hdten.trans hten.symm,hname.symm,
              s.store.targetVerifications,[],by simp,?_⟩
            rw [hgen,hten]
      · exact Or.inl ⟨c,by simpa [State.started,hid] using hc,rfl⟩
  | @lookup i c' hc' _ =>
      rcases calls_set hc with ⟨rfl,heq⟩ | ⟨-,hold⟩
      · cases heq
        exact Or.inl ⟨c',hc',rfl⟩
      · exact Or.inl ⟨c,hold,rfl⟩
  | @answer i c' _ _ hc' _ =>
      rcases calls_set hc with ⟨rfl,heq⟩ | ⟨-,hold⟩
      · cases heq
        exact Or.inl ⟨c',hc',rfl⟩
      · exact Or.inl ⟨c,hold,rfl⟩
  | resume _ _ _ =>
      rcases calls_set hc with ⟨-,heq⟩ | ⟨-,hold⟩
      · cases heq
      · exact Or.inl ⟨c,hold,rfl⟩

theorem inv_step : Preserved (Step P) (Inv P) := by
  intro s op t h hs
  constructor
  · rcases step_store h.store hs with hm | ⟨_,_,_,_,_,_,_,-,hfresh,htarget,hnone,rfl⟩
    · exact h.store.moves hm
    · exact h.store.issue hfresh htarget hnone
  · intro id c hc
    rcases step_calls hs hc with ⟨c',hc',heq⟩ | hok
    · exact (heq ▸ h.calls id c' hc').step h.store hs
    · exact hok.step h.store hs

theorem run_later (h : Inv P s) {k : List Op} (hr : Run (Step P) s k t) :
    Later s.store t.store := by
  have hboth : Inv P t ∧ Later s.store t.store := by
    refine hr.invariant (I := fun _ t => Inv P t ∧ Later s.store t.store)
      ⟨h,fun c hc => ⟨c,hc,Kept.refl c⟩⟩ ?_
    rintro k u op v ⟨hu,hlater⟩ hs
    refine ⟨inv_step _ _ _ hu hs,fun c hc => ?_⟩
    obtain ⟨d,hd,hk⟩ := hlater c hc
    obtain ⟨e,he,hk'⟩ := step_later hu.store hs d hd
    exact ⟨e,he,hk.trans hk'⟩
  exact hboth.2

end Preservation

end AstraNull.DnsOwnershipProtocol
