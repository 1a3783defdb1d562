import Mathlib
import AstraNull.Runs
import AstraNull.DnsOwnership
import AstraNull.DnsOwnershipProtocol

/-!
# Verified rows are justified

The histories of calls and challenges: a call past its import has sent its lookup, a challenge
was issued for a target. A row that a call appends is justified by the state at that moment
and by its own lookup.
-/
namespace AstraNull.DnsOwnershipHistory
open JsonText OwnershipTransitions DnsOwnership DnsOwnershipProtocol Runs

/-- No challenge and no call yet; identifiers of targets are distinct. -/
structure Initial (s : State) : Prop where
  challenges : s.store.dnsChallenges = []
  calls : ∀ id,s.calls id = none
  targetIds : (s.store.targets.map Target.id).Nodup
  named : ∀ t ∈ s.store.targets,t.id ≠ []

/-- The lookup of a call, with the state in which it was sent. -/
structure Looked (P : Platform) (s₀ : State) (k : List Op) (s : State) (id : ℕ)
    (captured : Captured) (k₁ k₂ : List Op) (u : State) : Prop where
  history : k = k₁++.lookup id captured.recordName::k₂
  before : Run (Step P) s₀ k₁ u
  after : Run (Step P) u (.lookup id captured.recordName::k₂) s
  known : CallOk P u.store captured

/-- The issue of a challenge, with the state and the target it was issued for. -/
structure Issued (P : Platform) (s₀ : State) (k : List Op) (c : Challenge) (k₁ k₂ : List Op)
    (u : State) (groupId targetId : JsString) (target : Target) : Prop where
  history : k = k₁++.issue c.tenantId groupId targetId c.id::k₂
  before : Run (Step P) s₀ k₁ u
  issuedFor : issueTarget u.store c.tenantId groupId targetId = some target
  binding : c.binding =
    if target.kind = .url then some (dnsOwnershipTargetBinding P target) else none

section Histories
variable {P : Platform} {s₀ s t : State} {op : Op} {k : List Op}

theorem Initial.inv (h : Initial s₀) : Inv P s₀ where
  store := {
    challengeIds := by simp [h.challenges]
    targetIds := h.targetIds
    named := h.named
    bound := by simp [h.challenges]
    onePending := by simp [OnePending,h.challenges] }
  calls id c hc := by
    rw [h.calls id] at hc
    cases hc

/-- How a call gets past its import. -/
theorem step_phase (hs : Step P s op t) {id : ℕ} {c : Call} (hc : t.calls id = some c)
    (hp : c.phase ≠ .importing) : s.calls id = some c ∨
    ∃ c',s.calls id = some c' ∧ c'.captured = c.captured ∧
      (op = .lookup id c.captured.recordName ∧ c.phase = .looking ∨
        c'.phase = .looking ∧ ∃ records timedOut,op = .answer id records timedOut ∧
          c.phase = .answered records timedOut) := by
  cases hs with
  | tick _ => exact Or.inl hc
  | groups => exact Or.inl hc
  | addTarget _ _ => exact Or.inl hc
  | editTarget _ => exact Or.inl hc
  | transition => exact Or.inl hc
  | issue _ => exact Or.inl hc
  | @verify tenantId userId challengeId targetGroupId store out heq =>
      by_cases hid : id = s.nextCall
      · subst hid
        cases out with
        | returned response => simp [State.started] at hc
        | lookup captured =>
            obtain rfl : (⟨captured,.importing⟩ : Call) = c := by
              simpa [State.started] using hc
            exact absurd rfl hp
      · exact Or.inl (by simpa [State.started,hid] using hc)
  | @lookup i c' hc' _ =>
      rcases calls_set hc with ⟨rfl,heq⟩ | ⟨-,hold⟩
      · cases heq
        exact Or.inr ⟨c',hc',rfl,Or.inl ⟨rfl,rfl⟩⟩
      · exact Or.inl hold
  | @answer i c' records timedOut hc' hlook =>
      rcases calls_set hc with ⟨rfl,heq⟩ | ⟨-,hold⟩
      · cases heq
        exact Or.inr ⟨c',hc',rfl,Or.inr ⟨hlook,records,timedOut,rfl,rfl⟩⟩
      · exact Or.inl hold
  | resume _ _ _ =>
      rcases calls_set hc with ⟨-,heq⟩ | ⟨-,hold⟩
      · cases heq
      · exact Or.inl hold

theorem Looked.step {id : ℕ} {captured : Captured} {k₁ k₂ : List Op} {u : State}
    (h : Looked P s₀ k s id captured k₁ k₂ u) (hs : Step P s op t) :
    Looked P s₀ (k++[op]) t id captured k₁ (k₂++[op]) u where
  history := by rw [h.history,List.append_assoc,List.cons_append]
  before := h.before
  after := .step h.after hs
  known := h.known

theorem looked (h₀ : Initial s₀) (hr : Run (Step P) s₀ k s) :
    ∀ id c,s.calls id = some c → c.phase ≠ .importing →
      ∃ k₁ k₂ u,Looked P s₀ k s id c.captured k₁ k₂ u ∧
        ∀ records timedOut,c.phase = .answered records timedOut →
          .answer id records timedOut ∈ k₂ := by
  induction hr with
  | start =>
      intro id c hc
      rw [h₀.calls id] at hc
      cases hc
  | @step k s t op hr hs ih =>
      have hinv : Inv P s := inv_step.run h₀.inv hr
      intro id c hc hp
      rcases step_phase hs hc hp with hold | ⟨c',hc',hcap,hnew⟩
      · obtain ⟨k₁,k₂,u,hl,hans⟩ := ih id c hold hp
        refine ⟨k₁,k₂++[op],u,hl.step hs,?_⟩
        exact fun r b hrb => List.mem_append_left _ (hans r b hrb)
      rcases hnew with ⟨rfl,hlook⟩ | ⟨hlook,records,timedOut,rfl,hans⟩
      · refine ⟨k,[],s,⟨rfl,hr,.cons hs .start,hcap ▸ hinv.calls id c' hc'⟩,?_⟩
        intro r b hrb
        rw [hlook] at hrb
        cases hrb
      · obtain ⟨k₁,k₂,u,hl,-⟩ := ih id c' hc' (by rw [hlook]; exact Phase.noConfusion)
        refine ⟨k₁,k₂++[.answer id records timedOut],u,hcap ▸ hl.step hs,?_⟩
        intro r b hrb
        rw [hans] at hrb
        cases hrb
        exact List.mem_append_right _ List.mem_cons_self

theorem Issued.step {c d : Challenge} {k₁ k₂ : List Op} {u : State} {groupId targetId : JsString}
    {target : Target} (h : Issued P s₀ k c k₁ k₂ u groupId targetId target) (hk : Kept c d)
    (op : Op) : Issued P s₀ (k++[op]) d k₁ (k₂++[op]) u groupId targetId target where
  history := by rw [h.history,hk.tenantId,hk.id,List.append_assoc,List.cons_append]
  before := h.before
  issuedFor := by
    rw [hk.tenantId]
    exact h.issuedFor
  binding := hk.binding.trans h.binding

theorem issued (h₀ : Initial s₀) (hr : Run (Step P) s₀ k s) :
    ∀ c ∈ s.store.dnsChallenges,∃ k₁ k₂ u groupId targetId target,
      Issued P s₀ k c k₁ k₂ u groupId targetId target := by
  induction hr with
  | start => simp [h₀.challenges]
  | @step k s t op hr hs ih =>
      have hinv : Inv P s := inv_step.run h₀.inv hr
      intro d hd
      rcases step_store hinv.store hs with hm | ⟨_,groupId,targetId,_,_,target,_,rfl,-,htarget,-,rfl⟩
      · obtain ⟨c,hc,hk⟩ := forall₂_right hm.challenges d hd
        obtain ⟨k₁,k₂,u,groupId,targetId,target,hi⟩ := ih c hc
        exact ⟨k₁,k₂++[op],u,groupId,targetId,target,hi.step hk op⟩
      · rcases List.mem_append.mp hd with hd | hd
        · obtain ⟨k₁,k₂,u,groupId',targetId',target',hi⟩ := ih d hd
          exact ⟨k₁,k₂++[_],u,groupId',targetId',target',hi.step (Kept.refl d) _⟩
        · cases List.mem_singleton.mp hd
          exact ⟨k,[],s,groupId,targetId,target,rfl,hr,htarget,rfl⟩

end Histories

/-- What stands behind a row that a call appends. -/
structure Justified (P : Platform) (s₀ : State) (k : List Op) (s : State) (id : ℕ)
    (row : Verification) (c : Challenge) (target : Target) : Prop where
  challenge : c ∈ s.store.dnsChallenges
  named : row.sourceRef.get (js "dns_challenge_id") = .str c.id
  verified : row.state = js "dns_verified" ∧ row.tenantId = c.tenantId ∧
    row.targetId = c.targetId
  pending : c.state = .pending
  unexpired : s.store.now < c.expiresAt
  live : target ∈ s.store.targets ∧ target.id = c.targetId ∧ target.tenantId = c.tenantId ∧
    target.targetGroupId = c.targetGroupId ∧ target.deleted = false
  group : ∃ g ∈ s.store.targetGroups,g.id = c.targetGroupId ∧ g.tenantId = c.tenantId ∧
    g.archived = false
  host : ∃ domain,dnsOwnershipDomain P target = some domain ∧ c.recordName = recordNameOf domain
  definition : target.kind = .url → ∃ k₁ k₂ u groupId targetId target₀,
    Issued P s₀ k c k₁ k₂ u groupId targetId target₀ ∧ SameDefinition target target₀
  lookup : ∃ k₁ k₂ u,k = k₁++.lookup id c.recordName::k₂ ∧ Run (Step P) s₀ k₁ u ∧
    Run (Step P) u (.lookup id c.recordName::k₂) s ∧
    (∃ c₀ ∈ u.store.dnsChallenges,c₀.id = c.id ∧ c₀.state = .pending) ∧
    (∃ records timedOut,.answer id records timedOut ∈ k₂ ∧
      c.recordValue ∈ flattenTxtRecords records) ∧
    ∀ op ∈ k₂,∀ r ∈ op.appended,isOf c.tenantId c.targetId r = false

/-- The operation appends the row of a verified challenge. -/
def verifies (challengeId : JsString) : Op → Bool
  | .resume _ (some row) => match row.sourceRef.get (js "dns_challenge_id") with
    | .str id => id = challengeId
    | _ => false
  | _ => false

section Verified
variable {P : Platform} {s₀ s t : State} {op : Op} {k : List Op}

theorem resume_appends {id : ℕ} {row : Verification} (hs : Step P s (.resume id (some row)) t) :
    ∃ call records timedOut c target domain,s.calls id = some call ∧
      call.phase = .answered records timedOut ∧
      Appends P s.store t.store call.captured records row c target domain := by
  cases hs with
  | @resume _ call records timedOut _ _ _ _ _ hc hp h =>
      obtain ⟨c,target,domain,ha⟩ := finishVerify_row h
      exact ⟨call,records,timedOut,c,target,domain,hc,hp,ha⟩

theorem resumes {id : ℕ} {c : Call} {records : List (JsString ⊕ List JsString)} {timedOut : Bool}
    {rowId auditId : JsString} {row : Option Verification} (hc : s.calls id = some c)
    (hp : c.phase = .answered records timedOut)
    (h : (finishVerify P s.store c.captured records timedOut rowId auditId).2.2 = row) :
    ∃ t,Step P s (.resume id row) t :=
  ⟨_,.resume hc hp (Prod.ext rfl (Prod.ext rfl h))⟩

theorem verifiedRow_names (call : Captured) (c : Challenge) (ms : ℤ) (rowId auditId : JsString) :
    (verifiedRow P call c ms rowId auditId).sourceRef.get (js "dns_challenge_id") = .str c.id := by
  simp [verifiedRow,JsVal.get]

/-- The challenge is settled. -/
def Settled (challengeId : JsString) (s : State) : Prop :=
  ∃ c ∈ s.store.dnsChallenges,c.id = challengeId ∧ c.state ≠ .pending

theorem verifies_appends {challengeId : JsString} (hs : Step P s op t)
    (hop : verifies challengeId op = true) : ∃ call records row c target domain,
      Appends P s.store t.store call records row c target domain ∧ c.id = challengeId := by
  unfold verifies at hop
  split at hop
  · obtain ⟨call,records,timedOut,c,target,domain,-,-,ha⟩ := resume_appends hs
    refine ⟨_,_,_,c,target,domain,ha,?_⟩
    obtain ⟨ms,rowId,auditId,rfl⟩ := ha.written
    rw [verifiedRow_names] at hop
    simpa using hop
  · cases hop

theorem settled_silences (challengeId : JsString) : Silences (Step P) (Inv P)
    (fun op => verifies challengeId op = true) (Settled challengeId) where
  kept s op t h hset hs := by
    obtain ⟨c,hc,hid,hne⟩ := hset
    obtain ⟨d,hd,hk⟩ := step_later h.store hs c hc
    exact ⟨d,hd,hk.id.trans hid,hk.settled hne⟩
  quiet s op t h hset hs hop := by
    obtain ⟨c,hc,hid,hne⟩ := hset
    obtain ⟨_,_,_,d,_,_,ha,hdid⟩ := verifies_appends hs hop
    have hcd := challenge_unique h.store.challengeIds hc (challenge_of_find ha.found).1
      (hid.trans hdid.symm)
    exact hne (hcd ▸ ha.pending)

theorem settled_after {challengeId : JsString} (hs : Step P s op t)
    (hop : verifies challengeId op = true) : Settled challengeId t := by
  obtain ⟨call,_,_,c,_,_,ha,hid⟩ := verifies_appends hs hop
  obtain ⟨values,timedOut,hupd⟩ := ha.resolved
  obtain ⟨-,hcid,hcten⟩ := challenge_of_find ha.found
  have hfind : t.store.dnsChallenges.find? (isChallenge c.tenantId c.id) =
      some (checkedChallenge s.store.now values true timedOut c) := by
    rw [hupd,Tables.find?_update (fun x hx => by simpa [isChallenge,checkedChallenge] using hx)]
    have hf := ha.found
    rw [findChallenge,← hcid,← hcten] at hf
    rw [hf]
    rfl
  exact ⟨_,List.mem_of_find?_eq_some hfind,hid,by simp [checkedChallenge]⟩

theorem definition_of_binding (hsha : Function.Injective P.sha256) {c : Challenge}
    {target target₀ : Target} (hm : bindingMatches P c.binding target = true)
    (hb : c.binding =
      if target₀.kind = .url then some (dnsOwnershipTargetBinding P target₀) else none) :
    SameDefinition target target₀ := by
  rw [hb] at hm
  split at hm
  · simp only [bindingMatches,Bool.and_eq_true,decide_eq_true_eq] at hm
    exact sameDefinition_of_digest hsha (congrArg Binding.definitionDigest hm.1.1.1.1.1).symm
  · cases hm

/-- Rows of the target that came after the generation was taken. -/
theorem no_row_since (hsha : Function.Injective P.sha256) (old : List Verification)
    {new : List Verification}
    {tenantId targetId : JsString}
    (h : ownershipGeneration P (old++new) tenantId targetId =
      ownershipGeneration P old tenantId targetId) :
    ∀ r ∈ new,isOf tenantId targetId r = false := by
  have hlen := length_of_generation hsha h
  rw [List.filter_append,List.length_append] at hlen
  have hnil : new.filter (isOf tenantId targetId) = [] :=
    List.length_eq_zero_iff.mp (by omega)
  intro r hr
  by_contra hc
  have hmem : r ∈ new.filter (isOf tenantId targetId) :=
    List.mem_filter.mpr ⟨hr,by simpa using hc⟩
  rw [hnil] at hmem
  cases hmem

theorem justified (hsha : Function.Injective P.sha256) (h₀ : Initial s₀)
    (hr : Run (Step P) s₀ k s) {id : ℕ} {row : Verification}
    (hs : Step P s (.resume id (some row)) t) :
    ∃ c target,Justified P s₀ k s id row c target := by
  have hinv : Inv P s := inv_step.run h₀.inv hr
  obtain ⟨call,records,timedOut,c,target,domain,hcall,hphase,ha⟩ := resume_appends hs
  obtain ⟨hmem,hid,hten⟩ := challenge_of_find ha.found
  obtain ⟨htmem,htid,htten,htgrp,hlive⟩ := target_of_find ha.live
  obtain ⟨k₁,k₂,u,hl,hans⟩ := looked h₀ hr id call hcall (by rw [hphase]; exact Phase.noConfusion)
  obtain ⟨c₀,hc₀,hid₀,hten₀,hname₀,old,new,hrows,hgen⟩ := hl.known
  -- The challenge the lookup was sent for is the one found again.
  have hkept : Kept c₀ c := by
    obtain ⟨d,hd,hk⟩ := run_later (inv_step.run h₀.inv hl.before) hl.after c₀ hc₀
    have hdc := challenge_unique hinv.store.challengeIds hd hmem
      ((hk.id.trans hid₀).trans hid.symm)
    exact hdc ▸ hk
  have hname : call.captured.recordName = c.recordName := by
    rw [hkept.recordName,hname₀]
  have hquiet : ∀ r ∈ new++(Op.lookup id call.captured.recordName::k₂).flatMap Op.appended,
      isOf c.tenantId c.targetId r = false := by
    refine no_row_since hsha old ?_
    rw [← List.append_assoc,← hrows,← run_rows hl.after,hten,ha.generation,hgen,hkept.targetId]
  refine ⟨c,target,?_⟩
  constructor
  · exact hmem
  · obtain ⟨ms,rowId,auditId,rfl⟩ := ha.written
    exact verifiedRow_names _ _ _ _ _
  · obtain ⟨ms,rowId,auditId,rfl⟩ := ha.written
    exact ⟨rfl,hten.symm,rfl⟩
  · exact ha.pending
  · exact ha.unexpired
  · exact ⟨htmem,htid,htten.trans hten.symm,htgrp,hlive⟩
  · exact ha.group
  · exact ⟨domain,ha.host,ha.recordName⟩
  · intro hk
    obtain ⟨j₁,j₂,v,groupId,targetId,target₀,hi⟩ := issued h₀ hr c hmem
    exact ⟨j₁,j₂,v,groupId,targetId,target₀,hi,
      definition_of_binding hsha (ha.definition hk) hi.binding⟩
  · refine ⟨k₁,k₂,u,hname ▸ hl.history,hl.before,hname ▸ hl.after,⟨c₀,hc₀,hkept.id.symm,?_⟩,
      ⟨records,timedOut,hans records timedOut hphase,ha.value⟩,?_⟩
    · by_contra hne
      exact hkept.settled hne ha.pending
    · intro op hop r hrow
      refine hquiet r (List.mem_append_right _ (List.mem_flatMap.mpr ⟨op,?_,hrow⟩))
      exact List.mem_cons_of_mem _ hop

end Verified

/-- In every interleaving at most one challenge of a target can still be verified, each
challenge yields at most one row, and a row is appended only with its challenge pending and
unexpired, its target and group in place and unchanged, and its value found by a lookup of the
same call since which no other row of the target was written. -/
theorem dns_verified_rows_justified (P : Platform) (hsha : Function.Injective P.sha256)
    {s₀ : State} (h₀ : Initial s₀) {k : List Op} {s : State} (hr : Run (Step P) s₀ k s) :
    OnePending s.store ∧
    (∀ challengeId,(k.filter fun op => verifies challengeId op).length ≤ 1) ∧
    ∀ id row t,Step P s (.resume id (some row)) t →
      ∃ c target,Justified P s₀ k s id row c target := by
  refine ⟨(inv_step.run h₀.inv hr).store.onePending,?_,?_⟩
  · intro challengeId
    have hone := (settled_silences (P := P) challengeId).at_most_once inv_step
      (fun _ _ _ _ => settled_after) h₀.inv hr
    simpa using hone
  · intro id row t hs
    exact justified hsha h₀ hr hs

/-- A platform whose digest is the text itself. -/
def plainPlatform : Platform where
  isIP _ := false
  toLowerCase := id
  parseUrl _ := none
  sha256 bytes := bytes.data.toList.map UInt8.toUInt16
  toISOString _ := js "2026-01-01T00:00:00.000Z"

theorem plainPlatform_injective : Function.Injective plainPlatform.sha256 := by
  intro a b h
  have hbyte : Function.Injective UInt8.toUInt16 := by
    intro x y hxy
    have hnat := congrArg UInt16.toNat hxy
    rw [UInt8.toNat_toUInt16,UInt8.toNat_toUInt16] at hnat
    exact UInt8.toNat_inj.mp hnat
  have hl : a.data.toList = b.data.toList := List.map_injective_iff.mpr hbyte h
  exact ByteArray.ext (Array.toList_inj.mp hl)

def hostTarget : Target :=
  ⟨js "tgt_1",js "ten_a",js "tg_1",.fqdn,js "app.example.com",⟨.null,.null⟩,⟨.null,.null⟩,
    ⟨.null,.null⟩,⟨.null,.null⟩,false⟩

def hostState : State where
  store := ⟨1767225600000,[⟨js "tg_1",js "ten_a",false⟩],[hostTarget],[],[],fun _ => none⟩
  calls _ := none
  nextCall := 0

def hostChallenge : Challenge :=
  newChallenge plainPlatform hostState.store (js "ten_a") (js "tg_1") hostTarget
    (js "app.example.com") (js "dns_1") (js "TOKEN")

def issuedStore : Store := { hostState.store with dnsChallenges := [hostChallenge] }

def hostCall : Captured :=
  ⟨js "ten_a",js "usr_1",js "dns_1",hostChallenge.recordName,
    challengeBinding plainPlatform hostChallenge,
    canonicalText (dnsOwnershipLookupTarget plainPlatform hostTarget),
    ownershipGeneration plainPlatform [] (js "ten_a") hostTarget.id⟩

def hostRow : Verification :=
  verifiedRow plainPlatform hostCall hostChallenge 1767225600000 (js "tv_1") (js "aud_1")

def hostOps : List Op :=
  [.issue (js "ten_a") (js "tg_1") (js "tgt_1") (js "dns_1"),
    .verify 0 (js "ten_a") (js "dns_1"),
    .lookup 0 (js "_astranull-challenge.app.example.com"),
    .answer 0 [.inr [js "TOKEN"]] false]

/-- The owner of a host publishes the record and is verified. -/
theorem published_record_verifies : Function.Injective plainPlatform.sha256 ∧
    Initial hostState ∧ ∃ s t row,Run (Step plainPlatform) hostState hostOps s ∧
      Step plainPlatform s (.resume 0 (some row)) t ∧
      ∃ c target,Justified plainPlatform hostState hostOps s 0 row c target := by
  have h₀ : Initial hostState := ⟨rfl,fun _ => rfl,by decide,by decide⟩
  have hdomain : dnsOwnershipDomain plainPlatform hostTarget = some (js "app.example.com") := by
    decide
  have hmatch : dnsOwnershipChallengeMatchesTarget plainPlatform hostChallenge hostTarget =
      true := by
    decide
  have hissue : (issueChallenge plainPlatform hostState.store (js "ten_a") (js "tg_1")
      (js "tgt_1") (js "dns_1") (js "TOKEN")).1 =
        issuedStore := by
    have hg : findActiveTargetGroup hostState.store (js "ten_a") (js "tg_1") =
        some ⟨js "tg_1",js "ten_a",false⟩ := rfl
    have ht : issueTarget hostState.store (js "ten_a") (js "tg_1") (js "tgt_1") =
        some hostTarget := rfl
    unfold issueChallenge
    rw [hg]
    dsimp only
    rw [ht]
    dsimp only
    rw [hdomain]
    rfl
  have hbegin : beginVerify plainPlatform issuedStore (js "ten_a") (js "usr_1") (js "dns_1") [] =
      ((checkVerifyRateLimit issuedStore (js "tgt_1")).1,.lookup hostCall) :=
    beginVerify_eq _ (c := hostChallenge) rfl rfl rfl hmatch rfl (by decide) rfl
  have hrun : ∃ s,Run (Step plainPlatform) hostState hostOps s ∧
      ∃ t,Step plainPlatform s (.resume 0 (some hostRow)) t := by
    apply Exists.intro
    constructor
    · apply Run.cons
      · exact @Step.issue _ _ _ _ _ _ (js "TOKEN") (by simp [hostState])
      rw [hissue]
      apply Run.cons
      · exact Step.verify hbegin
      apply Run.cons
      · exact @Step.lookup _ _ 0 ⟨hostCall,.importing⟩ rfl rfl
      apply Run.cons
      · exact @Step.answer _ _ 0 ⟨hostCall,.looking⟩ _ _ rfl rfl
      exact .start
    · exact resumes (c := ⟨hostCall,.answered [.inr [js "TOKEN"]] false⟩) rfl rfl
        (finishVerify_eq false (js "tv_1") (js "aud_1") (c := hostChallenge) rfl rfl rfl rfl rfl
          hmatch rfl (by decide) rfl (by decide) rfl)
  obtain ⟨s,hr,t,hs⟩ := hrun
  exact ⟨plainPlatform_injective,h₀,s,t,hostRow,hr,hs,
    (dns_verified_rows_justified plainPlatform plainPlatform_injective h₀ hr).2.2 0 hostRow t hs⟩

end AstraNull.DnsOwnershipHistory
