import Mathlib
import AstraNull.JsonText
import AstraNull.FindingRecords
import AstraNull.FindingLifecycle
import AstraNull.ProtectionFindings
import AstraNull.Findings
import AstraNull.FindingInvariants

/-!
# Evidence that closes a protection finding

A complete passing item closes every open finding of its dedupe key. The signal looks at no times,
so a finding is closed on newer evidence exactly as far as evaluations arrive in order.
-/
namespace AstraNull.FindingClosure
open JsonText FindingRecords FindingLifecycle ProtectionFindings Findings FindingInvariants

section
variable (P : Platform) (parse : JsString → Option ℤ)

/-- The failing observations an operation records. -/
def failures : Op → List Candidate
  | .evaluation tenantId evaluation d _ => match deriveProtectionFindingCandidates P evaluation d with
      | .error _ => []
      | .ok derived => derived.candidates.filter fun c => c.tenantId == tenantId
  | _ => []

def completePasses : Op → List Passing
  | .evaluation _ evaluation d _ => match deriveProtectionFindingCandidates P evaluation d with
      | .error _ => []
      | .ok derived => derived.passing.filter Passing.closesFindings
  | _ => []

/-- The evaluation of `op` is later than what failed for the key so far, and fails nothing of the
key itself. -/
def Newer (before : List Op) (op : Op) (tenantId : String) (o : Passing) : Prop :=
  (∀ earlier ∈ before,∀ c ∈ failures P earlier,c.tenantId = tenantId → c.dedupeKey = o.dedupeKey →
    c.evaluatedAt < o.evaluatedAt) ∧
  ∀ c ∈ failures P op,c.dedupeKey ≠ o.dedupeKey

/-- Complete passing items come in after everything that failed for their key. -/
def InOrder (before : List Op) : Op → Prop
  | .evaluation tenantId evaluation d now =>
      ∀ o ∈ completePasses P (.evaluation tenantId evaluation d now),
        Newer P before (.evaluation tenantId evaluation d now) tenantId o
  | _ => True

def InOrderRun (before : List Op) : List Op → Prop
  | [] => True
  | op::ops => InOrder P before op ∧ InOrderRun (before++[op]) ops

/-- Whatever the evaluation moves to `fix_verified` is closed by a complete passing observation
that is newer than every failing one of the key. -/
def ClosesOnNewerEvidence (before : List Op) (tenantId : String) (evaluation : Evaluation)
    (d : Declarations) (now : ℤ) : Prop :=
  let s := exec P parse Store.empty before
  ∀ g ∈ (apply P parse s (.evaluation tenantId evaluation d now)).1.findings,
    g.status = .fixVerified → (∀ f ∈ s.findings,f.id = g.id → f.status ≠ .fixVerified) →
    ∃ o ∈ completePasses P (.evaluation tenantId evaluation d now),
      findingDedupeKey g = some o.dedupeKey ∧
      Newer P before (.evaluation tenantId evaluation d now) g.tenantId o

end

section
variable {P : Platform} {parse : JsString → Option ℤ} {s t : Store}

/-- A verified row was verified before, or some passing observation closes it. -/
theorem verified_of_writes {closes : Finding → Prop}
    (hcloses : ∀ f g,Same f g → closes f → closes g) (hw : Writes closes s t) :
    ∀ g ∈ t.findings,g.status = .fixVerified →
      (∃ f ∈ s.findings,f.id = g.id ∧ f.status = .fixVerified) ∨ closes g := by
  induction hw with
  | refl => exact fun g hg hv => Or.inl ⟨g,hg,rfl,hv⟩
  | tail _ hw ih =>
      cases hw with
      | store f hid hopen =>
          intro g hg hv
          rcases List.mem_append.mp hg with hg | hg
          · exact ih g hg hv
          · cases List.mem_singleton.mp hg
            rw [hopen] at hv
            cases hv
      | rows l hl =>
          intro g hg hv
          obtain ⟨f,hf,hfg⟩ := row_before hl hg
          cases hfg with
          | note same status =>
              rcases ih f hf (status ▸ hv) with ⟨e,he,hid,hev⟩ | hc
              · exact Or.inl ⟨e,he,hid.trans same.id.symm,hev⟩
              · exact Or.inr (hcloses f g same hc)
          | verify same isOpen by_ => exact Or.inr (hcloses f g same by_)

theorem closedBy_same {tenantId : String} {passing : List Passing} {f g : Finding} (h : Same f g)
    (hc : ClosedBy tenantId passing f) : ClosedBy tenantId passing g := by
  obtain ⟨ht,o,ho,hcloses,hkey⟩ := hc
  exact ⟨h.tenantId.trans ht,o,ho,hcloses,h.dedupeKey.trans hkey⟩

theorem closes_of_inOrder {before : List Op} {tenantId : String} {evaluation : Evaluation}
    {d : Declarations} {now : ℤ} (h : InOrder P before (.evaluation tenantId evaluation d now)) :
    ClosesOnNewerEvidence P parse before tenantId evaluation d now := by
  intro g hg hv hnew
  have hs : Fresh (exec P parse Store.empty before) :=
    (exec_invariant (I := fun _ => True) trivial (fun _ _ _ _ _ _ => trivial) before).1
  cases hd : deriveProtectionFindingCandidates P evaluation d with
  | error reason =>
      simp only [apply,upsertProtectionFindingsFromEvaluation,hd] at hg
      exact absurd hv (hnew g hg rfl)
  | ok derived =>
      have hw : Writes (ClosedBy tenantId derived.passing) (exec P parse Store.empty before)
          (apply P parse (exec P parse Store.empty before)
            (.evaluation tenantId evaluation d now)).1 := writes_evaluation hs hd
      rcases verified_of_writes (fun f g => closedBy_same) hw g hg hv with ⟨f,hf,hid,hfv⟩ | hc
      · exact absurd hfv (hnew f hf hid)
      · obtain ⟨ht,o,ho,hcloses,hkey⟩ := hc
        have hpass : o ∈ completePasses P (.evaluation tenantId evaluation d now) := by
          simp only [completePasses,hd]
          exact List.mem_filter.mpr ⟨ho,hcloses⟩
        exact ⟨o,hpass,hkey,ht ▸ h o hpass⟩

theorem inOrder_of_run {op : Op} {after : List Op} (before past : List Op)
    (h : InOrderRun P past (before++op::after)) : InOrder P (past++before) op := by
  induction before generalizing past with
  | nil =>
      rw [List.append_nil]
      exact h.1
  | cons b before ih =>
      have hrest := ih (past++[b]) h.2
      rwa [List.append_assoc] at hrest

end

/-- In a run whose evaluations come in order, every evaluation closes findings on newer evidence
only. -/
theorem closed_on_newer_evidence (P : Platform) (parse : JsString → Option ℤ)
    (before after : List Op) (tenantId : String) (evaluation : Evaluation) (d : Declarations) (now : ℤ)
    (h : InOrderRun P [] (before++.evaluation tenantId evaluation d now::after)) :
    ClosesOnNewerEvidence P parse before tenantId evaluation d now :=
  closes_of_inOrder (inOrder_of_run before [] h)

def reference : EvidenceRef :=
  ⟨"run",some "check",none,none,none,some "x",some ["evidence"],"2026-01-01T00:00:00.000Z",true⟩

def firewallItem (status : FirewallStatus) (gapKind : Option GapKind) (met : Bool) : Item :=
  ⟨none,none,.other,[],some "e",status,gapKind,some met,none,none,none,some [reference]⟩

def regression : Item := firewallItem .regression (some .forbiddenServiceNewlyReachable) false

def met : Item := firewallItem .matched none true

def evaluated (id : String) (evaluatedAt : ℤ) (item : Item) : Evaluation :=
  ⟨some id,some .firewallChange,"t",some [item],some "digest",evaluatedAt,none⟩

def evaluate (id : String) (evaluatedAt : ℤ) (item : Item) : Op :=
  .evaluation "t" (evaluated id evaluatedAt item) ⟨[],[]⟩ 100

/-- The regression is evaluated at 10 and the expectation is met again at 20. -/
theorem later_pass_closes :
    ((apply plainPlatform (fun _ => none) (exec plainPlatform (fun _ => none) Store.empty
      [evaluate "a" 10 regression]) (evaluate "b" 20 met)).1.findings.map Finding.status =
        [.fixVerified]) ∧
    ClosesOnNewerEvidence plainPlatform (fun _ => none) [evaluate "a" 10 regression] "t"
      (evaluated "b" 20 met) ⟨[],[]⟩ 100 := by
  refine ⟨by decide,closed_on_newer_evidence _ _ _ [] _ _ _ _ ⟨?_,?_,trivial⟩⟩
  · intro o ho
    cases ho
  · intro o ho
    rw [show completePasses plainPlatform (.evaluation "t" (evaluated "b" 20 met) ⟨[],[]⟩ 100) =
      [⟨"pvf_0","b",0,20,true,some "run",none,none⟩] from rfl,List.mem_singleton] at ho
    subst ho
    refine ⟨fun earlier he c hc _ _ => ?_,fun c hc => by cases hc⟩
    rw [List.nil_append,List.mem_singleton] at he
    subst he
    have hall : ∀ c ∈ failures plainPlatform (evaluate "a" 10 regression),c.evaluatedAt < 20 := by
      decide
    exact hall c hc

/-- The evaluation at 20 fails, and an evaluation of 10 that comes in afterwards closes its
finding. -/
theorem older_pass_closes :
    ¬ ClosesOnNewerEvidence plainPlatform (fun _ => none) [evaluate "a" 20 regression] "t"
      (evaluated "b" 10 met) ⟨[],[]⟩ 100 := by
  intro h
  have hstate : (apply plainPlatform (fun _ => none) (exec plainPlatform (fun _ => none) Store.empty
      [evaluate "a" 20 regression]) (evaluate "b" 10 met)).1.findings.map
        (fun g => (g.id,g.status,g.tenantId,findingDedupeKey g)) =
      [(0,.fixVerified,"t",some "pvf_0")] := by decide
  have hopen : (exec plainPlatform (fun _ => none) Store.empty
      [evaluate "a" 20 regression]).findings.map Finding.status = [.opened] := by decide
  obtain ⟨g,hg,heq⟩ := List.mem_map.mp (hstate ▸ List.mem_singleton_self _)
  simp only [Prod.mk.injEq] at heq
  obtain ⟨o,ho,-,hnewer,-⟩ := h g hg heq.2.1 fun f hf _ hv => by
    have hm : f.status ∈ [Status.opened] := hopen ▸ List.mem_map_of_mem hf
    rw [hv] at hm
    exact absurd hm (by decide)
  rw [show completePasses plainPlatform (.evaluation "t" (evaluated "b" 10 met) ⟨[],[]⟩ 100) =
    [⟨"pvf_0","b",0,10,true,some "run",none,none⟩] from rfl,List.mem_singleton] at ho
  subst ho
  have hfail : (failures plainPlatform (evaluate "a" 20 regression)).map
      (fun c => (c.tenantId,c.dedupeKey,c.evaluatedAt)) = [("t","pvf_0",20)] := by decide
  obtain ⟨c,hc,hceq⟩ := List.mem_map.mp (hfail ▸ List.mem_singleton_self _)
  simp only [Prod.mk.injEq] at hceq
  have hlt := hnewer (evaluate "a" 20 regression) (List.mem_singleton_self _) c hc
    (hceq.1.trans heq.2.2.1.symm) hceq.2.1
  rw [hceq.2.2] at hlt
  exact absurd hlt (by decide)

end AstraNull.FindingClosure
