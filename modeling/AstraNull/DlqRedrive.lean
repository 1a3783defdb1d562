import Mathlib
import AstraNull.Tables
import AstraNull.NotificationDelivery

/-!
# Redrive of dead letters over the claimed ledger

The rows of the attempt ledger with their claim columns, the statements that claim, renew,
release and complete a row, and the worker that pages through the dead letters. A statement
is one step of a run; between two statements of a worker anything else may happen.
-/
namespace AstraNull.DlqRedrive
open NotificationDelivery Tables

structure Row where
  id : ℕ
  tenantId : String
  eventId : ℕ
  trigger : String
  attempt : Attempt
  claimedBy : Option ℕ
  leaseExpiresAt : Option Time
  supersededAt : Option Time

def Row.live (r : Row) : Bool := r.supersededAt.isNone

def Row.leaseActive (now : Time) (r : Row) : Bool := r.leaseExpiresAt.any fun due => now < due

abbrev Key := ℤ × ℕ

def Key.before (a b : Key) : Bool := a.1 < b.1 || (a.1 == b.1 && a.2 < b.2)

/-- (created_at, id), the order of the pages. -/
def Row.key (r : Row) : Key := (r.attempt.createdAt,r.id)

/-- (created_at, COALESCE(attempt_number, 0), id) is larger. -/
def Row.newer (s a : Row) : Bool :=
  a.attempt.createdAt < s.attempt.createdAt || (a.attempt.createdAt == s.attempt.createdAt &&
    Key.before ((a.attempt.attemptNumber.getD 0 : ℕ),a.id)
      ((s.attempt.attemptNumber.getD 0 : ℕ),s.id))

/-- A dead letter that is the latest attempt of its event and rule. -/
def Row.isDlq (rows : List Row) (a : Row) : Bool :=
  a.attempt.status == .providerFailedDlq && a.live &&
    !rows.any fun s => s.tenantId == a.tenantId && s.eventId == a.eventId &&
      s.attempt.ruleId == a.attempt.ruleId && s.live && s.newer a

def Row.claimable (rows : List Row) (now : Time) (tenantId : String) (attemptId : ℕ)
    (a : Row) : Bool :=
  a.tenantId == tenantId && a.id == attemptId && a.isDlq rows && !a.leaseActive now

def Row.claim (token : ℕ) (expires : Time) (a : Row) : Row :=
  { a with
    claimedBy := some token
    leaseExpiresAt := some expires }

def claimDlqDeliveryAttempt (rows : List Row) (now : Time) (tenantId : String)
    (attemptId token leaseMs : ℕ) : Option Row × List Row :=
  let claim := Row.claim token (now+leaseMs)
  ((rows.find? (Row.claimable rows now tenantId attemptId)).map claim,
    updateAll (Row.claimable rows now tenantId attemptId) claim rows)

def Row.owned (tenantId : String) (attemptId token : ℕ) (a : Row) : Bool :=
  a.tenantId == tenantId && a.id == attemptId && a.claimedBy == some token && a.live

def Row.renewable (now : Time) (tenantId : String) (attemptId token : ℕ) (a : Row) : Bool :=
  a.owned tenantId attemptId token && a.leaseActive now

def renewDeliveryAttemptClaim (rows : List Row) (now : Time) (tenantId : String)
    (attemptId token leaseMs : ℕ) : Bool × List Row :=
  (rows.any (Row.renewable now tenantId attemptId token),
    updateAll (Row.renewable now tenantId attemptId token)
      (fun a => { a with leaseExpiresAt := some (now+leaseMs) }) rows)

def releaseDeliveryAttemptClaim (rows : List Row) (tenantId : String) (attemptId token : ℕ) :
    Bool × List Row :=
  (rows.any (Row.owned tenantId attemptId token),
    updateAll (Row.owned tenantId attemptId token)
      (fun a => { a with
        claimedBy := none
        leaseExpiresAt := none }) rows)

def Row.completable (tenantId : String) (attemptId token eventId : ℕ) (a : Row) : Bool :=
  a.owned tenantId attemptId token && a.eventId == eventId

def Row.supersede (now : Time) (a : Row) : Row :=
  { a with
    supersededAt := some now
    leaseExpiresAt := none }

/-- The row of an outcome; its time is clamped to the clock of the ledger. -/
def insertDeliveryAttempt (now : Time) (tenantId : String) (id eventId : ℕ) (trigger : String)
    (record : Attempt) : Row :=
  ⟨id,tenantId,eventId,trigger,{ record with createdAt := min record.createdAt now },none,none,
    none⟩

def completeDeliveryAttemptClaim (rows : List Row) (now : Time) (tenantId : String)
    (attemptId token eventId outcomeId : ℕ) (trigger : String) (record : Attempt) :
    Bool × List Row :=
  if rows.any (Row.completable tenantId attemptId token eventId) then
    (true,updateAll (Row.completable tenantId attemptId token eventId) (Row.supersede now) rows++
      [insertDeliveryAttempt now tenantId outcomeId eventId trigger record])
  else (false,rows)

/-- The order of a page. -/
def Row.upTo (a b : Row) : Prop := b.key.before a.key = false

instance : DecidableRel Row.upTo := fun _ _ => inferInstanceAs (Decidable (_ = _))

structure Listed where
  row : Row
  leaseActive : Bool

/-- A page of dead letters after the cursor. Rows of rules that are turned off are left out. -/
def listDlqDeliveryAttempts (rows : List Row) (now : Time) (tenantId : String)
    (held : ℕ → Bool) (limit : ℕ) (after : Option Key) (ruleId : Option ℕ)
    (attemptIds : Option (List ℕ)) : List Listed :=
  let limit := min (if limit = 0 then 100 else limit) 500
  let candidates := rows.filter fun a => a.tenantId == tenantId && a.isDlq rows &&
    !held a.attempt.ruleId && ruleId.all (fun r => a.attempt.ruleId == r) &&
    attemptIds.all (fun ids => ids.contains a.id) && after.all fun k => k.before a.key
  ((candidates.insertionSort Row.upTo).take limit).map fun a => ⟨a,a.leaseActive now⟩

def boundedInt (value : Option ℤ) (lo hi fallback : ℕ) : ℕ :=
  match value with
  | none => fallback
  | some n => if n < lo then fallback else min n.toNat hi

def dlqRedrivePageSize : ℕ := 100

def dlqRedriveMaxItems : ℕ := 1000

/-- The options of a call. -/
structure Input where
  tenantId : String
  now : Time
  dryRun : Bool
  modes : List Channel
  pageSize : Option ℤ
  maxItems : Option ℤ
  leaseMs : ℕ
  ruleId : Option ℕ
  attemptIds : Option (List ℕ)

def Input.page (i : Input) : ℕ := boundedInt i.pageSize 1 500 dlqRedrivePageSize

def Input.budget (i : Input) : ℕ := boundedInt i.maxItems 1 100000 dlqRedriveMaxItems

/-- The lease of a statement: at least a millisecond. -/
def Input.lease (i : Input) : ℕ := max 1 i.leaseMs

inductive AfterRelease where
  | skip
  | hold
  | throw

/-- What a call waits for. The row, the token of its claim and the rule travel along. -/
inductive Phase where
  | summarizing
  | paging
  | rows
  | planning (row : Row)
  | claiming (row : Row) (token : ℕ)
  | gating (row : Row) (token : ℕ)
  | releasing (row : Row) (token : ℕ) (next : AfterRelease)
  | renewing (row : Row) (token : ℕ) (rule : Rule)
  | cleared (row : Row) (token : ℕ) (rule : Rule)
  | sending (row : Row) (token : ℕ) (rule : Rule)
  | completing (row : Row) (token outcomeId : ℕ) (record : Attempt) (cancelled : Bool)
  | ended
  | finished

/-- A row is counted as examined and not yet as anything else. -/
def Phase.busy : Phase → Bool
  | .planning _ => true
  | .claiming _ _ => true
  | .gating _ _ => true
  | .releasing _ _ _ => true
  | .renewing _ _ _ => true
  | .cleared _ _ _ => true
  | .sending _ _ _ => true
  | .completing _ _ _ _ _ => true
  | _ => false

structure Processed where
  priorAttemptId : ℕ
  status : Option Status
  record : Option Attempt

/-- A call in flight. `examined` has the keys of the rows; the source keeps their number. -/
structure Call where
  input : Input
  phase : Phase
  page : List Listed
  pageLength : ℕ
  limit : ℕ
  last : Option Key
  cursor : Option Key
  examined : List Key
  seenAttemptIds : List ℕ
  createdAttemptIds : List ℕ
  skippedCount : ℕ
  heldCount : ℕ
  cancelledCount : ℕ
  inFlightCount : ℕ
  claimLostCount : ℕ
  leaseLostCount : ℕ
  pages : ℕ
  budgetExhausted : Bool
  processed : List Processed

def Input.call (i : Input) : Call :=
  ⟨i,.summarizing,[],0,0,none,none,[],[],[],0,0,0,0,0,0,0,false,[]⟩

def Call.summarized (c : Call) (heldCount : ℕ) (heldIds : List ℕ) : Call :=
  { c with
    phase := .paging
    heldCount := c.heldCount+heldCount
    seenAttemptIds := c.seenAttemptIds++heldIds }

def Call.nextLimit (c : Call) : ℕ := min c.input.page (c.input.budget-c.examined.length)

/-- The answer to listPage. -/
def Call.listed (c : Call) (page : List Listed) : Call :=
  { c with
    phase := if page = [] then .ended else .rows
    page := page
    pageLength := page.length
    limit := c.nextLimit
    last := page.getLast?.map fun x => x.row.key
    pages := c.pages+1 }

/-- The next row of the page, up to the first await. -/
def Call.examine (c : Call) (x : Listed) (rest : List Listed) (token : ℕ) : Call :=
  if c.createdAttemptIds.contains x.row.id then { c with page := rest }
  else
    let c := { c with
      page := rest
      examined := c.examined++[x.row.key]
      seenAttemptIds := c.seenAttemptIds++[x.row.id] }
    if x.row.attempt.channel = .inApp then { c with skippedCount := c.skippedCount+1 }
    else if x.leaseActive then { c with inFlightCount := c.inFlightCount+1 }
    else if c.input.dryRun then { c with phase := .planning x.row }
    else { c with phase := .claiming x.row token }

/-- The end of a page. -/
def Call.turned (c : Call) : Call :=
  { c with
    cursor := c.last
    phase := if c.pageLength < c.limit then .ended else .paging }

def Call.skip (c : Call) : Call :=
  { c with
    phase := .rows
    skippedCount := c.skippedCount+1 }

def Call.process (c : Call) (row : Row) (status : Option Status) (record : Option Attempt) :
    Call :=
  { c with
    phase := .rows
    processed := c.processed++[⟨row.id,status,record⟩] }

def Call.hold (c : Call) (row : Row) : Call :=
  { c.process row none none with heldCount := c.heldCount+1 }

/-- The rule of a dry run. -/
def Call.planned (c : Call) (row : Row) (rule : Option Rule) : Call :=
  match evaluateNotificationRuleDeliveryGate rule row.trigger with
  | .unknown => c.skip
  | .hold => c.hold row
  | .cancel status _ =>
      { c.process row (some status) none with cancelledCount := c.cancelledCount+1 }
  | .deliver => c.process row none none

def Call.claimLost (c : Call) : Call :=
  { c with
    phase := .rows
    claimLostCount := c.claimLostCount+1 }

def Call.leaseLost (c : Call) : Call :=
  { c with
    phase := .rows
    leaseLostCount := c.leaseLostCount+1 }

/-- The answer to the claim. -/
def Call.claimed (c : Call) (token : ℕ) : Option Row → Call
  | none => c.claimLost
  | some row => { c with phase := .gating row token }

/-- The rule after the claim. -/
def Call.gated (c : Call) (row : Row) (token outcomeId : ℕ) (rule : Option Rule) : Call :=
  match rule,evaluateNotificationRuleDeliveryGate rule row.trigger with
  | none,_ => { c with phase := .releasing row token .skip }
  | _,.unknown => { c with phase := .releasing row token .skip }
  | _,.hold => { c with phase := .releasing row token .hold }
  | _,.cancel status reason =>
      let record := buildRuleRemovedCancellationAttempt row.attempt status reason c.input.now
        (.next outcomeId)
      { c with phase := .completing row token outcomeId record true }
  | some rule,.deliver => { c with phase := .renewing row token rule }

def Call.released (c : Call) (row : Row) : AfterRelease → Option Call
  | .skip => some c.skip
  | .hold => some (c.hold row)
  | .throw => none

def Call.renewed (c : Call) (row : Row) (token : ℕ) (rule : Rule) (renewed : Bool) : Call :=
  if renewed then { c with phase := .cleared row token rule } else c.leaseLost

def Call.outbound (c : Call) (row : Row) (rule : Rule) : Bool :=
  NotificationDelivery.outbound c.input.modes row.attempt.channel rule.destination

/-- The outcome of the delivery. -/
def Call.answered (c : Call) (row : Row) (token outcomeId : ℕ) (rule : Rule) (reply : Reply) :
    Call :=
  let record := buildDlqRedriveDeliveryAttempt c.input.modes row.attempt rule.destination reply
    c.input.now (.next outcomeId)
  { c with phase := .completing row token outcomeId record false }

/-- The answer to the completion. -/
def Call.completed (c : Call) (row : Row) (outcomeId : ℕ) (record : Attempt)
    (cancelled completed : Bool) : Call :=
  if completed then
    { c.process row (some record.status) (some record) with
      createdAttemptIds := c.createdAttemptIds++[outcomeId]
      cancelledCount := if cancelled then c.cancelledCount+1 else c.cancelledCount }
  else c.leaseLost

/-- The requested attempts that no page and no summary showed. -/
def Call.missing (c : Call) : ℕ :=
  match c.input.attemptIds with
  | none => 0
  | some ids => (ids.dedup.filter fun id => !c.seenAttemptIds.contains id).length

def Call.finish (c : Call) : Call :=
  { c with
    phase := .finished
    skippedCount := c.skippedCount+c.missing }

end AstraNull.DlqRedrive
