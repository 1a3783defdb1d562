import Mathlib
import AstraNull.Tables

/-!
# Delivery of notifications

Rules, events and their delivery attempts; what a provider's answer makes of an attempt at
the first delivery, at a retry and at a redrive from the dead letters; the lifecycle gate of
a rule; and the collection of due and dead-lettered work. Providers answer through `Reply`.
A delivery mode is the list of channels it activates; the empty list is metadata_only.
-/
namespace AstraNull.NotificationDelivery
open Tables

abbrev Time := ℤ

inductive Channel where
  | inApp
  | webhook
  | email
  | slack
  | teams
deriving DecidableEq

inductive Status where
  | deliveredInApp
  | queuedProviderNotConfigured
  | providerRetryScheduled
  | deliveredProvider
  | providerFailedDlq
  | cancelledRuleRemoved
  | cancelledRuleUnsubscribed
deriving DecidableEq

def webhookMaxAttempts : ℕ := 3

def notificationRetryBackoffMs : ℤ := 60000

def allowedTriggers : List String :=
  ["finding.high_severity","safe_test.completed","high_scale.state_change","report.ready"]

/-- A rule as the create and update paths store it: only known triggers. -/
structure Rule where
  id : ℕ
  tenantId : String
  channel : Channel
  destination : String
  triggers : List String
  enabled : Bool
  deletedAt : Option Time
  known : ∀ trigger ∈ triggers,trigger ∈ allowedTriggers

theorem reportReady_known : ∀ trigger ∈ ["report.ready"],trigger ∈ allowedTriggers := by decide

inductive AttemptId where
  /-- natt, the event and the rule -/
  | initial (eventId ruleId : ℕ)
  | next (n : ℕ)
deriving DecidableEq

structure Attempt where
  id : AttemptId
  ruleId : ℕ
  channel : Channel
  status : Status
  reason : String
  createdAt : Time
  attemptedAt : Option Time
  attemptNumber : Option ℕ
  maxAttempts : Option ℕ
  nextRetryAt : Option Time
  providerError : Option String
  exhausted : Option Bool
deriving DecidableEq

structure Event where
  id : ℕ
  tenantId : String
  trigger : String
  deliveryAttempts : List Attempt
deriving DecidableEq

/-- A provider's side of one delivery: the local checks of the payload, the configuration of
the relay (email only) and the answer. -/
structure Reply where
  accepted : Bool
  configured : Bool
  ok : Bool
  error : Option String
deriving DecidableEq

structure ProviderResult where
  status : Status
  reason : String
  attemptNumber : Option ℕ
  maxAttempts : Option ℕ
  providerError : Option String

def mapProviderSendResult (reply : Reply) (deliveredReason : String) : ProviderResult :=
  let attemptNumber := 1
  let maxAttempts := webhookMaxAttempts
  let providerError := reply.error.getD "provider_send_failed"
  if reply.ok then
    ⟨.deliveredProvider,deliveredReason,some attemptNumber,some maxAttempts,none⟩
  else if attemptNumber < maxAttempts then
    ⟨.providerRetryScheduled,providerError,some attemptNumber,some maxAttempts,
      some providerError⟩
  else ⟨.providerFailedDlq,providerError,some attemptNumber,some maxAttempts,some providerError⟩

/-- deliverSlack and deliverTeams, with the reason of a delivery. -/
def deliverHttps (deliveredReason : String) (reply : Reply) : ProviderResult :=
  if reply.accepted then mapProviderSendResult reply deliveredReason
  else ⟨.providerFailedDlq,"provider_payload_too_large",none,none,
    some "provider_payload_too_large"⟩

def deliverSlack (reply : Reply) : ProviderResult := deliverHttps "slack_delivered" reply

def deliverTeams (reply : Reply) : ProviderResult := deliverHttps "teams_delivered" reply

def deliverEmail (reply : Reply) : ProviderResult :=
  let attemptNumber := 1
  let maxAttempts := webhookMaxAttempts
  let message := reply.error.getD "smtp_send_failed"
  if reply.accepted = false then
    ⟨.providerFailedDlq,"smtp_envelope_invalid",none,none,some "smtp_envelope_invalid"⟩
  else if reply.configured = false then
    ⟨.queuedProviderNotConfigured,"smtp_host_not_configured",none,none,none⟩
  else if reply.ok then ⟨.deliveredProvider,"email_delivered",none,none,none⟩
  else if attemptNumber < maxAttempts then
    ⟨.providerRetryScheduled,message,some attemptNumber,some maxAttempts,some message⟩
  else ⟨.providerFailedDlq,message,some attemptNumber,some maxAttempts,some message⟩

/-- The adapter of a channel that has one. -/
def deliverer : Channel → Option (Reply → ProviderResult)
  | .email => some deliverEmail
  | .slack => some deliverSlack
  | .teams => some deliverTeams
  | _ => none

/-- The answer belongs to a send: the payload left for the provider. -/
def Reply.sends (channel : Channel) (reply : Reply) : Bool :=
  reply.accepted && (channel != .email || reply.configured)

def deliveryStatusForChannel (channel : Channel) : Status × String × Bool :=
  if channel = .inApp then (.deliveredInApp,"recorded_in_tenant_in_app_feed",true)
  else (.queuedProviderNotConfigured,"outbound_provider_not_configured_opt_in",false)

def buildNotificationDeliveryAttempt (eventId : ℕ) (rule : Rule) (now : Time) : Attempt where
  id := .initial eventId rule.id
  ruleId := rule.id
  channel := rule.channel
  status := (deliveryStatusForChannel rule.channel).1
  reason := (deliveryStatusForChannel rule.channel).2.1
  createdAt := now
  attemptedAt := if (deliveryStatusForChannel rule.channel).2.2 then some now else none
  attemptNumber := none
  maxAttempts := none
  nextRetryAt := none
  providerError := none
  exhausted := none

def applyProviderResult (attempt : Attempt) (result : ProviderResult) (now : Time) : Attempt :=
  if result.status = .queuedProviderNotConfigured then attempt
  else
    let base := { attempt with
      attemptedAt := some now
      attemptNumber := some (result.attemptNumber.getD 1)
      maxAttempts := some (result.maxAttempts.getD webhookMaxAttempts) }
    if result.status = .deliveredProvider then
      { base with
        status := .deliveredProvider
        reason := result.reason }
    else if result.status = .providerRetryScheduled then
      { base with
        status := .providerRetryScheduled
        reason := result.reason
        nextRetryAt := some (now+notificationRetryBackoffMs)
        providerError := some (result.providerError.getD result.reason)
        exhausted := some false }
    else
      { base with
        status := .providerFailedDlq
        reason := result.reason
        providerError := some (result.providerError.getD result.reason)
        exhausted := some true }

def finalizeWebhookAttempt (attempt : Attempt) (reply : Reply) (now : Time) : Attempt :=
  let attemptNumber := 1
  let maxAttempts := webhookMaxAttempts
  let base := { attempt with
    attemptedAt := some now
    attemptNumber := some attemptNumber
    maxAttempts := some maxAttempts }
  let providerError := reply.error.getD "webhook_send_failed"
  if reply.accepted = false then
    { base with
      status := .providerFailedDlq
      reason := "provider_payload_too_large"
      providerError := some "provider_payload_too_large"
      exhausted := some true }
  else if reply.ok then
    { base with
      status := .deliveredProvider
      reason := "webhook_delivered" }
  else if attemptNumber < maxAttempts then
    { base with
      status := .providerRetryScheduled
      reason := providerError
      nextRetryAt := some (now+notificationRetryBackoffMs)
      providerError := some providerError
      exhausted := some false }
  else
    { base with
      status := .providerFailedDlq
      reason := providerError
      providerError := some providerError
      exhausted := some true }

/-- The channel's provider is called: the mode activates it and the rule has a destination. -/
def outbound (modes : List Channel) (channel : Channel) (destination : String) : Bool :=
  channel != .inApp && modes.contains channel && destination != ""

/-- finalizeNotificationDeliveryAttempts on one attempt. -/
def finalizeNotificationDeliveryAttempt (modes : List Channel) (attempt : Attempt)
    (destination : String) (reply : Reply) (now : Time) : Attempt :=
  if outbound modes attempt.channel destination then
    match deliverer attempt.channel with
    | some deliver => applyProviderResult attempt (deliver reply) now
    | none => finalizeWebhookAttempt attempt reply now
  else attempt

def resolveRule (rules : List Rule) (tenantId : String) (ruleId : ℕ) : Option Rule :=
  rules.find? fun r => r.id == ruleId && r.tenantId == tenantId

def destinationOf (rule : Option Rule) : String := (rule.map Rule.destination).getD ""

inductive Gate where
  | deliver
  | hold
  | cancel (status : Status) (reason : String)
  | unknown
deriving DecidableEq

def ruleUnsubscribedFromTrigger (rule : Rule) (trigger : String) : Bool :=
  trigger != "" && !rule.triggers.contains trigger

def evaluateNotificationRuleDeliveryGate (rule : Option Rule) (trigger : String) : Gate :=
  match rule with
  | none => .unknown
  | some rule =>
      if rule.deletedAt.isSome then .cancel .cancelledRuleRemoved "rule_removed"
      else if rule.enabled = false then .hold
      else if ruleUnsubscribedFromTrigger rule trigger then
        .cancel .cancelledRuleUnsubscribed "rule_unsubscribed"
      else .deliver

def buildHeldPendingAttempt (attempt : Attempt) (now : Time) : Attempt :=
  { attempt with
    status := .providerRetryScheduled
    reason := "outbox_pending_delivery"
    attemptedAt := none
    attemptNumber := some 0
    maxAttempts := some (attempt.maxAttempts.getD webhookMaxAttempts)
    nextRetryAt := some now
    exhausted := some false }

def buildRuleRemovedCancellationAttempt (attempt : Attempt) (status : Status) (reason : String)
    (now : Time) (newAttemptId : AttemptId) : Attempt where
  id := newAttemptId
  ruleId := attempt.ruleId
  channel := attempt.channel
  status := status
  reason := reason
  createdAt := now
  attemptedAt := none
  attemptNumber := some (attempt.attemptNumber.getD 0+1)
  maxAttempts := some (attempt.maxAttempts.getD webhookMaxAttempts)
  nextRetryAt := none
  providerError := none
  exhausted := some true

/-- finalizeGatedNotificationDeliveryAttempts on one attempt, after its gate was read. The
destination is that of the live rule. -/
def finalizeGated (modes : List Channel) (attempt : Attempt) (gate : Gate)
    (destination : String) (reply : Reply) (now : Time) : Attempt :=
  match gate with
  | .cancel status reason =>
      buildRuleRemovedCancellationAttempt attempt status reason now attempt.id
  | .hold => buildHeldPendingAttempt attempt now
  | .unknown => attempt
  | .deliver => finalizeNotificationDeliveryAttempt modes attempt destination reply now

/-- The row of a retry, with the outcome still open. -/
def buildRetryAttemptBase (attempt : Attempt) (now : Time) (newAttemptId : AttemptId)
    (status : Status) (reason : String) : Attempt where
  id := newAttemptId
  ruleId := attempt.ruleId
  channel := attempt.channel
  status := status
  reason := reason
  createdAt := now
  attemptedAt := some now
  attemptNumber := some (attempt.attemptNumber.getD 1+1)
  maxAttempts := some (attempt.maxAttempts.getD webhookMaxAttempts)
  nextRetryAt := none
  providerError := none
  exhausted := none

def retryScheduled (base : Attempt) (now : Time) (providerError : String) : Attempt :=
  { base with
    nextRetryAt := some (now+notificationRetryBackoffMs)
    providerError := some providerError
    exhausted := some false }

def failedDlq (base : Attempt) (providerError : String) : Attempt :=
  { base with
    providerError := some providerError
    exhausted := some true }

def buildMetadataOnlyRetryDeliveryAttempt (attempt : Attempt) (now : Time)
    (newAttemptId : AttemptId) : Attempt :=
  let base := buildRetryAttemptBase attempt now newAttemptId
  if attempt.maxAttempts.getD webhookMaxAttempts ≤ attempt.attemptNumber.getD 1+1 then
    let reason := attempt.providerError.getD "retry_exhausted_metadata_only"
    failedDlq (base .providerFailedDlq reason) reason
  else
    let reason := attempt.providerError.getD "retry_planned_metadata_only"
    retryScheduled (base .providerRetryScheduled reason) now reason

def mapRetryProviderDeliveryResult (base : Status → String → Attempt) (result : ProviderResult)
    (now : Time) : Attempt :=
  let providerError := result.providerError.getD result.reason
  match result.status with
  | .queuedProviderNotConfigured => base .queuedProviderNotConfigured result.reason
  | .deliveredProvider => base .deliveredProvider result.reason
  | .providerRetryScheduled =>
      retryScheduled (base .providerRetryScheduled result.reason) now providerError
  | _ => failedDlq (base .providerFailedDlq result.reason) providerError

def buildWebhookRetryDeliveryAttempt (attempt : Attempt) (reply : Reply) (now : Time)
    (newAttemptId : AttemptId) : Attempt :=
  let base := buildRetryAttemptBase attempt now newAttemptId
  let maxAttempts := attempt.maxAttempts.getD webhookMaxAttempts
  let attemptNumber := attempt.attemptNumber.getD 1+1
  let providerError := reply.error.getD "webhook_send_failed"
  if reply.accepted = false then
    failedDlq (base .providerFailedDlq "provider_payload_too_large")
      "provider_payload_too_large"
  else if reply.ok then base .deliveredProvider "webhook_delivered"
  else if attemptNumber < maxAttempts then
    retryScheduled (base .providerRetryScheduled providerError) now providerError
  else failedDlq (base .providerFailedDlq providerError) providerError

/-- The channel is one that the mode activates for retries. -/
def retryChannelActive (modes : List Channel) (channel : Channel) : Bool :=
  channel != .inApp && modes.contains channel

def buildRetryDeliveryAttempt (modes : List Channel) (attempt : Attempt) (destination : String)
    (reply : Reply) (now : Time) (newAttemptId : AttemptId) : Attempt :=
  let base := buildRetryAttemptBase attempt now newAttemptId
  if retryChannelActive modes attempt.channel then
    if destination = "" then
      failedDlq (base .providerFailedDlq "retry_channel_not_supported")
        "retry_channel_not_supported"
    else match deliverer attempt.channel with
      | some deliver => mapRetryProviderDeliveryResult base (deliver reply) now
      | none => buildWebhookRetryDeliveryAttempt attempt reply now newAttemptId
  else buildMetadataOnlyRetryDeliveryAttempt attempt now newAttemptId

def buildMetadataOnlyDlqRedriveAttempt (attempt : Attempt) (now : Time)
    (newAttemptId : AttemptId) : Attempt where
  id := newAttemptId
  ruleId := attempt.ruleId
  channel := attempt.channel
  status := .providerRetryScheduled
  reason := "dlq_redrive_metadata_only"
  createdAt := now
  attemptedAt := some now
  attemptNumber := some 1
  maxAttempts := some (attempt.maxAttempts.getD webhookMaxAttempts)
  nextRetryAt := some now
  providerError := some (attempt.providerError.getD "dlq_redrive_metadata_only")
  exhausted := some false

def redriveSeed (attempt : Attempt) (now : Time) (newAttemptId : AttemptId) : Attempt where
  id := newAttemptId
  ruleId := attempt.ruleId
  channel := attempt.channel
  status := .queuedProviderNotConfigured
  reason := "dlq_redrive"
  createdAt := now
  attemptedAt := none
  attemptNumber := some 1
  maxAttempts := some (attempt.maxAttempts.getD webhookMaxAttempts)
  nextRetryAt := none
  providerError := none
  exhausted := none

def buildDlqRedriveDeliveryAttempt (modes : List Channel) (attempt : Attempt)
    (destination : String) (reply : Reply) (now : Time) (newAttemptId : AttemptId) : Attempt :=
  if modes = [] then buildMetadataOnlyDlqRedriveAttempt attempt now newAttemptId
  else
    let record := finalizeNotificationDeliveryAttempt modes
      (redriveSeed attempt now newAttemptId) destination reply now
    if record.status = .providerRetryScheduled ∧ record.nextRetryAt = none then
      { record with nextRetryAt := some (now+notificationRetryBackoffMs) }
    else record

/-- Map.set with the rule as key: a known key keeps its place. -/
def setLatest (m : List (ℕ × Attempt)) (row : ℕ × Attempt) : List (ℕ × Attempt) :=
  if m.any fun r => r.2.ruleId == row.2.ruleId then
    m.map fun r => if r.2.ruleId == row.2.ruleId then row else r
  else m++[row]

/-- The latest attempt of each rule, with its position. -/
def latestDeliveryAttemptsByRule (attempts : List Attempt) : List (ℕ × Attempt) :=
  attempts.zipIdx.foldl (fun m row => setLatest m (row.2,row.1)) []

/-- A piece of work: the event, and the attempt with its place among the event's attempts. -/
structure Item where
  eventId : ℕ
  trigger : String
  index : ℕ
  attempt : Attempt
deriving DecidableEq

def isNotificationRetryDue (asOf : Time) (attempt : Attempt) : Bool :=
  attempt.status = .providerRetryScheduled && attempt.nextRetryAt.any fun due => due ≤ asOf

/-- The latest attempts that a pass takes up, event by event. -/
def collectItems (take : Attempt → Bool) (events : List Event) : List Item :=
  events.flatMap fun event =>
    ((latestDeliveryAttemptsByRule event.deliveryAttempts).filter fun row => take row.2).map
      fun row => ⟨event.id,event.trigger,row.1,row.2⟩

def collectDueNotificationRetries (events : List Event) (asOf : Time) : List Item :=
  collectItems (isNotificationRetryDue asOf) events

def collectDlqNotificationAttempts (events : List Event) (attemptIds : Option (List AttemptId))
    (ruleId : Option ℕ) : List Item :=
  collectItems (fun attempt => attempt.status = .providerFailedDlq &&
    ruleId.all (fun r => attempt.ruleId == r) &&
    attemptIds.all fun ids => ids.contains attempt.id) events

/-- No later attempt belongs to the same rule. -/
def IsLatest (attempts : List Attempt) (i : ℕ) (a : Attempt) : Prop :=
  attempts[i]? = some a ∧ ∀ j b,i < j → attempts[j]? = some b → b.ruleId ≠ a.ruleId

theorem mem_setLatest {m : List (ℕ × Attempt)} {row r : ℕ × Attempt} :
    r ∈ setLatest m row ↔ r = row ∨ (r ∈ m ∧ r.2.ruleId ≠ row.2.ruleId) := by
  unfold setLatest
  by_cases hany : (m.any fun r => r.2.ruleId == row.2.ruleId) = true
  · rw [if_pos hany]
    obtain ⟨k,hk,hkey⟩ := List.any_eq_true.mp hany
    constructor
    · intro hr
      obtain ⟨q,hq,rfl⟩ := List.mem_map.mp hr
      by_cases he : q.2.ruleId = row.2.ruleId
      · exact Or.inl (by simp [he])
      · exact Or.inr (by simpa [he] using hq)
    · rintro (rfl | ⟨hr,hne⟩)
      · exact List.mem_map.mpr ⟨k,hk,by simp [beq_iff_eq.mp hkey]⟩
      · exact List.mem_map.mpr ⟨r,hr,by simp [hne]⟩
  · rw [if_neg hany]
    simp only [List.any_eq_true,not_exists,not_and,beq_iff_eq] at hany
    simp only [List.mem_append,List.mem_singleton]
    constructor
    · rintro (hr | hr)
      · exact Or.inr ⟨hr,hany r hr⟩
      · exact Or.inl hr
    · rintro (hr | hr)
      · exact Or.inr hr
      · exact Or.inl hr.1

theorem latest_append (l : List Attempt) (a : Attempt) :
    latestDeliveryAttemptsByRule (l++[a]) =
      setLatest (latestDeliveryAttemptsByRule l) (l.length,a) := by
  simp [latestDeliveryAttemptsByRule,List.zipIdx_append,List.foldl_append]

theorem isLatest_append {l : List Attempt} {x a : Attempt} {i : ℕ} :
    IsLatest (l++[x]) i a ↔
      (i = l.length ∧ a = x) ∨ (IsLatest l i a ∧ a.ruleId ≠ x.ruleId) := by
  have hlast : (l++[x])[l.length]? = some x := by simp
  constructor
  · rintro ⟨hi,hlater⟩
    rcases lt_trichotomy i l.length with hlt | rfl | hgt
    · refine Or.inr ⟨⟨by rwa [List.getElem?_append_left hlt] at hi,?_⟩,?_⟩
      · intro j b hij hj
        have hjl : j < l.length := (List.getElem?_eq_some_iff.mp hj).1
        exact hlater j b hij (by rw [List.getElem?_append_left hjl]; exact hj)
      · exact (hlater l.length x hlt hlast).symm
    · exact Or.inl ⟨rfl,Option.some.inj (hi.symm.trans hlast)⟩
    · have hnone : (l++[x])[i]? = none := List.getElem?_eq_none (by simp; omega)
      rw [hnone] at hi
      cases hi
  · rintro (⟨rfl,rfl⟩ | ⟨⟨hi,hlater⟩,hne⟩)
    · refine ⟨hlast,?_⟩
      intro j b hij hj
      have hlen := (List.getElem?_eq_some_iff.mp hj).1
      simp only [List.length_append,List.length_singleton] at hlen
      omega
    · have hlt : i < l.length := (List.getElem?_eq_some_iff.mp hi).1
      refine ⟨by rw [List.getElem?_append_left hlt]; exact hi,?_⟩
      intro j b hij hj
      by_cases hjl : j < l.length
      · rw [List.getElem?_append_left hjl] at hj
        exact hlater j b hij hj
      · have hlen := (List.getElem?_eq_some_iff.mp hj).1
        simp only [List.length_append,List.length_singleton] at hlen
        obtain rfl : j = l.length := by omega
        cases hlast.symm.trans hj
        exact hne.symm

theorem mem_latest {l : List Attempt} {i : ℕ} {a : Attempt} :
    (i,a) ∈ latestDeliveryAttemptsByRule l ↔ IsLatest l i a := by
  induction l using List.reverseRecOn with
  | nil => simp [latestDeliveryAttemptsByRule,IsLatest]
  | append_singleton l x ih =>
      rw [latest_append,mem_setLatest,isLatest_append,ih]
      simp

/-- Each rule has one latest attempt. -/
theorem nodup_latest (l : List Attempt) :
    ((latestDeliveryAttemptsByRule l).map fun r => r.2.ruleId).Nodup := by
  induction l using List.reverseRecOn with
  | nil => simp [latestDeliveryAttemptsByRule]
  | append_singleton l x ih =>
      rw [latest_append]
      unfold setLatest
      split
      · have hmap : ((latestDeliveryAttemptsByRule l).map fun r =>
            if r.2.ruleId == x.ruleId then (l.length,x) else r).map (fun r => r.2.ruleId) =
            (latestDeliveryAttemptsByRule l).map fun r => r.2.ruleId := by
          rw [List.map_map]
          refine List.map_congr_left fun r _ => ?_
          by_cases he : r.2.ruleId = x.ruleId
          · simp [he]
          · simp [he]
        rw [hmap]
        exact ih
      · rename_i hany
        simp only [List.any_eq_true,not_exists,not_and,beq_iff_eq] at hany
        rw [List.map_append,List.nodup_append]
        refine ⟨ih,by simp,?_⟩
        intro r hr k hk
        obtain ⟨q,hq,rfl⟩ := List.mem_map.mp hr
        simp only [List.map_cons,List.map_nil,List.mem_singleton] at hk
        rw [hk]
        exact hany q hq

theorem IsLatest.unique {l : List Attempt} {i j : ℕ} {a b : Attempt} (ha : IsLatest l i a)
    (hb : IsLatest l j b) (h : a.ruleId = b.ruleId) : i = j ∧ a = b := by
  rcases lt_trichotomy i j with hlt | rfl | hlt
  · exact absurd h.symm (ha.2 j b hlt hb.1)
  · exact ⟨rfl,Option.some.inj (ha.1.symm.trans hb.1)⟩
  · exact absurd h (hb.2 i a hlt ha.1)

theorem mem_collectItems {take : Attempt → Bool} {events : List Event} {item : Item} :
    item ∈ collectItems take events ↔
      ∃ event ∈ events,item.eventId = event.id ∧ item.trigger = event.trigger ∧
        IsLatest event.deliveryAttempts item.index item.attempt ∧ take item.attempt = true := by
  simp only [collectItems,List.mem_flatMap,List.mem_map,List.mem_filter]
  constructor
  · rintro ⟨event,he,row,⟨hrow,ht⟩,rfl⟩
    exact ⟨event,he,rfl,rfl,mem_latest.mp hrow,ht⟩
  · rintro ⟨event,he,hid,htr,hl,ht⟩
    refine ⟨event,he,(item.index,item.attempt),⟨mem_latest.mpr hl,ht⟩,?_⟩
    cases item
    simp_all

theorem isLatest_of_append {l records : List Attempt} {i : ℕ} {a : Attempt}
    (h : IsLatest (l++records) i a) :
    a ∈ records ∨ (IsLatest l i a ∧ ∀ r ∈ records,r.ruleId ≠ a.ruleId) := by
  induction records using List.reverseRecOn with
  | nil => exact Or.inr ⟨by simpa using h,by simp⟩
  | append_singleton records x ih =>
      rw [← List.append_assoc] at h
      rcases isLatest_append.mp h with ⟨-,rfl⟩ | ⟨h,hne⟩
      · exact Or.inl (by simp)
      · rcases ih h with hmem | ⟨hl,hall⟩
        · exact Or.inl (List.mem_append_left _ hmem)
        · refine Or.inr ⟨hl,?_⟩
          intro r hr
          rcases List.mem_append.mp hr with hr | hr
          · exact hall r hr
          · cases List.mem_singleton.mp hr
            exact hne.symm

def isEvent (tenantId : String) (eventId : ℕ) (event : Event) : Bool :=
  event.id == eventId && event.tenantId == tenantId

def appendAttempts (records : List Attempt) (event : Event) : Event :=
  { event with deliveryAttempts := event.deliveryAttempts++records }

/-- The end of a pass: each record is pushed to its event, if that is there. -/
def storeRecords (tenantId : String) (rows : List (ℕ × Attempt)) (events : List Event) :
    List Event :=
  rows.foldl (fun events row =>
    update (isEvent tenantId row.1) (appendAttempts [row.2]) events) events

def EventIdsUnique (events : List Event) : Prop := (events.map Event.id).Nodup

theorem EventIdsUnique.appendAttempts {events : List Event} (hu : EventIdsUnique events)
    (records : Event → List Attempt) :
    EventIdsUnique (events.map fun e => appendAttempts (records e) e) := by
  unfold EventIdsUnique at *
  rwa [List.map_map]

theorem storeRecords_eq_map {tenantId : String} {rows : List (ℕ × Attempt)} {events : List Event}
    (hu : EventIdsUnique events) : storeRecords tenantId rows events = events.map fun e =>
      appendAttempts ((rows.filter fun row => isEvent tenantId row.1 e).map Prod.snd) e := by
  induction rows generalizing events with
  | nil => simp [storeRecords,appendAttempts]
  | cons row rows ih =>
      have hpair : events.Pairwise fun x y =>
          ¬ (isEvent tenantId row.1 x = true ∧ isEvent tenantId row.1 y = true) := by
        refine (List.pairwise_map.mp hu).imp ?_
        intro x y hne hxy
        simp only [isEvent,Bool.and_eq_true,beq_iff_eq] at hxy
        exact hne (hxy.1.1.trans hxy.2.1.symm)
      have hone : update (isEvent tenantId row.1) (appendAttempts [row.2]) events =
          events.map fun e =>
            appendAttempts (if isEvent tenantId row.1 e then [row.2] else []) e := by
        rw [update_eq_updateAll hpair]
        refine List.map_congr_left fun e _ => ?_
        split <;> simp [appendAttempts]
      have hu' := hu.appendAttempts fun e => if isEvent tenantId row.1 e then [row.2] else []
      rw [storeRecords,List.foldl_cons,hone,← storeRecords,ih hu',List.map_map]
      refine List.map_congr_left fun e _ => ?_
      have hb : ∀ records eventId,isEvent tenantId eventId (appendAttempts records e) =
          isEvent tenantId eventId e := fun _ _ => rfl
      simp only [Function.comp_apply,hb]
      by_cases hi : isEvent tenantId row.1 e = true
      · simp [hi,appendAttempts]
      · simp [hi,appendAttempts]

theorem unique_event {events : List Event} (hu : EventIdsUnique events) {x y : Event}
    (hx : x ∈ events) (hy : y ∈ events) (h : x.id = y.id) : x = y :=
  List.inj_on_of_nodup_map hu hx hy h

/-- Event and rule of a piece of work. -/
def Item.pair (x : Item) : ℕ × ℕ := (x.eventId,x.attempt.ruleId)

theorem nodup_collectItems {take : Attempt → Bool} {events : List Event}
    (hu : EventIdsUnique events) : ((collectItems take events).map Item.pair).Nodup := by
  induction events with
  | nil => simp [collectItems]
  | cons e events ih =>
      obtain ⟨he,hu⟩ := List.nodup_cons.mp hu
      have hsplit : collectItems take (e::events) =
          collectItems take [e]++collectItems take events := by simp [collectItems]
      rw [hsplit,List.map_append,List.nodup_append]
      refine ⟨?_,ih hu,?_⟩
      · have hone : (collectItems take [e]).map Item.pair =
            ((latestDeliveryAttemptsByRule e.deliveryAttempts).filter fun row =>
              take row.2).map fun row => (e.id,row.2.ruleId) := by
          simp [collectItems,Function.comp_def,Item.pair]
        rw [hone]
        have hrules := (nodup_latest e.deliveryAttempts).sublist
          ((List.filter_sublist (p := fun row => take row.2)).map _)
        exact List.Nodup.of_map Prod.snd (by simpa [Function.comp_def] using hrules)
      · intro x hx y hy
        obtain ⟨i,hi,rfl⟩ := List.mem_map.mp hx
        obtain ⟨j,hj,rfl⟩ := List.mem_map.mp hy
        obtain ⟨a,ha,hia,-⟩ := mem_collectItems.mp hi
        obtain ⟨b,hb,hjb,-⟩ := mem_collectItems.mp hj
        cases List.mem_singleton.mp ha
        intro heq
        have hid : e.id = b.id := by
          rw [← hia,← hjb]
          exact congrArg Prod.fst heq
        exact he (hid ▸ List.mem_map_of_mem hb)

/-- The outcome of a delivery that is neither owed nor a dead letter. -/
def Status.isCancelled : Status → Bool
  | .cancelledRuleRemoved => true
  | .cancelledRuleUnsubscribed => true
  | _ => false

theorem gate_deliver {rule : Option Rule} {trigger : String}
    (h : evaluateNotificationRuleDeliveryGate rule trigger = .deliver) :
    ∃ r,rule = some r ∧ r.deletedAt = none ∧ r.enabled = true ∧
      (trigger = "" ∨ trigger ∈ r.triggers) := by
  unfold evaluateNotificationRuleDeliveryGate at h
  cases rule with
  | none => cases h
  | some r =>
      dsimp only at h
      split_ifs at h with hd he hu
      refine ⟨r,rfl,by simpa using hd,by simpa using he,?_⟩
      by_contra hc
      simp only [not_or] at hc
      exact hu (by simp [ruleUnsubscribedFromTrigger,hc.1,hc.2])

theorem gate_cancel {rule : Option Rule} {trigger reason : String} {status : Status}
    (h : evaluateNotificationRuleDeliveryGate rule trigger = .cancel status reason) :
    status.isCancelled = true := by
  unfold evaluateNotificationRuleDeliveryGate at h
  cases rule with
  | none => cases h
  | some r =>
      dsimp only at h
      split_ifs at h
      · cases h
        rfl
      · cases h
        rfl

end AstraNull.NotificationDelivery
