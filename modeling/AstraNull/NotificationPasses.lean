import Mathlib
import AstraNull.Tables
import AstraNull.Runs
import AstraNull.NotificationDelivery

/-!
# Notification calls that overlap

Emissions, retry passes and redrive passes as calls in flight, interleaved at their awaits
with each other and with the changes to the rules. A call works through the items that it
collected when it started: it reads the rule of an item, sends or does not send, and keeps
the record to itself. Only the last step of the call writes the records to the store.
-/
namespace AstraNull.NotificationPasses
open NotificationDelivery Tables Runs

inductive Kind where
  | emission (eventId : ℕ) (trigger : String)
  | retry
  | redrive
deriving DecidableEq

/-- Where a call stands with its first open item: before the read of the rule, between the
read and the send, or waiting for the provider. -/
inductive Phase where
  | ready
  | cleared (rule : Option Rule)
  | sending (rule : Option Rule)

structure Call where
  kind : Kind
  tenantId : String
  now : Time
  modes : List Channel
  dryRun : Bool
  held : List Item
  todo : List Item
  phase : Phase
  out : List (ℕ × Attempt)

/-- The store, the calls in flight and the next free ids. -/
structure State where
  rules : List Rule
  events : List Event
  calls : ℕ → Option Call
  nextRule : ℕ
  nextEvent : ℕ
  nextCall : ℕ

def State.empty : State := ⟨[],[],fun _ => none,0,0,0⟩

def State.set (s : State) (id : ℕ) (c : Option Call) : State :=
  { s with calls := Function.update s.calls id c }

/-- A new call with the items it starts from. -/
def State.start (s : State) (c : Call) : State :=
  { s with
    calls := Function.update s.calls s.nextCall (some c)
    nextCall := s.nextCall+1 }

/-- The item is passed by before its rule is read. -/
def Call.skips (c : Call) (x : Item) : Bool := c.kind != .retry && x.attempt.channel == .inApp

/-- The item is done, with its record if there is one. -/
def Call.settled (c : Call) (x : Item) (rest : List Item) (record : Option Attempt) : Call :=
  { c with
    todo := rest
    phase := .ready
    out := c.out++(record.map fun r => (x.eventId,r)).toList }

def Call.skipped (c : Call) (x : Item) (rest : List Item) : Call :=
  match c.kind with
  | .emission _ _ => c.settled x rest (some x.attempt)
  | _ => c.settled x rest none

/-- What follows from the gate: a record without a send, nothing, or the way to the send. -/
def Call.afterRead (c : Call) (x : Item) (rest : List Item) (rule : Option Rule)
    (newAttemptId : AttemptId) : Call :=
  match c.kind,evaluateNotificationRuleDeliveryGate rule x.trigger with
  | .emission _ _,.cancel status reason => c.settled x rest (some
      (buildRuleRemovedCancellationAttempt x.attempt status reason c.now x.attempt.id))
  | .emission _ _,.hold => c.settled x rest (some (buildHeldPendingAttempt x.attempt c.now))
  | .emission _ _,.unknown => c.settled x rest (some x.attempt)
  | _,.cancel status reason => c.settled x rest (if c.dryRun then none else some
      (buildRuleRemovedCancellationAttempt x.attempt status reason c.now newAttemptId))
  | _,.hold => c.settled x rest none
  | .redrive,.unknown => c.settled x rest none
  | _,_ => if c.dryRun then c.settled x rest none else { c with phase := .cleared rule }

/-- The record of a delivery. -/
def Call.record (c : Call) (x : Item) (rule : Option Rule) (reply : Reply)
    (newAttemptId : AttemptId) : Attempt :=
  match c.kind with
  | .emission _ _ => finalizeNotificationDeliveryAttempt c.modes x.attempt (destinationOf rule)
      reply c.now
  | .retry => buildRetryDeliveryAttempt c.modes x.attempt (destinationOf rule) reply c.now
      newAttemptId
  | .redrive => buildDlqRedriveDeliveryAttempt c.modes x.attempt (destinationOf rule) reply c.now
      newAttemptId

/-- The delivery goes to the channel's provider. -/
def Call.outbound (c : Call) (x : Item) (rule : Option Rule) : Bool :=
  NotificationDelivery.outbound c.modes x.attempt.channel (destinationOf rule)

/-- The end of a call: the event of an emission is pushed, the records of a pass go to their
events. -/
def State.finished (s : State) (id : ℕ) (c : Call) : State :=
  match c.kind with
  | .emission eventId trigger =>
      { s.set id none with
        events := s.events++[⟨eventId,c.tenantId,trigger,c.out.map Prod.snd⟩] }
  | _ => { s.set id none with events := storeRecords c.tenantId c.out s.events }

def emissionItems (s : State) (tenantId trigger : String) (now : Time) : List Item :=
  (s.rules.filter fun r => r.tenantId == tenantId && r.enabled &&
    r.triggers.contains trigger).zipIdx.map fun row =>
      ⟨s.nextEvent,trigger,row.2,buildNotificationDeliveryAttempt s.nextEvent row.1 now⟩

def tenantEvents (s : State) (tenantId : String) : List Event :=
  s.events.filter fun e => e.tenantId == tenantId

def newCall (kind : Kind) (tenantId : String) (now : Time) (modes : List Channel)
    (dryRun : Bool) (items : List Item) : Call :=
  ⟨kind,tenantId,now,modes,dryRun,items,items,.ready,[]⟩

def emitNotification (s : State) (tenantId trigger : String) (now : Time)
    (modes : List Channel) : State :=
  { s.start (newCall (.emission s.nextEvent trigger) tenantId now modes false
      (emissionItems s tenantId trigger now)) with nextEvent := s.nextEvent+1 }

def dueItems (s : State) (tenantId : String) (asOf : Time) : List Item :=
  collectDueNotificationRetries (tenantEvents s tenantId) asOf

def processDueNotificationRetries (s : State) (tenantId : String) (asOf now : Time)
    (modes : List Channel) (dryRun : Bool) : State :=
  s.start (newCall .retry tenantId now modes dryRun (dueItems s tenantId asOf))

def redriveNotificationDlq (s : State) (tenantId : String) (attemptIds : Option (List AttemptId))
    (ruleId : Option ℕ) (now : Time) (modes : List Channel) (dryRun : Bool) : State :=
  s.start (newCall .redrive tenantId now modes dryRun
    (collectDlqNotificationAttempts (tenantEvents s tenantId) attemptIds ruleId))

def isLiveRule (tenantId : String) (ruleId : ℕ) (rule : Rule) : Bool :=
  rule.id == ruleId && rule.tenantId == tenantId && rule.deletedAt.isNone

def changeRule (tenantId : String) (ruleId : ℕ) (f : Rule → Rule) (rules : List Rule) :
    List Rule :=
  update (isLiveRule tenantId ruleId) f rules

/-- The fields that an update may change. -/
def updateNotificationRule (change rule : Rule) : Rule :=
  { rule with
    destination := change.destination
    triggers := change.triggers
    enabled := change.enabled
    known := change.known }

def deleteNotificationRule (now : Time) (rule : Rule) : Rule :=
  { rule with
    enabled := false
    destination := ""
    deletedAt := some now }

inductive Op where
  | createRule (rule : Rule)
  | updateRule (tenantId : String) (ruleId : ℕ) (change : Rule)
  | deleteRule (tenantId : String) (ruleId : ℕ) (now : Time)
  | emit (tenantId trigger : String) (now : Time) (modes : List Channel)
  | retry (tenantId : String) (asOf now : Time) (modes : List Channel) (dryRun : Bool)
  | redrive (tenantId : String) (attemptIds : Option (List AttemptId)) (ruleId : Option ℕ)
      (now : Time) (modes : List Channel) (dryRun : Bool)
  | skip (call : ℕ) (item : Item)
  | read (call : ℕ) (item : Item) (rule : Option Rule)
  | send (call : ℕ) (item : Item)
  | settle (call : ℕ) (item : Item)
  | finish (call : ℕ)

/-- The call has the item before it. -/
def State.At (s : State) (id : ℕ) (c : Call) (x : Item) (rest : List Item) : Prop :=
  s.calls id = some c ∧ c.todo = x::rest

inductive Step : State → Op → State → Prop
  | createRule {s : State} {rule : Rule} : rule.id = s.nextRule → rule.deletedAt = none →
      Step s (.createRule rule)
        { s with
          rules := s.rules++[rule]
          nextRule := s.nextRule+1 }
  | updateRule {s : State} {tenantId : String} {ruleId : ℕ} {change : Rule} :
      Step s (.updateRule tenantId ruleId change)
        { s with
          rules := changeRule tenantId ruleId (updateNotificationRule change) s.rules }
  | deleteRule {s : State} {tenantId : String} {ruleId : ℕ} {now : Time} :
      Step s (.deleteRule tenantId ruleId now)
        { s with
          rules := changeRule tenantId ruleId (deleteNotificationRule now) s.rules }
  | emit {s : State} {tenantId trigger : String} {now : Time} {modes : List Channel} :
      Step s (.emit tenantId trigger now modes) (emitNotification s tenantId trigger now modes)
  | retry {s : State} {tenantId : String} {asOf now : Time} {modes : List Channel}
      {dryRun : Bool} : Step s (.retry tenantId asOf now modes dryRun)
        (processDueNotificationRetries s tenantId asOf now modes dryRun)
  | redrive {s : State} {tenantId : String} {attemptIds : Option (List AttemptId)}
      {ruleId : Option ℕ} {now : Time} {modes : List Channel} {dryRun : Bool} :
      Step s (.redrive tenantId attemptIds ruleId now modes dryRun)
        (redriveNotificationDlq s tenantId attemptIds ruleId now modes dryRun)
  | skip {s : State} {id : ℕ} {c : Call} {x : Item} {rest : List Item} :
      s.At id c x rest → c.phase = .ready → c.skips x = true →
      Step s (.skip id x) (s.set id (c.skipped x rest))
  | read {s : State} {id : ℕ} {c : Call} {x : Item} {rest : List Item} {rule : Option Rule}
      {newAttemptId : AttemptId} : s.At id c x rest → c.phase = .ready → c.skips x = false →
      rule = resolveRule s.rules c.tenantId x.attempt.ruleId →
      Step s (.read id x rule) (s.set id (c.afterRead x rest rule newAttemptId))
  | send {s : State} {id : ℕ} {c : Call} {x : Item} {rest : List Item} {rule : Option Rule} :
      s.At id c x rest → c.phase = .cleared rule → c.outbound x rule = true →
      Step s (.send id x) (s.set id (some { c with phase := .sending rule }))
  /-- A delivery that needs no provider, or that the channel refuses before the send. -/
  | unsent {s : State} {id : ℕ} {c : Call} {x : Item} {rest : List Item} {rule : Option Rule}
      {reply : Reply} {newAttemptId : AttemptId} : s.At id c x rest → c.phase = .cleared rule →
      (c.outbound x rule && reply.sends x.attempt.channel) = false →
      Step s (.settle id x) (s.set id (c.settled x rest (c.record x rule reply newAttemptId)))
  | answered {s : State} {id : ℕ} {c : Call} {x : Item} {rest : List Item} {rule : Option Rule}
      {reply : Reply} {newAttemptId : AttemptId} : s.At id c x rest → c.phase = .sending rule →
      reply.sends x.attempt.channel = true →
      Step s (.settle id x) (s.set id (c.settled x rest (c.record x rule reply newAttemptId)))
  | finish {s : State} {id : ℕ} {c : Call} : s.calls id = some c → c.todo = [] →
      Step s (.finish id) (s.finished id c)

@[simp] theorem buildHeldPendingAttempt_ruleId (attempt : Attempt) (now : Time) :
    (buildHeldPendingAttempt attempt now).ruleId = attempt.ruleId := rfl

@[simp] theorem buildRuleRemovedCancellationAttempt_ruleId (attempt : Attempt) (status : Status)
    (reason : String) (now : Time) (newAttemptId : AttemptId) :
    (buildRuleRemovedCancellationAttempt attempt status reason now newAttemptId).ruleId =
      attempt.ruleId := rfl

theorem finalize_ruleId {modes : List Channel} {attempt : Attempt} {destination : String}
    {reply : Reply} {now : Time} :
    (finalizeNotificationDeliveryAttempt modes attempt destination reply now).ruleId =
      attempt.ruleId := by
  unfold finalizeNotificationDeliveryAttempt applyProviderResult finalizeWebhookAttempt
  dsimp only
  repeat' split
  all_goals rfl

theorem buildRetryDeliveryAttempt_ruleId {modes : List Channel} {attempt : Attempt}
    {destination : String} {reply : Reply} {now : Time} {newAttemptId : AttemptId} :
    (buildRetryDeliveryAttempt modes attempt destination reply now newAttemptId).ruleId =
      attempt.ruleId := by
  unfold buildRetryDeliveryAttempt buildMetadataOnlyRetryDeliveryAttempt
    buildWebhookRetryDeliveryAttempt mapRetryProviderDeliveryResult
  dsimp only
  repeat' split
  all_goals rfl

theorem buildDlqRedriveDeliveryAttempt_ruleId {modes : List Channel} {attempt : Attempt}
    {destination : String} {reply : Reply} {now : Time} {newAttemptId : AttemptId} :
    (buildDlqRedriveDeliveryAttempt modes attempt destination reply now newAttemptId).ruleId =
      attempt.ruleId := by
  unfold buildDlqRedriveDeliveryAttempt
  dsimp only
  split
  · rfl
  · split
    · exact finalize_ruleId
    · exact finalize_ruleId

theorem Call.record_ruleId {c : Call} {x : Item} {rule : Option Rule} {reply : Reply}
    {newAttemptId : AttemptId} :
    (c.record x rule reply newAttemptId).ruleId = x.attempt.ruleId := by
  unfold Call.record
  split
  · exact finalize_ruleId
  · exact buildRetryDeliveryAttempt_ruleId
  · exact buildDlqRedriveDeliveryAttempt_ruleId

/-- What a call may become while it works on an item: the item is done, or cleared. -/
theorem Call.skipped_cases (c : Call) (x : Item) (rest : List Item) :
    ∃ record,c.skipped x rest = c.settled x rest record ∧
      ∀ r ∈ record,r.ruleId = x.attempt.ruleId := by
  unfold Call.skipped
  split
  · exact ⟨_,rfl,by simp⟩
  · exact ⟨_,rfl,by simp⟩

theorem Call.afterRead_cases (c : Call) (x : Item) (rest : List Item) (rule : Option Rule)
    (newAttemptId : AttemptId) :
    (∃ record,c.afterRead x rest rule newAttemptId = c.settled x rest record ∧
      ∀ r ∈ record,r.ruleId = x.attempt.ruleId) ∨
    (c.afterRead x rest rule newAttemptId = { c with phase := .cleared rule } ∧
      c.dryRun = false ∧
      (evaluateNotificationRuleDeliveryGate rule x.trigger = .deliver ∨
        evaluateNotificationRuleDeliveryGate rule x.trigger = .unknown)) := by
  unfold Call.afterRead
  cases hk : c.kind <;> cases hg : evaluateNotificationRuleDeliveryGate rule x.trigger <;>
    cases hd : c.dryRun <;> dsimp only <;>
    first
    | exact Or.inl ⟨_,rfl,by simp⟩
    | exact Or.inr ⟨rfl,rfl,by simp⟩

def rowPair (row : ℕ × Attempt) : ℕ × ℕ := (row.1,row.2.ruleId)

/-- The item is an attempt of a stored event. -/
def Stored (events : List Event) (tenantId : String) (x : Item) : Prop :=
  ∃ e ∈ events,e.id = x.eventId ∧ e.tenantId = tenantId ∧ e.trigger = x.trigger ∧
    e.deliveryAttempts[x.index]? = some x.attempt

/-- The items of a call are what its kind of call works on. -/
def Kind.Holds (events : List Event) (nextEvent : ℕ) (tenantId : String) (items : List Item) :
    Kind → Prop
  | .emission eventId trigger => eventId < nextEvent ∧ (∀ e ∈ events,e.id ≠ eventId) ∧
      ∀ x ∈ items,x.eventId = eventId ∧ x.trigger = trigger ∧
        x.attempt.status ≠ .providerRetryScheduled
  | .retry => ∀ x ∈ items,Stored events tenantId x ∧
      x.attempt.status = .providerRetryScheduled
  | .redrive => ∀ x ∈ items,Stored events tenantId x ∧ x.attempt.status = .providerFailedDlq

/-- A call in flight: one item for each pair, and records only of items that are done. -/
structure CallOk (s : State) (c : Call) : Prop where
  pairs : (c.held.map Item.pair).Nodup
  done : ∃ done,c.held = done++c.todo ∧ (c.out.map rowPair).Sublist (done.map Item.pair)
  sends : c.phase ≠ .ready → c.dryRun = false
  holds : c.kind.Holds s.events s.nextEvent c.tenantId c.held

structure Inv (s : State) : Prop where
  unique : EventIdsUnique s.events
  below : ∀ e ∈ s.events,e.id < s.nextEvent
  rules : (s.rules.map Rule.id).Nodup
  rulesBelow : ∀ r ∈ s.rules,r.id < s.nextRule
  fresh : ∀ id,s.nextCall ≤ id → s.calls id = none
  calls : ∀ id c,s.calls id = some c → CallOk s c
  emissions : ∀ i j c d e t u,s.calls i = some c → s.calls j = some d →
    c.kind = .emission e t → d.kind = .emission e u → i = j

section
variable {s : State} {id : ℕ} {c : Call} {x : Item} {rest : List Item}

theorem CallOk.settled (h : CallOk s c) (ht : c.todo = x::rest) {record : Option Attempt}
    (hr : ∀ r ∈ record,r.ruleId = x.attempt.ruleId) : CallOk s (c.settled x rest record) where
  pairs := h.pairs
  done := by
    obtain ⟨done,hheld,hout⟩ := h.done
    refine ⟨done++[x],by simp [Call.settled,hheld,ht],?_⟩
    simp only [Call.settled,List.map_append,List.map_cons,List.map_nil]
    refine hout.append ?_
    cases record with
    | none => simp
    | some r =>
        have hr : r.ruleId = x.attempt.ruleId := hr r rfl
        simp [rowPair,Item.pair,hr]
  sends hp := absurd rfl hp
  holds := h.holds

theorem CallOk.phase (h : CallOk s c) {p : Phase} (hd : c.dryRun = false) :
    CallOk s { c with phase := p } where
  pairs := h.pairs
  done := h.done
  sends _ := hd
  holds := h.holds

/-- A call moves on and everything else stays. -/
theorem Inv.set (h : Inv s) (hc : s.calls id = some c) {d : Call} (hk : d.kind = c.kind)
    (hd : CallOk s d) : Inv (s.set id (some d)) where
  unique := h.unique
  below := h.below
  rules := h.rules
  rulesBelow := h.rulesBelow
  fresh j hj := by
    have hne : j ≠ id := by
      rintro rfl
      rw [h.fresh j hj] at hc
      cases hc
    simpa [State.set,hne] using h.fresh j hj
  calls j e he := by
    by_cases hj : j = id
    · subst hj
      simp only [State.set,Function.update_self,Option.some.injEq] at he
      subst he
      exact ⟨hd.pairs,hd.done,hd.sends,hd.holds⟩
    · have he : s.calls j = some e := by simpa [State.set,hj] using he
      have hok := h.calls j e he
      exact ⟨hok.pairs,hok.done,hok.sends,hok.holds⟩
  emissions i j a b e t u ha hb hea heb := by
    have hback : ∀ k a,(s.set id (some d)).calls k = some a →
        ∃ a',s.calls k = some a' ∧ a'.kind = a.kind := by
      intro k a ha
      by_cases hk' : k = id
      · subst hk'
        simp only [State.set,Function.update_self,Option.some.injEq] at ha
        subst ha
        exact ⟨c,hc,hk.symm⟩
      · exact ⟨a,by simpa [State.set,hk'] using ha,rfl⟩
    obtain ⟨a',ha',hka⟩ := hback i a ha
    obtain ⟨b',hb',hkb⟩ := hback j b hb
    exact h.emissions i j a' b' e t u ha' hb' (hka.trans hea) (hkb.trans heb)

/-- A new call. -/
theorem Inv.start (h : Inv s) (hok : CallOk s c)
    (hnew : ∀ j d e t u,s.calls j = some d → c.kind = .emission e t → d.kind = .emission e u →
      False) : Inv (s.start c) where
  unique := h.unique
  below := h.below
  rules := h.rules
  rulesBelow := h.rulesBelow
  fresh j hj := by
    have hj : s.nextCall+1 ≤ j := hj
    have hne : j ≠ s.nextCall := by omega
    simpa [State.start,hne] using h.fresh j (by omega)
  calls j d hd := by
    by_cases hj : j = s.nextCall
    · subst hj
      simp only [State.start,Function.update_self,Option.some.injEq] at hd
      subst hd
      exact ⟨hok.pairs,hok.done,hok.sends,hok.holds⟩
    · have hd : s.calls j = some d := by simpa [State.start,hj] using hd
      have hok := h.calls j d hd
      exact ⟨hok.pairs,hok.done,hok.sends,hok.holds⟩
  emissions i j a b e t u ha hb hea heb := by
    by_cases hi : i = s.nextCall
    · by_cases hj : j = s.nextCall
      · exact hi.trans hj.symm
      · subst hi
        simp only [State.start,Function.update_self,Option.some.injEq] at ha
        subst ha
        exact (hnew j b e t u (by simpa [State.start,hj] using hb) hea heb).elim
    · have ha : s.calls i = some a := by simpa [State.start,hi] using ha
      by_cases hj : j = s.nextCall
      · subst hj
        simp only [State.start,Function.update_self,Option.some.injEq] at hb
        subst hb
        exact (hnew i a e u t ha heb hea).elim
      · exact h.emissions i j a b e t u ha (by simpa [State.start,hj] using hb) hea heb

/-- Every event is still there, with at least its attempts. -/
def Grown (events events' : List Event) : Prop :=
  ∀ e ∈ events,∃ e' ∈ events',e'.id = e.id ∧ e'.tenantId = e.tenantId ∧ e'.trigger = e.trigger ∧
    e.deliveryAttempts <+: e'.deliveryAttempts

theorem Stored.grown {events events' : List Event} {tenantId : String}
    (h : Stored events tenantId x) (hg : Grown events events') : Stored events' tenantId x := by
  obtain ⟨e,he,hid,ht,htr,hx⟩ := h
  obtain ⟨e',he',hid',ht',htr',hpre⟩ := hg e he
  refine ⟨e',he',hid'.trans hid,ht'.trans ht,htr'.trans htr,?_⟩
  have hlt : x.index < e.deliveryAttempts.length := (List.getElem?_eq_some_iff.mp hx).1
  obtain ⟨more,hmore⟩ := hpre
  rw [← hmore,List.getElem?_append_left hlt]
  exact hx

theorem grown_append (events : List Event) (e : Event) : Grown events (events++[e]) :=
  fun x hx => ⟨x,List.mem_append_left _ hx,rfl,rfl,rfl,List.prefix_refl _⟩

theorem grown_map (events : List Event) (records : Event → List Attempt) :
    Grown events (events.map fun e => appendAttempts (records e) e) :=
  fun _ hx => ⟨_,List.mem_map_of_mem hx,rfl,rfl,rfl,List.prefix_append _ _⟩

theorem Kind.Holds.grown {events events' : List Event} {n m : ℕ} {tenantId : String}
    {items : List Item} {k : Kind} (h : k.Holds events n tenantId items)
    (hg : Grown events events') (hn : n ≤ m)
    (hnew : ∀ e t,k = .emission e t → ∀ x ∈ events',x.id ≠ e) :
    k.Holds events' m tenantId items := by
  cases k with
  | emission e t => exact ⟨h.1.trans_le hn,hnew e t rfl,h.2.2⟩
  | retry => exact fun x hx => ⟨(h x hx).1.grown hg,(h x hx).2⟩
  | redrive => exact fun x hx => ⟨(h x hx).1.grown hg,(h x hx).2⟩

theorem calls_set_none {j : ℕ} {d : Call} (hd : (s.set id none).calls j = some d) :
    j ≠ id ∧ s.calls j = some d := by
  by_cases hj : j = id
  · subst hj
    simp [State.set] at hd
  · exact ⟨hj,by simpa [State.set,hj] using hd⟩

/-- A call ends and the events grow. -/
theorem Inv.remove (h : Inv s) {events : List Event} (hu : EventIdsUnique events)
    (hb : ∀ e ∈ events,e.id < s.nextEvent) (hg : Grown s.events events)
    (hnew : ∀ j d e t,j ≠ id → s.calls j = some d → d.kind = .emission e t →
      ∀ x ∈ events,x.id ≠ e) :
    Inv { s.set id none with events := events } where
  unique := hu
  below := hb
  rules := h.rules
  rulesBelow := h.rulesBelow
  fresh j hj := by
    by_cases hid : j = id
    · simp [State.set,hid]
    · simpa [State.set,hid] using h.fresh j hj
  calls j d hd := by
    obtain ⟨hj,hd⟩ := calls_set_none hd
    have hok := h.calls j d hd
    exact ⟨hok.pairs,hok.done,hok.sends,
      hok.holds.grown hg le_rfl fun e t hk => hnew j d e t hj hd hk⟩
  emissions i j a b e t u ha hb :=
    h.emissions i j a b e t u (calls_set_none ha).2 (calls_set_none hb).2

theorem emission_notin (h : Inv s) {j : ℕ} {d : Call} (hd : s.calls j = some d) {e : ℕ}
    {t : String} (hk : d.kind = .emission e t) : ∀ x ∈ s.events,x.id ≠ e := by
  have hh := (h.calls j d hd).holds
  rw [hk] at hh
  exact hh.2.1

theorem Inv.finished (h : Inv s) (hc : s.calls id = some c) : Inv (s.finished id c) := by
  have hh := (h.calls id c hc).holds
  have hpass : Inv { s.set id none with events := storeRecords c.tenantId c.out s.events } := by
    rw [storeRecords_eq_map h.unique]
    refine h.remove (h.unique.appendAttempts _) ?_ (grown_map _ _) ?_
    · intro e he
      obtain ⟨x,hx,rfl⟩ := List.mem_map.mp he
      exact h.below x hx
    · intro j d e t _ hd hk x hx
      obtain ⟨y,hy,rfl⟩ := List.mem_map.mp hx
      exact emission_notin h hd hk y hy
  unfold State.finished
  cases hk : c.kind with
  | retry => exact hpass
  | redrive => exact hpass
  | emission eventId trigger =>
      rw [hk] at hh
      obtain ⟨hlt,hnot,-⟩ := hh
      refine h.remove ?_ ?_ (grown_append _ _) ?_
      · unfold EventIdsUnique
        rw [List.map_append,List.nodup_append]
        refine ⟨h.unique,by simp,?_⟩
        intro a ha b hb
        obtain ⟨x,hx,rfl⟩ := List.mem_map.mp ha
        simp only [List.map_cons,List.map_nil,List.mem_singleton] at hb
        exact hb ▸ hnot x hx
      · intro e he
        rcases List.mem_append.mp he with he | he
        · exact h.below e he
        · cases List.mem_singleton.mp he
          exact hlt
      · intro j d e t hj hd hkd x hx
        rcases List.mem_append.mp hx with hx | hx
        · exact emission_notin h hd hkd x hx
        · cases List.mem_singleton.mp hx
          rintro rfl
          exact hj (h.emissions j id d c eventId t trigger hd hc hkd hk)

theorem changeRule_ids {tenantId : String} {ruleId : ℕ} {f : Rule → Rule} {rules : List Rule}
    (hf : ∀ r,(f r).id = r.id) :
    (changeRule tenantId ruleId f rules).map Rule.id = rules.map Rule.id := map_update hf

/-- Other rules with the same ids. -/
theorem Inv.withRules (h : Inv s) {rules : List Rule} {n : ℕ}
    (hr : (rules.map Rule.id).Nodup) (hb : ∀ r ∈ rules,r.id < n) :
    Inv { s with
      rules := rules
      nextRule := n } where
  unique := h.unique
  below := h.below
  rules := hr
  rulesBelow := hb
  fresh := h.fresh
  calls j d hd := ⟨(h.calls j d hd).pairs,(h.calls j d hd).done,(h.calls j d hd).sends,
    (h.calls j d hd).holds⟩
  emissions := h.emissions

theorem Inv.changeRule (h : Inv s) {tenantId : String} {ruleId : ℕ} {f : Rule → Rule}
    (hf : ∀ r,(f r).id = r.id) : Inv { s with rules := changeRule tenantId ruleId f s.rules } := by
  have hids := @changeRule_ids tenantId ruleId f s.rules hf
  refine h.withRules (n := s.nextRule) (hids ▸ h.rules) ?_
  intro r hr
  have hmem : r.id ∈ s.rules.map Rule.id := hids ▸ List.mem_map_of_mem hr
  obtain ⟨q,hq,hid⟩ := List.mem_map.mp hmem
  exact hid ▸ h.rulesBelow q hq

theorem Inv.nextEvent (h : Inv s) : Inv { s with nextEvent := s.nextEvent+1 } where
  unique := h.unique
  below e he := (h.below e he).trans (Nat.lt_succ_self _)
  rules := h.rules
  rulesBelow := h.rulesBelow
  fresh := h.fresh
  calls j d hd := ⟨(h.calls j d hd).pairs,(h.calls j d hd).done,(h.calls j d hd).sends,
    (h.calls j d hd).holds.grown (fun e he => ⟨e,he,rfl,rfl,rfl,List.prefix_refl _⟩)
      (Nat.le_succ _) fun _ _ hk => emission_notin h hd hk⟩
  emissions := h.emissions

theorem callOk_emission (h : Inv s) {tenantId trigger : String} {now : Time}
    {modes : List Channel} : CallOk { s with nextEvent := s.nextEvent+1 }
      (newCall (.emission s.nextEvent trigger) tenantId now modes false
        (emissionItems s tenantId trigger now)) where
  pairs := by
    have hmap : (emissionItems s tenantId trigger now).map Item.pair =
        ((s.rules.filter fun r => r.tenantId == tenantId && r.enabled &&
          r.triggers.contains trigger).map Rule.id).map fun id => (s.nextEvent,id) := by
      conv_rhs => rw [← List.zipIdx_map_fst 0 (s.rules.filter _)]
      simp only [emissionItems,List.map_map]
      rfl
    show ((emissionItems s tenantId trigger now).map Item.pair).Nodup
    rw [hmap]
    refine List.Nodup.map (fun a b hab => (Prod.mk.inj hab).2) ?_
    exact h.rules.sublist (List.filter_sublist.map _)
  done := ⟨[],by simp [newCall],by simp [newCall]⟩
  sends hp := absurd rfl hp
  holds := by
    refine ⟨Nat.lt_succ_self _,fun e he => (h.below e he).ne,?_⟩
    intro x hx
    obtain ⟨row,-,rfl⟩ := List.mem_map.mp hx
    refine ⟨rfl,rfl,?_⟩
    simp only [buildNotificationDeliveryAttempt,deliveryStatusForChannel]
    split <;> simp

theorem stored_of_collect {take : Attempt → Bool} {tenantId : String}
    (hx : x ∈ collectItems take (tenantEvents s tenantId)) :
    Stored s.events tenantId x ∧ take x.attempt = true := by
  obtain ⟨e,he,hid,htr,hl,ht⟩ := mem_collectItems.mp hx
  obtain ⟨he,hten⟩ := List.mem_filter.mp he
  exact ⟨⟨e,he,hid.symm,beq_iff_eq.mp hten,htr.symm,hl.1⟩,ht⟩

theorem nodup_tenantItems (h : Inv s) (take : Attempt → Bool) (tenantId : String) :
    ((collectItems take (tenantEvents s tenantId)).map Item.pair).Nodup :=
  nodup_collectItems (h.unique.sublist (List.filter_sublist.map _))

/-- A pass starts with stored attempts of the right status. -/
theorem callOk_pass (h : Inv s) {kind : Kind} {tenantId : String} {now : Time}
    {modes : List Channel} {dryRun : Bool} {take : Attempt → Bool}
    (hk : kind.Holds s.events s.nextEvent tenantId
      (collectItems take (tenantEvents s tenantId))) :
    CallOk s (newCall kind tenantId now modes dryRun
      (collectItems take (tenantEvents s tenantId))) where
  pairs := nodup_tenantItems h take tenantId
  done := ⟨[],by simp [newCall],by simp [newCall]⟩
  sends hp := absurd rfl hp
  holds := hk

theorem inv_step : Preserved Step Inv := by
  intro s op t h hs
  cases hs with
  | createRule hid _ =>
      refine h.withRules ?_ ?_
      · rw [List.map_append,List.nodup_append]
        refine ⟨h.rules,by simp,?_⟩
        intro a ha b hb
        obtain ⟨r,hr,rfl⟩ := List.mem_map.mp ha
        simp only [List.map_cons,List.map_nil,List.mem_singleton] at hb
        have := h.rulesBelow r hr
        omega
      · intro r hr
        rcases List.mem_append.mp hr with hr | hr
        · exact (h.rulesBelow r hr).trans (Nat.lt_succ_self _)
        · cases List.mem_singleton.mp hr
          omega
  | updateRule => exact h.changeRule fun _ => rfl
  | deleteRule => exact h.changeRule fun _ => rfl
  | emit =>
      refine h.nextEvent.start (callOk_emission h) ?_
      intro j d e t u hd hk hkd
      cases hk
      have hh := (h.calls j d hd).holds
      rw [hkd] at hh
      exact absurd hh.1 (lt_irrefl _)
  | retry =>
      refine h.start (callOk_pass h ?_) (by simp [newCall])
      intro x hx
      obtain ⟨hst,hdue⟩ := stored_of_collect hx
      simp only [isNotificationRetryDue,Bool.and_eq_true,decide_eq_true_eq] at hdue
      exact ⟨hst,hdue.1⟩
  | redrive =>
      refine h.start (callOk_pass h ?_) (by simp [newCall])
      intro x hx
      obtain ⟨hst,hdlq⟩ := stored_of_collect hx
      simp only [Bool.and_eq_true,decide_eq_true_eq] at hdlq
      exact ⟨hst,hdlq.1.1⟩
  | skip hat _ _ =>
      obtain ⟨record,heq,hr⟩ := Call.skipped_cases _ _ _
      rw [heq]
      exact h.set hat.1 rfl ((h.calls _ _ hat.1).settled hat.2 hr)
  | read hat _ _ _ =>
      rcases Call.afterRead_cases _ _ _ _ _ with ⟨record,heq,hr⟩ | ⟨heq,hd,-⟩
      · rw [heq]
        exact h.set hat.1 rfl ((h.calls _ _ hat.1).settled hat.2 hr)
      · rw [heq]
        exact h.set hat.1 rfl ((h.calls _ _ hat.1).phase hd)
  | send hat hp _ =>
      have hok := h.calls _ _ hat.1
      exact h.set hat.1 rfl (hok.phase (hok.sends (by simp [hp])))
  | unsent hat _ _ =>
      exact h.set hat.1 rfl ((h.calls _ _ hat.1).settled hat.2 (by simp [Call.record_ruleId]))
  | answered hat _ _ =>
      exact h.set hat.1 rfl ((h.calls _ _ hat.1).settled hat.2 (by simp [Call.record_ruleId]))
  | finish hc _ => exact h.finished hc

end

/-- A retry pass that sends starts only when no other one in flight holds an attempt of its
list. -/
def Exclusive (s : State) : Op → Prop
  | .retry tenantId asOf _ _ false => ∀ id c,s.calls id = some c → c.kind = .retry →
      c.dryRun = false → ∀ x ∈ dueItems s tenantId asOf,x ∉ c.held
  | _ => True

def ExclusiveStep (s : State) (op : Op) (t : State) : Prop := Exclusive s op ∧ Step s op t

/-- The call that moves. -/
def Op.call : Op → Option ℕ
  | .skip id _ => some id
  | .read id _ _ => some id
  | .send id _ => some id
  | .settle id _ => some id
  | .finish id => some id
  | _ => none

/-- The call and the item of a send. -/
def Op.sent : Op → Option (ℕ × Item)
  | .send id x => some (id,x)
  | _ => none

/-- The op is a send for the item. -/
def Op.isSend (x : Item) (op : Op) : Bool := op.sent.any fun row => row.2 == x

/-- Passes in flight that send have no attempt in common. -/
def Apart (s : State) : Prop :=
  ∀ i j c d,i ≠ j → s.calls i = some c → s.calls j = some d → c.kind = .retry → d.kind = .retry →
    c.dryRun = false → d.dryRun = false → ∀ x ∈ c.held,x ∉ d.held

section
variable {s t : State} {id : ℕ} {c d : Call} {x : Item} {rest : List Item}

/-- One call moves on with its first item: it settles it, clears it or sends it. -/
inductive Move (s : State) (id : ℕ) (c : Call) (x : Item) (rest : List Item) : Op → Call → Prop
  | settled {op : Op} {record : Option Attempt} :
      op.sent = none → (∀ r ∈ record,r.ruleId = x.attempt.ruleId) →
      (∀ rule,c.phase = .sending rule → record.isSome = true) →
      Move s id c x rest op (c.settled x rest record)
  | cleared {rule : Option Rule} : c.phase = .ready → c.dryRun = false →
      rule = resolveRule s.rules c.tenantId x.attempt.ruleId →
      (evaluateNotificationRuleDeliveryGate rule x.trigger = .deliver ∨
        evaluateNotificationRuleDeliveryGate rule x.trigger = .unknown) →
      Move s id c x rest (.read id x rule) { c with phase := .cleared rule }
  | sent {rule : Option Rule} : c.phase = .cleared rule → c.outbound x rule = true →
      Move s id c x rest (.send id x) { c with phase := .sending rule }

/-- What a new call holds. -/
inductive Started (s : State) (c : Call) : Op → Prop
  | emission {tenantId trigger : String} {now : Time} {modes : List Channel} :
      c.kind = .emission s.nextEvent trigger → c.held = emissionItems s tenantId trigger now →
      Started s c (.emit tenantId trigger now modes)
  | retry {tenantId : String} {asOf now : Time} {modes : List Channel} : c.kind = .retry →
      c.held = dueItems s tenantId asOf → Started s c (.retry tenantId asOf now modes c.dryRun)
  | redrive {tenantId : String} {attemptIds : Option (List AttemptId)} {ruleId : Option ℕ}
      {now : Time} {modes : List Channel} {dryRun : Bool} : c.kind = .redrive →
      c.held = collectDlqNotificationAttempts (tenantEvents s tenantId) attemptIds ruleId →
      Started s c (.redrive tenantId attemptIds ruleId now modes dryRun)

/-- What a step does to calls and events. -/
inductive Effect (s : State) (op : Op) (t : State) : Prop
  | rules : op.call = none → t.calls = s.calls → t.events = s.events → Effect s op t
  | start (c : Call) : op.call = none → c.todo = c.held → c.phase = .ready → Started s c op →
      t.calls = Function.update s.calls s.nextCall (some c) → t.events = s.events → Effect s op t
  | move (id : ℕ) (c d : Call) (x : Item) (rest : List Item) : op.call = some id →
      s.At id c x rest → Move s id c x rest op d →
      t.calls = Function.update s.calls id (some d) → t.events = s.events → Effect s op t
  | finish (id : ℕ) (c : Call) : op = .finish id → s.calls id = some c → c.todo = [] →
      t = s.finished id c → Effect s op t

theorem step_effect {op : Op} (hs : Step s op t) : Effect s op t := by
  cases hs with
  | createRule => exact .rules rfl rfl rfl
  | updateRule => exact .rules rfl rfl rfl
  | deleteRule => exact .rules rfl rfl rfl
  | emit => exact .start _ rfl rfl rfl (.emission rfl rfl) rfl rfl
  | retry => exact .start _ rfl rfl rfl (.retry rfl rfl) rfl rfl
  | redrive => exact .start _ rfl rfl rfl (.redrive rfl rfl) rfl rfl
  | skip hat hp _ =>
      obtain ⟨record,heq,hr⟩ := Call.skipped_cases _ _ _
      refine .move _ _ _ _ _ rfl hat (.settled rfl hr (by simp [hp])) ?_ rfl
      rw [heq]
      rfl
  | read hat hp _ hrule =>
      rcases Call.afterRead_cases _ _ _ _ _ with ⟨record,heq,hr⟩ | ⟨heq,hd,hg⟩
      · refine .move _ _ _ _ _ rfl hat (.settled rfl hr (by simp [hp])) ?_ rfl
        rw [heq]
        rfl
      · refine .move _ _ _ _ _ rfl hat (.cleared hp hd hrule hg) ?_ rfl
        rw [heq]
        rfl
  | send hat hp ho => exact .move _ _ _ _ _ rfl hat (.sent hp ho) rfl rfl
  | unsent hat hp _ =>
      exact .move _ _ _ _ _ rfl hat (.settled rfl (by simp [Call.record_ruleId]) (by simp [hp]))
        rfl rfl
  | answered hat _ _ =>
      exact .move _ _ _ _ _ rfl hat (.settled rfl (by simp [Call.record_ruleId]) (by simp)) rfl rfl
  | finish hc ht => exact .finish _ _ rfl hc ht rfl

/-- A call keeps what it is and what it holds. -/
theorem Move.kept {op : Op} (h : Move s id c x rest op d) :
    d.kind = c.kind ∧ d.tenantId = c.tenantId ∧ d.dryRun = c.dryRun ∧ d.held = c.held := by
  cases h with
  | settled => exact ⟨rfl,rfl,rfl,rfl⟩
  | cleared => exact ⟨rfl,rfl,rfl,rfl⟩
  | sent => exact ⟨rfl,rfl,rfl,rfl⟩

theorem calls_update {calls : ℕ → Option Call} {j : ℕ} {e : Call}
    (he : Function.update calls id (some d) j = some e) :
    (j = id ∧ e = d) ∨ (j ≠ id ∧ calls j = some e) := by
  by_cases hj : j = id
  · subst hj
    rw [Function.update_self,Option.some.injEq] at he
    exact Or.inl ⟨rfl,he.symm⟩
  · rw [Function.update_of_ne hj] at he
    exact Or.inr ⟨hj,he⟩

theorem finished_calls {j : ℕ} {e : Call} (he : (s.finished id c).calls j = some e) :
    j ≠ id ∧ s.calls j = some e := by
  unfold State.finished at he
  split at he
  · exact calls_set_none he
  · exact calls_set_none he

/-- Each call after a step was there before, with what it holds, or is the one new call. -/
theorem Effect.calls {op : Op} (h : Effect s op t) {j : ℕ} {e : Call} (he : t.calls j = some e) :
    (∃ c,s.calls j = some c ∧ e.kind = c.kind ∧ e.tenantId = c.tenantId ∧
      e.dryRun = c.dryRun ∧ e.held = c.held) ∨
    (j = s.nextCall ∧ Started s e op ∧
      ∀ k f,t.calls k = some f → k ≠ j → s.calls k = some f) := by
  cases h with
  | rules _ hcalls _ =>
      rw [hcalls] at he
      exact Or.inl ⟨e,he,rfl,rfl,rfl,rfl⟩
  | start c _ _ _ hst hcalls _ =>
      rw [hcalls] at he
      rcases calls_update he with ⟨rfl,rfl⟩ | ⟨-,he⟩
      · refine Or.inr ⟨rfl,hst,?_⟩
        intro k f hf hk
        rw [hcalls] at hf
        rcases calls_update hf with ⟨rfl,-⟩ | ⟨-,hf⟩
        · exact absurd rfl hk
        · exact hf
      · exact Or.inl ⟨e,he,rfl,rfl,rfl,rfl⟩
  | move id c d x rest _ hat hm hcalls _ =>
      rw [hcalls] at he
      rcases calls_update he with ⟨rfl,rfl⟩ | ⟨-,he⟩
      · exact Or.inl ⟨c,hat.1,hm.kept⟩
      · exact Or.inl ⟨e,he,rfl,rfl,rfl,rfl⟩
  | finish id c _ _ _ ht =>
      rw [ht] at he
      exact Or.inl ⟨e,(finished_calls he).2,rfl,rfl,rfl,rfl⟩

theorem Started.due {op : Op} (h : Started s c op) (hk : c.kind = .retry) :
    ∃ tenantId asOf now modes,
      op = .retry tenantId asOf now modes c.dryRun ∧ c.held = dueItems s tenantId asOf := by
  cases h with
  | emission hk' _ => rw [hk] at hk'; cases hk'
  | retry _ hheld => exact ⟨_,_,_,_,rfl,hheld⟩
  | redrive hk' _ => rw [hk] at hk'; cases hk'

theorem apart_step {op : Op} (h : Apart s) (hx : Exclusive s op) (hs : Step s op t) :
    Apart t := by
  have heff := step_effect hs
  have hnew : ∀ i c d,s.calls i = some c → c.kind = .retry → d.kind = .retry →
      c.dryRun = false → d.dryRun = false → Started s d op → ∀ x ∈ c.held,x ∉ d.held := by
    intro i c d hci hkc hkd hdc hdd hst x hxc hxd
    obtain ⟨tenantId,asOf,now,modes,rfl,hheld⟩ := hst.due hkd
    rw [hdd] at hx
    rw [hheld] at hxd
    exact hx i c hci hkc hdc x hxd hxc
  intro i j c d hij hc hd hkc hkd hdc hdd x hxc hxd
  rcases heff.calls hc with ⟨c',hc',hk,-,hdry,hheld⟩ | ⟨-,hst,hold⟩
  · rcases heff.calls hd with ⟨d',hd',hk',-,hdry',hheld'⟩ | ⟨-,hst,hold⟩
    · exact h i j c' d' hij hc' hd' (hk ▸ hkc) (hk' ▸ hkd) (hdry ▸ hdc) (hdry' ▸ hdd) x
        (hheld ▸ hxc) (hheld' ▸ hxd)
    · exact hnew i c d (hold i c hc hij) hkc hkd hdc hdd hst x hxc hxd
  · exact hnew j d c (hold j d hd hij.symm) hkd hkc hdd hdc hst x hxd hxc

/-- A later attempt of the same event and rule is stored. -/
def Superseded (s : State) (x : Item) : Prop :=
  ∃ e ∈ s.events,e.id = x.eventId ∧
    ∃ j a,x.index < j ∧ e.deliveryAttempts[j]? = some a ∧ a.ruleId = x.attempt.ruleId

/-- A pass in flight has the item before it or has its record. -/
def Owned (s : State) (x : Item) : Prop :=
  ∃ id c,s.calls id = some c ∧ c.kind = .retry ∧ c.dryRun = false ∧ x ∈ c.held ∧
    (x ∈ c.todo ∨ ∃ row ∈ c.out,rowPair row = x.pair)

/-- The item was sent: where a call still has it, the call waits for the answer. -/
structure Sent (x : Item) (s : State) : Prop where
  waiting : ∀ id c,s.calls id = some c → c.dryRun = false → x ∈ c.todo →
    ∃ rest rule,c.todo = x::rest ∧ c.phase = .sending rule
  kept : Superseded s x ∨ Owned s x

theorem Superseded.grown {events : List Event} (h : Superseded s x)
    (hg : Grown s.events events) (ht : t.events = events) : Superseded t x := by
  obtain ⟨e,he,hid,j,a,hj,ha,hr⟩ := h
  obtain ⟨e',he',hid',-,-,more,hmore⟩ := hg e he
  refine ⟨e',ht ▸ he',hid'.trans hid,j,a,hj,?_,hr⟩
  rw [← hmore,List.getElem?_append_left (List.getElem?_eq_some_iff.mp ha).1]
  exact ha

theorem grown_finished (h : Inv s) : Grown s.events (s.finished id c).events := by
  unfold State.finished
  split
  · exact grown_append _ _
  · show Grown s.events (storeRecords c.tenantId c.out s.events)
    rw [storeRecords_eq_map h.unique]
    exact grown_map _ _

/-- The end of a pass supersedes the items that have a record. -/
theorem superseded_of_finished (h : Inv s) (hc : s.calls id = some c) (hk : c.kind = .retry)
    (hx : x ∈ c.held) {row : ℕ × Attempt} (hr : row ∈ c.out) (hp : rowPair row = x.pair) :
    Superseded (s.finished id c) x := by
  have hh := (h.calls id c hc).holds
  rw [hk] at hh
  obtain ⟨⟨e,he,hid,hten,-,hat⟩,-⟩ := hh x hx
  have hlt : x.index < e.deliveryAttempts.length := (List.getElem?_eq_some_iff.mp hat).1
  have hev : (s.finished id c).events = storeRecords c.tenantId c.out s.events := by
    unfold State.finished
    rw [hk]
  have hmem : row.2 ∈ (c.out.filter fun row => isEvent c.tenantId row.1 e).map Prod.snd := by
    refine List.mem_map_of_mem (List.mem_filter.mpr ⟨hr,?_⟩)
    have hrow : row.1 = x.eventId := congrArg Prod.fst hp
    simp [isEvent,hrow,hid,hten]
  obtain ⟨j,hj⟩ := List.getElem?_of_mem hmem
  rw [storeRecords_eq_map h.unique] at hev
  rw [Superseded,hev]
  refine ⟨_,List.mem_map_of_mem he,hid,e.deliveryAttempts.length+j,row.2,by omega,?_,
    congrArg Prod.snd hp⟩
  show (e.deliveryAttempts++_)[_]? = _
  rw [List.getElem?_append_right (by omega)]
  simpa using hj

/-- Only retry passes hold an attempt that is scheduled. -/
theorem retry_of_held (h : Inv s) (hc : s.calls id = some c) (hx : x ∈ c.held)
    (hopen : x.attempt.status = .providerRetryScheduled) : c.kind = .retry := by
  have hh := (h.calls id c hc).holds
  cases hk : c.kind with
  | retry => rfl
  | emission e t =>
      rw [hk] at hh
      exact absurd hopen (hh.2.2 x hx).2.2
  | redrive =>
      rw [hk] at hh
      have hdlq := (hh x hx).2
      rw [hopen] at hdlq
      cases hdlq

theorem mem_held (h : Inv s) (hc : s.calls id = some c) (hx : x ∈ c.todo) : x ∈ c.held := by
  obtain ⟨done,hheld,-⟩ := (h.calls id c hc).done
  rw [hheld]
  exact List.mem_append_right _ hx

theorem notin_rest (h : Inv s) (hat : s.At id c x rest) : x ∉ rest := by
  intro hx
  obtain ⟨done,hheld,-⟩ := (h.calls id c hat.1).done
  have hnodup := (h.calls id c hat.1).pairs
  rw [hheld,hat.2,List.map_append,List.nodup_append] at hnodup
  exact (List.nodup_cons.mp hnodup.2.1).1 (List.mem_map_of_mem hx)

/-- A superseded attempt is not collected. -/
theorem notin_due (h : Inv s) (hsup : Superseded s x) (tenantId : String) (asOf : Time) :
    x ∉ dueItems s tenantId asOf := by
  intro hx
  obtain ⟨e,he,hid,-,hl,-⟩ := mem_collectItems.mp hx
  obtain ⟨e',he',hid',j,a,hj,ha,hr⟩ := hsup
  cases unique_event h.unique (List.mem_of_mem_filter he) he' (hid.symm.trans hid'.symm)
  exact hl.2 j a hj ha hr

/-- While a call works, a sent item stays sent. -/
theorem Sent.move (h : Inv s) (hx : Sent x s) {y : Item} {op : Op} (hat : s.At id c y rest)
    (hm : Move s id c y rest op d) (hcalls : t.calls = Function.update s.calls id (some d))
    (hev : t.events = s.events) : Sent x t := by
  -- Where the call has the item, it waits for the answer: only its settlement can follow.
  have hhead : c.dryRun = false → x ∈ c.todo → y = x ∧ ∃ rule,c.phase = .sending rule := by
    intro hd hmem
    obtain ⟨rest',rule,htodo,hp⟩ := hx.waiting id c hat.1 hd hmem
    rw [hat.2] at htodo
    exact ⟨(List.cons.inj htodo).1,rule,hp⟩
  constructor
  · intro j e he hd hmem
    rw [hcalls] at he
    rcases calls_update he with ⟨rfl,rfl⟩ | ⟨-,he⟩
    · rw [hm.kept.2.2.1] at hd
      cases hm with
      | settled _ _ _ =>
          have hmem : x ∈ rest := hmem
          obtain ⟨rfl,-⟩ := hhead hd (hat.2 ▸ List.mem_cons_of_mem _ hmem)
          exact absurd hmem (notin_rest h hat)
      | cleared hp _ _ _ =>
          obtain ⟨-,rule,hp'⟩ := hhead hd hmem
          rw [hp] at hp'
          cases hp'
      | sent hp _ =>
          obtain ⟨-,rule,hp'⟩ := hhead hd hmem
          rw [hp] at hp'
          cases hp'
    · exact hx.waiting j e he hd hmem
  · rcases hx.kept with hsup | ⟨j,e,he,hk,hd,hheld,hor⟩
    · exact Or.inl (hsup.grown (fun e he => ⟨e,he,rfl,rfl,rfl,List.prefix_refl _⟩) hev)
    · refine Or.inr ?_
      by_cases hj : j = id
      · subst hj
        cases hat.1.symm.trans he
        refine ⟨j,d,by rw [hcalls,Function.update_self],hm.kept.1 ▸ hk,hm.kept.2.2.1 ▸ hd,
          hm.kept.2.2.2 ▸ hheld,?_⟩
        cases hm with
        | settled _ hr hsome =>
            rcases hor with hmem | ⟨row,hrow,hp⟩
            · obtain ⟨rfl,rule,hp⟩ := hhead hd hmem
              obtain ⟨r,hrec⟩ := Option.isSome_iff_exists.mp (hsome rule hp)
              refine Or.inr ⟨(y.eventId,r),?_,by simp [rowPair,Item.pair,hr r hrec]⟩
              simp [Call.settled,hrec]
            · exact Or.inr ⟨row,List.mem_append_left _ hrow,hp⟩
        | cleared _ _ _ _ => exact hor
        | sent _ _ => exact hor
      · exact ⟨j,e,by rw [hcalls,Function.update_of_ne hj]; exact he,hk,hd,hheld,hor⟩

theorem Owned.same (h : Owned s x) (hcalls : ∀ j e,s.calls j = some e → t.calls j = some e) :
    Owned t x := by
  obtain ⟨j,e,he,hrest⟩ := h
  exact ⟨j,e,hcalls j e he,hrest⟩

/-- A sent item stays sent, whatever happens under the condition on passes. -/
theorem sent_step {op : Op} (h : Inv s) (hopen : x.attempt.status = .providerRetryScheduled)
    (hx : Sent x s) (hex : Exclusive s op) (hs : Step s op t) : Sent x t := by
  have hinv : Inv t := inv_step _ _ _ h hs
  have hgrown : s.events = t.events → Superseded s x → Superseded t x := by
    intro hev hsup
    exact hsup.grown (fun e he => ⟨e,he,rfl,rfl,rfl,List.prefix_refl _⟩) hev.symm
  cases step_effect hs with
  | rules _ hcalls hev =>
      constructor
      · rw [hcalls]
        exact hx.waiting
      · rcases hx.kept with hsup | hown
        · exact Or.inl (hgrown hev.symm hsup)
        · exact Or.inr (hown.same fun j e he => hcalls ▸ he)
  | start c _ htodo _ hst hcalls hev =>
      have hself : t.calls s.nextCall = some c := by rw [hcalls,Function.update_self]
      constructor
      · intro j e he hd hmem
        rw [hcalls] at he
        rcases calls_update he with ⟨rfl,rfl⟩ | ⟨-,he⟩
        · -- The new pass would have to hold the item.
          rw [htodo] at hmem
          obtain ⟨tenantId,asOf,now,modes,rfl,hheld⟩ :=
            hst.due (retry_of_held hinv hself hmem hopen)
          rw [hd] at hex
          rw [hheld] at hmem
          rcases hx.kept with hsup | ⟨k,f,hf,hk,hdf,hxf,-⟩
          · exact absurd hmem (notin_due h hsup tenantId asOf)
          · exact absurd hxf (hex k f hf hk hdf x hmem)
        · exact hx.waiting j e he hd hmem
      · rcases hx.kept with hsup | hown
        · exact Or.inl (hgrown hev.symm hsup)
        · refine Or.inr (hown.same fun j e he => ?_)
          have hj : j ≠ s.nextCall := by
            rintro rfl
            rw [h.fresh _ le_rfl] at he
            cases he
          rw [hcalls,Function.update_of_ne hj]
          exact he
  | move id c d y rest _ hat hm hcalls hev => exact hx.move h hat hm hcalls hev
  | finish id c _ hc htodo ht =>
      subst ht
      constructor
      · intro j e he hd hmem
        exact hx.waiting j e (finished_calls he).2 hd hmem
      · rcases hx.kept with hsup | ⟨j,e,he,hk,hd,hheld,hor⟩
        · exact Or.inl (hsup.grown (grown_finished h) rfl)
        · by_cases hj : j = id
          · subst hj
            cases hc.symm.trans he
            rcases hor with hmem | ⟨row,hrow,hp⟩
            · rw [htodo] at hmem
              cases hmem
            · exact Or.inl (superseded_of_finished h hc hk hheld hrow hp)
          · refine Or.inr ⟨j,e,?_,hk,hd,hheld,hor⟩
            have hother : ∀ u : State,(u.set id none).calls j = u.calls j := by
              intro u
              simp [State.set,hj]
            unfold State.finished
            split
            · exact (hother s).trans he
            · exact (hother s).trans he

/-- The send of an item makes it sent. -/
theorem sent_of_send {op : Op} (h : Inv s) (ha : Apart s)
    (hopen : x.attempt.status = .providerRetryScheduled) (hs : Step s op t)
    (hop : op.isSend x = true) : Sent x t := by
  have hcase : ∃ id,op.sent = some (id,x) := by
    unfold Op.isSend at hop
    cases hsent : op.sent with
    | none => simp [hsent] at hop
    | some row =>
        rw [hsent] at hop
        have hrow : row.2 = x := by simpa using hop
        exact ⟨row.1,by rw [← hrow]⟩
  obtain ⟨id',hsent⟩ := hcase
  have hcall : op.call = some id' := by
    cases op <;> simp_all [Op.sent,Op.call]
  cases step_effect hs with
  | rules hno _ _ => rw [hno] at hcall; cases hcall
  | start _ hno _ _ _ _ _ => rw [hno] at hcall; cases hcall
  | finish _ _ hno _ _ _ => subst hno; cases hsent
  | move id c d y rest _ hat hm hcalls hev =>
      cases hm with
      | settled hno _ _ => rw [hno] at hsent; cases hsent
      | cleared _ _ _ _ => cases hsent
      | @sent rule hp _ =>
          cases hsent
          have htodo : x ∈ c.todo := by rw [hat.2]; simp
          have hmem := mem_held h hat.1 htodo
          have hk := retry_of_held h hat.1 hmem hopen
          have hd := (h.calls id' c hat.1).sends (by simp [hp])
          constructor
          · intro j e he hde hxe
            rw [hcalls] at he
            rcases calls_update he with ⟨rfl,rfl⟩ | ⟨hj,he⟩
            · exact ⟨rest,_,hat.2,rfl⟩
            · have hmem' := mem_held h he hxe
              exact absurd hmem' (ha id' j c e hj.symm hat.1 he hk
                (retry_of_held h he hmem' hopen) hd hde x hmem)
          · refine Or.inr ⟨id',{ c with phase := .sending rule },?_,hk,hd,hmem,Or.inl htodo⟩
            rw [hcalls,Function.update_self]

theorem not_send_of_sent {op : Op} (h : Inv s) (hx : Sent x s) (hs : Step s op t) :
    ¬ op.isSend x = true := by
  intro hop
  cases hs with
  | @send id c y rest rule hat hp _ =>
      obtain rfl : y = x := by simpa [Op.isSend,Op.sent] using hop
      have hd := (h.calls _ _ hat.1).sends (by simp [hp])
      obtain ⟨rest',rule,-,hp'⟩ := hx.waiting _ _ hat.1 hd (by rw [hat.2]; simp)
      rw [hp] at hp'
      cases hp'
  | _ => simp [Op.isSend,Op.sent] at hop

end

/-- A store with no call in flight. -/
structure Idle (s : State) : Prop where
  unique : EventIdsUnique s.events
  below : ∀ e ∈ s.events,e.id < s.nextEvent
  rules : (s.rules.map Rule.id).Nodup
  rulesBelow : ∀ r ∈ s.rules,r.id < s.nextRule
  calls : ∀ id,s.calls id = none

theorem Idle.inv {s : State} (h : Idle s) : Inv s where
  unique := h.unique
  below := h.below
  rules := h.rules
  rulesBelow := h.rulesBelow
  fresh _ _ := h.calls _
  calls id c hc := by
    rw [h.calls id] at hc
    cases hc
  emissions i _ _ _ _ _ _ hc := by
    rw [h.calls i] at hc
    cases hc

/-- In runs where no pass starts on attempts that another one holds, each due attempt is
sent at most once. -/
theorem due_attempt_sent_at_most_once {s t : State} {h : List Op} (hs : Idle s)
    (hr : Run ExclusiveStep s h t) (x : Item)
    (hx : x.attempt.status = .providerRetryScheduled) :
    (h.filter fun op => op.isSend x).length ≤ 1 := by
  have hI : Preserved ExclusiveStep fun s => Inv s ∧ Apart s := by
    rintro s op t ⟨hi,ha⟩ ⟨hex,hstep⟩
    exact ⟨inv_step _ _ _ hi hstep,apart_step ha hex hstep⟩
  have hB : Silences ExclusiveStep (fun s => Inv s ∧ Apart s) (fun op => op.isSend x = true)
      (Sent x) := by
    constructor
    · rintro s op t ⟨hi,-⟩ hb ⟨hex,hstep⟩
      exact sent_step hi hx hb hex hstep
    · rintro s op t ⟨hi,-⟩ hb ⟨-,hstep⟩
      exact not_send_of_sent hi hb hstep
  have hstart : Inv s ∧ Apart s := by
    refine ⟨hs.inv,?_⟩
    intro i _ _ _ _ hc
    rw [hs.calls i] at hc
    cases hc
  have honce := hB.at_most_once hI
    (fun s op t hi hstep hop => sent_of_send hi.1 hi.2 hx hstep.2 hop) hstart hr
  simpa using honce

def dueRule : Rule :=
  ⟨0,"ten_a",.webhook,"https://hooks.example.com/a",["report.ready"],true,none,reportReady_known⟩

def dueAttempt : Attempt :=
  ⟨.initial 0 0,0,.webhook,.providerRetryScheduled,"timeout",0,some 0,some 1,some 3,some 60000,
    some "timeout",some false⟩

def dueItem : Item := ⟨0,"report.ready",0,dueAttempt⟩

/-- A store with one event whose delivery is due for a retry. -/
def dueStore : State :=
  ⟨[dueRule],[⟨0,"ten_a","report.ready",[dueAttempt]⟩],fun _ => none,1,1,0⟩

def startPass : Op := .retry "ten_a" 60000 60000 [.webhook] false

def duePass : State := processDueNotificationRetries dueStore "ten_a" 60000 60000 [.webhook] false

theorem idle_dueStore : Idle dueStore where
  unique := by simp [EventIdsUnique,dueStore]
  below := by simp [dueStore]
  rules := by simp [dueStore]
  rulesBelow := by simp [dueStore,dueRule]
  calls _ := rfl

theorem single_pass_sends_once :
    ([startPass,.read 0 dueItem (some dueRule),.send 0 dueItem].filter fun op =>
      op.isSend dueItem).length ≤ 1 := by
  have hrun : ∃ t,Run ExclusiveStep dueStore
      [startPass,.read 0 dueItem (some dueRule),.send 0 dueItem] t := by
    apply Exists.intro
    apply Run.cons
    · constructor
      · intro id c hc
        cases hc
      · exact .retry
    apply Run.cons
    · exact ⟨trivial,@Step.read duePass 0 _ _ _ _ (.next 1) ⟨rfl,rfl⟩ rfl rfl rfl⟩
    apply Run.cons
    · exact ⟨trivial,.send ⟨rfl,rfl⟩ rfl rfl⟩
    exact .start
  obtain ⟨t,hrun⟩ := hrun
  exact due_attempt_sent_at_most_once idle_dueStore hrun dueItem rfl

/-- Two passes that overlap send the same attempt. -/
theorem overlapping_passes_send_twice :
    Idle dueStore ∧ dueItem.attempt.status = .providerRetryScheduled ∧
    ∃ t,Run Step dueStore [startPass,startPass,.read 0 dueItem (some dueRule),.send 0 dueItem,
      .read 1 dueItem (some dueRule),.send 1 dueItem] t := by
  refine ⟨idle_dueStore,rfl,?_⟩
  apply Exists.intro
  apply Run.cons .retry
  apply Run.cons .retry
  apply Run.cons
  · exact @Step.read _ 0 _ _ _ _ (.next 1) ⟨rfl,rfl⟩ rfl rfl rfl
  apply Run.cons
  · exact .send ⟨rfl,rfl⟩ rfl rfl
  apply Run.cons
  · exact @Step.read _ 1 _ _ _ _ (.next 2) ⟨rfl,rfl⟩ rfl rfl rfl
  apply Run.cons
  · exact .send ⟨rfl,rfl⟩ rfl rfl
  exact .start

end AstraNull.NotificationPasses
