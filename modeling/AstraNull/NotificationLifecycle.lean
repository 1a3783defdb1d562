import Mathlib
import AstraNull.Runs
import AstraNull.NotificationPasses

/-!
# The lifecycle of rules and the sends

Passes that do not overlap, with emissions and changes of the rules in between at any await.
Each send follows a read of its rule that allowed it, and a cancellation that is recorded
for an event and a rule is the last thing that happens to the pair.
-/
namespace AstraNull.NotificationLifecycle
open NotificationDelivery NotificationPasses Runs

def Call.isPass (c : Call) : Prop := c.kind = .retry ∨ c.kind = .redrive

/-- A pass starts only when none is in flight. -/
def Separate (s : State) : Op → Prop
  | .retry _ _ _ _ _ => ∀ id c,s.calls id = some c → ¬ Call.isPass c
  | .redrive _ _ _ _ _ _ => ∀ id c,s.calls id = some c → ¬ Call.isPass c
  | _ => True

def SeparateStep (s : State) (op : Op) (t : State) : Prop := Separate s op ∧ Step s op t

/-- Nothing of a rule follows its cancellation. -/
def Closed (attempts : List Attempt) : Prop :=
  attempts.Pairwise fun a b => a.status.isCancelled = true → b.ruleId ≠ a.ruleId

theorem Closed.latest {attempts : List Attempt} (h : Closed attempts) {i : ℕ} {a b : Attempt}
    (hl : IsLatest attempts i a) (ha : a.status.isCancelled = false) (hb : b ∈ attempts)
    (hc : b.status.isCancelled = true) : a.ruleId ≠ b.ruleId := by
  obtain ⟨j,hj⟩ := List.getElem?_of_mem hb
  obtain ⟨hi,hia⟩ := List.getElem?_eq_some_iff.mp hl.1
  obtain ⟨hj',hjb⟩ := List.getElem?_eq_some_iff.mp hj
  rcases lt_trichotomy j i with hlt | rfl | hlt
  · have hp := List.pairwise_iff_getElem.mp h j i hj' hi hlt
    rw [hia,hjb] at hp
    exact hp hc
  · rw [hia] at hjb
    subst hjb
    rw [ha] at hc
    cases hc
  · exact (hl.2 j b hlt hj).symm

theorem closed_of_nodup {records : List Attempt} (hnodup : (records.map Attempt.ruleId).Nodup) :
    Closed records := by
  refine (List.pairwise_map.mp hnodup).imp ?_
  intro a b hne _
  exact hne.symm

theorem Closed.append {attempts records : List Attempt} (h : Closed attempts)
    (hnodup : (records.map Attempt.ruleId).Nodup)
    (hlast : ∀ r ∈ records,∃ i a,IsLatest attempts i a ∧ a.ruleId = r.ruleId ∧
      a.status.isCancelled = false) : Closed (attempts++records) := by
  refine List.pairwise_append.mpr ⟨h,closed_of_nodup hnodup,?_⟩
  intro a ha r hr hc
  obtain ⟨i,b,hl,hrule,hb⟩ := hlast r hr
  exact hrule ▸ h.latest hl hb ha hc

structure Gated (s : State) : Prop where
  inv : Inv s
  single : ∀ i j c d,s.calls i = some c → s.calls j = some d → Call.isPass c → Call.isPass d →
    i = j
  latest : ∀ id c,s.calls id = some c → Call.isPass c → ∀ x ∈ c.held,∀ e ∈ s.events,
    e.id = x.eventId → IsLatest e.deliveryAttempts x.index x.attempt
  closed : ∀ e ∈ s.events,Closed e.deliveryAttempts
  triggers : ∀ e ∈ s.events,e.deliveryAttempts ≠ [] → e.trigger ≠ ""
  items : ∀ id c,s.calls id = some c → ∀ x ∈ c.held,x.trigger ≠ ""

section
variable {s t : State} {op : Op}

/-- Steps that leave the events alone and add no call. -/
theorem Gated.same (h : Gated s) (hinv : Inv t) (hev : t.events = s.events)
    (hcalls : ∀ j e,t.calls j = some e → ∃ c,s.calls j = some c ∧ e.kind = c.kind ∧
      e.held = c.held) : Gated t where
  inv := hinv
  single i j c d hc hd hpc hpd := by
    obtain ⟨c',hc',hkc,-⟩ := hcalls i c hc
    obtain ⟨d',hd',hkd,-⟩ := hcalls j d hd
    unfold Call.isPass at hpc hpd
    rw [hkc] at hpc
    rw [hkd] at hpd
    exact h.single i j c' d' hc' hd' hpc hpd
  latest id c hc hp x hx e he hid := by
    obtain ⟨c',hc',hk,hheld⟩ := hcalls id c hc
    unfold Call.isPass at hp
    rw [hk] at hp
    exact h.latest id c' hc' hp x (hheld ▸ hx) e (hev ▸ he) hid
  closed e he := h.closed e (hev ▸ he)
  triggers e he := h.triggers e (hev ▸ he)
  items id c hc x hx := by
    obtain ⟨c',hc',-,hheld⟩ := hcalls id c hc
    exact h.items id c' hc' x (hheld ▸ hx)

/-- A new call. -/
theorem Gated.start (h : Gated s) (hinv : Inv t) {c : Call}
    (hcalls : t.calls = Function.update s.calls s.nextCall (some c)) (hev : t.events = s.events)
    (hsingle : Call.isPass c → ∀ id d,s.calls id = some d → ¬ Call.isPass d)
    (hlatest : Call.isPass c → ∀ x ∈ c.held,∀ e ∈ s.events,e.id = x.eventId →
      IsLatest e.deliveryAttempts x.index x.attempt)
    (hitems : ∀ x ∈ c.held,x.trigger ≠ "") : Gated t where
  inv := hinv
  single i j a b ha hb hpa hpb := by
    rw [hcalls] at ha hb
    rcases calls_update ha with ⟨hi,rfl⟩ | ⟨-,hold⟩
    · rcases calls_update hb with ⟨hj,-⟩ | ⟨-,hold⟩
      · exact hi.trans hj.symm
      · exact absurd hpb (hsingle hpa j b hold)
    · rcases calls_update hb with ⟨-,heq⟩ | ⟨-,hold'⟩
      · exact absurd hpa (hsingle (heq ▸ hpb) i a hold)
      · exact h.single i j a b hold hold' hpa hpb
  latest id d hd hp x hx e he hid := by
    rw [hcalls] at hd
    rw [hev] at he
    rcases calls_update hd with ⟨-,rfl⟩ | ⟨-,hd⟩
    · exact hlatest hp x hx e he hid
    · exact h.latest id d hd hp x hx e he hid
  closed e he := h.closed e (hev ▸ he)
  triggers e he := h.triggers e (hev ▸ he)
  items id d hd := by
    rw [hcalls] at hd
    rcases calls_update hd with ⟨-,rfl⟩ | ⟨-,hd⟩
    · exact hitems
    · exact h.items id d hd

/-- A row of a call in flight belongs to an item that it holds. -/
theorem item_of_row (h : Inv s) {id : ℕ} {c : Call} (hc : s.calls id = some c)
    {row : ℕ × Attempt} (hr : row ∈ c.out) : ∃ x ∈ c.held,x.pair = rowPair row := by
  obtain ⟨done,hheld,hsub⟩ := (h.calls id c hc).done
  obtain ⟨x,hx,hp⟩ := List.mem_map.mp (hsub.subset (List.mem_map_of_mem hr))
  exact ⟨x,hheld ▸ List.mem_append_left _ hx,hp⟩

theorem nodup_rows (h : Inv s) {id : ℕ} {c : Call} (hc : s.calls id = some c) :
    (c.out.map rowPair).Nodup := by
  obtain ⟨done,hheld,hsub⟩ := (h.calls id c hc).done
  have hnodup := (h.calls id c hc).pairs
  rw [hheld,List.map_append] at hnodup
  exact (List.nodup_append.mp hnodup).1.sublist hsub

/-- Rows of one event have different rules. -/
theorem nodup_rules {rows : List (ℕ × Attempt)} {eventId : ℕ} (h : (rows.map rowPair).Nodup)
    (hid : ∀ row ∈ rows,row.1 = eventId) : ((rows.map Prod.snd).map Attempt.ruleId).Nodup := by
  rw [List.map_map]
  refine List.pairwise_map.mpr ((List.pairwise_map.mp h).imp_of_mem ?_)
  intro a b ha hb hne heq
  refine hne (Prod.ext ?_ heq)
  exact (hid a ha).trans (hid b hb).symm

theorem stored_of_pass (h : Inv s) {id : ℕ} {c : Call} (hc : s.calls id = some c)
    (hp : Call.isPass c) {x : Item} (hx : x ∈ c.held) :
    Stored s.events c.tenantId x ∧ x.attempt.status.isCancelled = false := by
  have hh := (h.calls id c hc).holds
  rcases hp with hk | hk
  · rw [hk] at hh
    exact ⟨(hh x hx).1,by rw [(hh x hx).2]; rfl⟩
  · rw [hk] at hh
    exact ⟨(hh x hx).1,by rw [(hh x hx).2]; rfl⟩

/-- The end of an emission. -/
theorem Gated.finish_emission (h : Gated s) {id : ℕ} {c : Call} (hc : s.calls id = some c)
    {eventId : ℕ} {trigger : String} (hk : c.kind = .emission eventId trigger) :
    Gated (s.finished id c) := by
  have hinv := h.inv.finished hc
  have hev : (s.finished id c).events =
      s.events++[⟨eventId,c.tenantId,trigger,c.out.map Prod.snd⟩] := by
    unfold State.finished
    rw [hk]
  have hh := (h.inv.calls id c hc).holds
  rw [hk] at hh
  obtain ⟨-,hnot,hheld⟩ := hh
  constructor
  · exact hinv
  · intro i j a b ha hb
    exact h.single i j a b (finished_calls ha).2 (finished_calls hb).2
  · intro j d hd hp x hx e he hid
    have hd := (finished_calls hd).2
    rw [hev] at he
    rcases List.mem_append.mp he with he | he
    · exact h.latest j d hd hp x hx e he hid
    · cases List.mem_singleton.mp he
      obtain ⟨⟨e,he,hide,-⟩,-⟩ := stored_of_pass h.inv hd hp hx
      exact absurd (hide.trans hid.symm) (hnot e he)
  · intro e he
    rw [hev] at he
    rcases List.mem_append.mp he with he | he
    · exact h.closed e he
    · cases List.mem_singleton.mp he
      have hid : ∀ row ∈ c.out,row.1 = eventId := by
        intro row hr
        obtain ⟨x,hx,hp⟩ := item_of_row h.inv hc hr
        exact (congrArg Prod.fst hp).symm.trans (hheld x hx).1
      exact closed_of_nodup (nodup_rules (nodup_rows h.inv hc) hid)
  · intro e he hne
    rw [hev] at he
    rcases List.mem_append.mp he with he | he
    · exact h.triggers e he hne
    · cases List.mem_singleton.mp he
      obtain ⟨row,hr⟩ : ∃ row,row ∈ c.out := by
        cases hout : c.out with
        | nil => simp [hout] at hne
        | cons row rows => exact ⟨row,by simp⟩
      obtain ⟨x,hx,-⟩ := item_of_row h.inv hc hr
      exact (hheld x hx).2.1 ▸ h.items id c hc x hx
  · intro j d hd
    exact h.items j d (finished_calls hd).2

/-- The end of a pass. -/
theorem Gated.finish_pass (h : Gated s) {id : ℕ} {c : Call} (hc : s.calls id = some c)
    (hp : Call.isPass c) : Gated (s.finished id c) := by
  have hinv := h.inv.finished hc
  have hev : (s.finished id c).events = s.events.map fun e =>
      appendAttempts ((c.out.filter fun row => isEvent c.tenantId row.1 e).map Prod.snd) e := by
    rw [← storeRecords_eq_map h.inv.unique]
    unfold State.finished
    rcases hp with hk | hk
    · rw [hk]
    · rw [hk]
  have hrow : ∀ e ∈ s.events,∀ row ∈ c.out.filter fun row => isEvent c.tenantId row.1 e,
      row.1 = e.id ∧ ∃ x ∈ c.held,x.eventId = e.id ∧ x.attempt.ruleId = row.2.ruleId := by
    intro e he row hr
    obtain ⟨hr,hise⟩ := List.mem_filter.mp hr
    simp only [isEvent,Bool.and_eq_true,beq_iff_eq] at hise
    obtain ⟨x,hx,hpair⟩ := item_of_row h.inv hc hr
    exact ⟨hise.1.symm,x,hx,(congrArg Prod.fst hpair).trans hise.1.symm,congrArg Prod.snd hpair⟩
  constructor
  · exact hinv
  · intro i j a b ha hb
    exact h.single i j a b (finished_calls ha).2 (finished_calls hb).2
  · intro j d hd hpd
    obtain ⟨hj,hd⟩ := finished_calls hd
    exact absurd (h.single j id d c hd hc hpd hp) hj
  · intro stored hmem
    rw [hev] at hmem
    obtain ⟨e,he,rfl⟩ := List.mem_map.mp hmem
    refine (h.closed e he).append ?_ ?_
    · refine nodup_rules ?_ fun row hr => (hrow e he row hr).1
      exact (nodup_rows h.inv hc).sublist (List.filter_sublist.map _)
    · intro r hr
      obtain ⟨row,hmem,rfl⟩ := List.mem_map.mp hr
      obtain ⟨-,x,hx,hid,hrule⟩ := hrow e he row hmem
      exact ⟨x.index,x.attempt,h.latest id c hc hp x hx e he hid.symm,hrule,
        (stored_of_pass h.inv hc hp hx).2⟩
  · intro stored hmem hne
    rw [hev] at hmem
    obtain ⟨e,he,rfl⟩ := List.mem_map.mp hmem
    by_cases hold : e.deliveryAttempts = []
    · obtain ⟨row,hmem⟩ : ∃ row,row ∈ c.out.filter fun row => isEvent c.tenantId row.1 e := by
        cases hf : c.out.filter fun row => isEvent c.tenantId row.1 e with
        | nil => simp [appendAttempts,hold,hf] at hne
        | cons row rows => exact ⟨row,by simp⟩
      obtain ⟨-,x,hx,hid,-⟩ := hrow e he row hmem
      obtain ⟨⟨e',he',hid',-,-,hat⟩,-⟩ := stored_of_pass h.inv hc hp hx
      cases unique_event h.inv.unique he' he (hid'.trans hid)
      simp [hold] at hat
    · exact h.triggers e he hold
  · intro j d hd
    exact h.items j d (finished_calls hd).2

/-- The items of a pass that starts. -/
theorem collected (h : Gated s) {take : Attempt → Bool} {tenantId : String} {x : Item}
    (hx : x ∈ collectItems take (tenantEvents s tenantId)) :
    (∀ e ∈ s.events,e.id = x.eventId → IsLatest e.deliveryAttempts x.index x.attempt) ∧
      x.trigger ≠ "" := by
  obtain ⟨e,he,hid,htr,hl,-⟩ := mem_collectItems.mp hx
  have he := List.mem_of_mem_filter he
  constructor
  · intro e' he' hid'
    cases unique_event h.inv.unique he' he (hid'.trans hid)
    exact hl
  · rw [htr]
    refine h.triggers e he ?_
    intro hnil
    have hat := hl.1
    rw [hnil] at hat
    cases hat

theorem trigger_known {tenantId trigger : String} {now : Time} {x : Item}
    (hx : x ∈ emissionItems s tenantId trigger now) : x.trigger ≠ "" := by
  obtain ⟨row,hrow,rfl⟩ := List.mem_map.mp hx
  obtain ⟨-,hr⟩ := List.mem_filter.mp (List.fst_mem_of_mem_zipIdx hrow)
  simp only [Bool.and_eq_true,List.contains_iff_mem] at hr
  have hknown := row.1.known trigger hr.2
  rintro rfl
  exact absurd hknown (by decide)

theorem gated_step : Preserved SeparateStep Gated := by
  rintro s op t h ⟨hsep,hs⟩
  have hinv : Inv t := inv_step _ _ _ h.inv hs
  cases step_effect hs with
  | rules _ hcalls hev =>
      refine h.same hinv hev fun j e he => ?_
      rw [hcalls] at he
      exact ⟨e,he,rfl,rfl⟩
  | start c _ _ _ hst hcalls hev =>
      cases hst with
      | emission hk hheld =>
          refine h.start hinv hcalls hev ?_ ?_ ?_
          · rintro (hp | hp) <;> simp [hk] at hp
          · rintro (hp | hp) <;> simp [hk] at hp
          · exact fun x hx => trigger_known (hheld ▸ hx)
      | retry _ hheld =>
          refine h.start hinv hcalls hev ?_ ?_ ?_
          · exact fun _ => hsep
          · exact fun _ x hx => (collected h (hheld ▸ hx)).1
          · exact fun x hx => (collected h (hheld ▸ hx)).2
      | redrive _ hheld =>
          rw [collectDlqNotificationAttempts] at hheld
          refine h.start hinv hcalls hev ?_ ?_ ?_
          · exact fun _ => hsep
          · exact fun _ x hx => (collected h (hheld ▸ hx)).1
          · exact fun x hx => (collected h (hheld ▸ hx)).2
  | move id c d x rest _ hat hm hcalls hev =>
      refine h.same hinv hev fun j e he => ?_
      rw [hcalls] at he
      rcases calls_update he with ⟨rfl,rfl⟩ | ⟨-,he⟩
      · exact ⟨c,hat.1,hm.kept.1,hm.kept.2.2.2⟩
      · exact ⟨e,he,rfl,rfl⟩
  | finish id c _ hc _ ht =>
      subst ht
      cases hk : c.kind with
      | emission eventId trigger => exact h.finish_emission hc hk
      | retry => exact h.finish_pass hc (Or.inl hk)
      | redrive => exact h.finish_pass hc (Or.inr hk)

/-- A cancellation of the pair is recorded. -/
def Cancelled (s : State) (eventId ruleId : ℕ) : Prop :=
  ∃ e ∈ s.events,e.id = eventId ∧
    ∃ a ∈ e.deliveryAttempts,a.ruleId = ruleId ∧ a.status.isCancelled = true

theorem effect_grown (h : Inv s) (heff : Effect s op t) : Grown s.events t.events := by
  have hsame : t.events = s.events → Grown s.events t.events := by
    intro hev e he
    exact ⟨e,hev ▸ he,rfl,rfl,rfl,List.prefix_refl _⟩
  cases heff with
  | rules _ _ hev => exact hsame hev
  | start _ _ _ _ _ _ hev => exact hsame hev
  | move _ _ _ _ _ _ _ _ _ hev => exact hsame hev
  | finish id c _ _ _ ht => exact ht ▸ grown_finished h

theorem cancelled_step {eventId ruleId : ℕ} (h : Inv s) (hs : Step s op t)
    (hc : Cancelled s eventId ruleId) : Cancelled t eventId ruleId := by
  obtain ⟨e,he,hid,a,ha,hr,hcancel⟩ := hc
  obtain ⟨e',he',hid',-,-,hpre⟩ := effect_grown h (step_effect hs) e he
  exact ⟨e',he',hid'.trans hid,a,hpre.subset ha,hr,hcancel⟩

/-- Nothing in flight holds a cancelled pair. -/
theorem not_held (h : Gated s) {eventId ruleId : ℕ} (hc : Cancelled s eventId ruleId) {id : ℕ}
    {c : Call} (hcall : s.calls id = some c) {x : Item} (hx : x ∈ c.held) :
    x.pair ≠ (eventId,ruleId) := by
  obtain ⟨e,he,hid,a,ha,hr,hcancel⟩ := hc
  intro hpair
  have hxe : x.eventId = eventId := congrArg Prod.fst hpair
  have hxr : x.attempt.ruleId = ruleId := congrArg Prod.snd hpair
  have hpass : Call.isPass c → False := by
    intro hp
    have hl := h.latest id c hcall hp x hx e he (hid.trans hxe.symm)
    exact (h.closed e he).latest hl (stored_of_pass h.inv hcall hp hx).2 ha hcancel
      (hxr.trans hr.symm)
  cases hk : c.kind with
  | retry => exact hpass (Or.inl hk)
  | redrive => exact hpass (Or.inr hk)
  | emission eventId' trigger =>
      have hh := (h.inv.calls id c hcall).holds
      rw [hk] at hh
      refine hh.2.1 e he ?_
      rw [hid,← hxe,(hh.2.2 x hx).1]

/-- The op sends for the pair. -/
def SendsPair (eventId ruleId : ℕ) (op : Op) : Prop :=
  ∃ id x,op = .send id x ∧ x.pair = (eventId,ruleId)

theorem cancelled_silences (eventId ruleId : ℕ) : Silences SeparateStep Gated
    (SendsPair eventId ruleId) (fun s => Cancelled s eventId ruleId) where
  kept _ _ _ h hc hs := cancelled_step h.inv hs.2 hc
  quiet s op t h hc hs := by
    rintro ⟨id,x,rfl,hpair⟩
    cases hs.2 with
    | @send _ c _ rest _ hat _ _ =>
        have htodo : x ∈ c.todo := by
          rw [hat.2]
          exact List.mem_cons_self
        exact not_held h hc hat.1 (mem_held h.inv hat.1 htodo) hpair

end

theorem gated_empty : Gated State.empty where
  inv := {
    unique := by simp [EventIdsUnique,State.empty]
    below := by simp [State.empty]
    rules := by simp [State.empty]
    rulesBelow := by simp [State.empty]
    fresh := by simp [State.empty]
    calls := by simp [State.empty]
    emissions := by simp [State.empty] }
  single := by simp [State.empty]
  latest := by simp [State.empty]
  closed := by simp [State.empty]
  triggers := by simp [State.empty]
  items := by simp [State.empty]

/-- The read that cleared the item is the last thing that its call did. -/
structure ReadBefore (h : List Op) (s : State) (id : ℕ) (c : Call) (x : Item)
    (rule : Option Rule) (k₁ k₂ : List Op) (u : State) : Prop where
  history : h = k₁++.read id x rule::k₂
  before : Run SeparateStep State.empty k₁ u
  after : Run SeparateStep u (.read id x rule::k₂) s
  resolved : rule = resolveRule u.rules c.tenantId x.attempt.ruleId
  gate : evaluateNotificationRuleDeliveryGate rule x.trigger = .deliver ∨
    evaluateNotificationRuleDeliveryGate rule x.trigger = .unknown
  idle : ∀ op ∈ k₂,op.call ≠ some id

theorem read_before {h : List Op} {s : State} (hr : Run SeparateStep State.empty h s) :
    ∀ id c x rest rule,s.At id c x rest → c.phase = .cleared rule →
      ∃ k₁ k₂ u,ReadBefore h s id c x rule k₁ k₂ u := by
  induction hr with
  | start =>
      intro id c x rest rule hat
      cases hat.1
  | @step h s t op hr hs ih =>
      -- A call that does not move keeps its read.
      have hold : ∀ id c x rest rule,s.At id c x rest → c.phase = .cleared rule →
          op.call ≠ some id → ∃ k₁ k₂ u,ReadBefore (h++[op]) t id c x rule k₁ k₂ u := by
        intro id c x rest rule hat hp hop
        obtain ⟨k₁,k₂,u,hread⟩ := ih id c x rest rule hat hp
        refine ⟨k₁,k₂++[op],u,?_,hread.before,?_,hread.resolved,hread.gate,?_⟩
        · rw [hread.history]
          simp
        · exact .step hread.after hs
        · intro q hq
          rcases List.mem_append.mp hq with hq | hq
          · exact hread.idle q hq
          · cases List.mem_singleton.mp hq
            exact hop
      intro id c x rest rule hat hp
      cases step_effect hs.2 with
      | rules hno hcalls _ =>
          have hat : s.At id c x rest := ⟨hcalls ▸ hat.1,hat.2⟩
          exact hold id c x rest rule hat hp (by simp [hno])
      | start d hno _ hready _ hcalls _ =>
          have hc := hat.1
          rw [hcalls] at hc
          rcases calls_update hc with ⟨-,rfl⟩ | ⟨-,hc⟩
          · rw [hp] at hready
            cases hready
          · exact hold id c x rest rule ⟨hc,hat.2⟩ hp (by simp [hno])
      | move id' c' d y rest' hcall hat' hm hcalls _ =>
          have hc := hat.1
          rw [hcalls] at hc
          rcases calls_update hc with ⟨rfl,rfl⟩ | ⟨hne,hc⟩
          · cases hm with
            | settled _ _ _ => cases hp
            | sent _ _ => cases hp
            | cleared _ _ hrule hgate =>
                cases hp
                have hxy := hat'.2.symm.trans hat.2
                cases hxy
                exact ⟨h,[],s,rfl,hr,.cons hs .start,hrule,hgate,by simp⟩
          · refine hold id c x rest rule ⟨hc,hat.2⟩ hp ?_
            rw [hcall]
            exact fun heq => hne (Option.some.inj heq).symm
      | finish id' c' hop _ _ ht =>
          subst ht
          obtain ⟨hne,hc⟩ := finished_calls hat.1
          refine hold id c x rest rule ⟨hc,hat.2⟩ hp ?_
          rw [hop]
          exact fun heq => hne (Option.some.inj heq).symm

/-- Each send follows a read of its rule that found it live, enabled and subscribed, with
nothing else of the call in between; and nothing is sent for a pair once its cancellation is
recorded. -/
theorem sends_gated_until_cancelled :
    (∀ k s id x t,Run SeparateStep State.empty k s → SeparateStep s (.send id x) t →
      ∃ k₁ r k₂ u,k = k₁++.read id x (some r)::k₂ ∧ Run SeparateStep State.empty k₁ u ∧
        Run SeparateStep u (.read id x (some r)::k₂) s ∧ (∀ op ∈ k₂,op.call ≠ some id) ∧
        r ∈ u.rules ∧ r.id = x.attempt.ruleId ∧ r.deletedAt = none ∧ r.enabled = true ∧
        x.trigger ∈ r.triggers) ∧
    ∀ k s l t eventId ruleId,Run SeparateStep State.empty k s → Cancelled s eventId ruleId →
      Run SeparateStep s l t → ∀ id x,.send id x ∈ l → x.pair ≠ (eventId,ruleId) := by
  constructor
  · intro k s id x t hr hs
    have hg : Gated s := gated_step.run gated_empty hr
    cases hs.2 with
    | @send _ c _ rest rule hat hp ho =>
        obtain ⟨k₁,k₂,u,hread⟩ := read_before hr id c x rest rule hat hp
        cases rule with
        | none => simp [Call.outbound,outbound,destinationOf] at ho
        | some r =>
            have hgate : evaluateNotificationRuleDeliveryGate (some r) x.trigger = .deliver := by
              rcases hread.gate with hgate | hgate
              · exact hgate
              · unfold evaluateNotificationRuleDeliveryGate at hgate
                dsimp only at hgate
                split_ifs at hgate
            obtain ⟨q,hq,hdel,hen,htr⟩ := gate_deliver hgate
            cases hq
            have hfind := hread.resolved.symm
            have hkey := List.find?_some hfind
            simp only [Bool.and_eq_true,beq_iff_eq] at hkey
            have hx : x ∈ c.held := mem_held hg.inv hat.1 (by rw [hat.2]; simp)
            refine ⟨k₁,r,k₂,u,hread.history,hread.before,hread.after,hread.idle,
              List.mem_of_find?_eq_some hfind,hkey.1,hdel,hen,?_⟩
            exact htr.resolve_left (hg.items id c hat.1 x hx)
  · intro k s l t eventId ruleId hr hc hl id x hmem hpair
    have hg : Gated s := gated_step.run gated_empty hr
    have hquiet := ((cancelled_silences eventId ruleId).run gated_step hg hc hl).2
    exact hquiet _ hmem ⟨id,x,rfl,hpair⟩

def emittedItem : Item :=
  ⟨0,"report.ready",0,buildNotificationDeliveryAttempt 0 dueRule 5⟩

def emittedOps : List Op :=
  [.createRule dueRule,.emit "ten_a" "report.ready" 5 [.webhook],
    .read 0 emittedItem (some dueRule)]

/-- The first send of an emission has its read. -/
theorem emitted_send_has_read : ∃ k₁ r k₂,
    emittedOps = k₁++Op.read 0 emittedItem (some r)::k₂ ∧ r.enabled = true ∧
      emittedItem.trigger ∈ r.triggers := by
  have hrun : ∃ s t,Run SeparateStep State.empty emittedOps s ∧
      SeparateStep s (.send 0 emittedItem) t := by
    apply Exists.intro
    apply Exists.intro
    constructor
    · apply Run.cons
      · exact ⟨trivial,.createRule rfl rfl⟩
      apply Run.cons
      · exact ⟨trivial,.emit⟩
      apply Run.cons
      · exact ⟨trivial,@Step.read _ 0 _ _ _ _ (.next 1) ⟨rfl,rfl⟩ rfl rfl rfl⟩
      exact .start
    · exact ⟨trivial,.send ⟨rfl,rfl⟩ rfl rfl⟩
  obtain ⟨s,t,hrun,hsend⟩ := hrun
  obtain ⟨k₁,r,k₂,u,hk,-,-,-,-,-,-,hen,htr⟩ :=
    sends_gated_until_cancelled.1 _ s 0 emittedItem t hrun hsend
  exact ⟨k₁,r,k₂,hk,hen,htr⟩

end AstraNull.NotificationLifecycle
