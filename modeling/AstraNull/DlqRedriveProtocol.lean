import Mathlib
import AstraNull.Tables
import AstraNull.Runs
import AstraNull.DlqRedrive

/-!
# Redrive workers over one ledger

Any number of calls page through the dead letters, claim rows with tokens of their own, keep
their leases alive and complete what they sent. The clock never goes back, leases run out
and a worker may stop anywhere. Three things hold of every run: a row is completed once, no
two tokens have a lease on it at the same time, and a send follows a renewed claim. And the
counters of a call that ends add up.
-/
namespace AstraNull.DlqRedriveProtocol
open NotificationDelivery DlqRedrive Tables Runs

structure State where
  rows : List Row
  clock : Time
  calls : ℕ → Option Call
  nextCall : ℕ
  nextToken : ℕ

def State.set (s : State) (id : ℕ) (c : Option Call) : State :=
  { s with calls := Function.update s.calls id c }

def State.withRows (s : State) (rows : List Row) : State := { s with rows := rows }

/-- A step, with what it asked the ledger and what the ledger said. -/
inductive Op where
  | tick (d : ℕ)
  | start (input : Input)
  | summarize (call : ℕ)
  | exhaust (call : ℕ)
  | list (call : ℕ)
  | next (call : ℕ)
  | turn (call : ℕ)
  | plan (call : ℕ)
  | claim (call attemptId token : ℕ) (expires : Time) (won : Bool)
  | gate (call : ℕ)
  | gateFails (call : ℕ)
  | release (call attemptId token : ℕ) (released : Bool)
  | releaseFails (call : ℕ)
  | renew (call attemptId token : ℕ) (expires : Time) (renewed : Bool)
  | renewFails (call : ℕ)
  | heartbeat (attemptId token : ℕ) (expires : Time) (renewed : Bool)
  | send (call attemptId token : ℕ)
  | settle (call : ℕ)
  | complete (call attemptId token : ℕ) (completed : Bool)
  | finish (call : ℕ)
  | abort (call : ℕ)

inductive Step : State → Op → State → Prop
  | tick {s : State} {d : ℕ} : Step s (.tick d) { s with clock := s.clock+d }
  | start {s : State} {input : Input} : Step s (.start input)
      { s.set s.nextCall (some input.call) with nextCall := s.nextCall+1 }
  | summarize {s : State} {id : ℕ} {c : Call} {heldCount : ℕ} {heldIds : List ℕ} :
      s.calls id = some c → c.phase = .summarizing →
      Step s (.summarize id) (s.set id (c.summarized heldCount heldIds))
  | exhaust {s : State} {id : ℕ} {c : Call} : s.calls id = some c → c.phase = .paging →
      c.input.budget ≤ c.examined.length → Step s (.exhaust id)
        (s.set id (some { c with
          phase := .ended
          budgetExhausted := true }))
  | list {s : State} {id : ℕ} {c : Call} {held : ℕ → Bool} : s.calls id = some c →
      c.phase = .paging → c.examined.length < c.input.budget → Step s (.list id)
        (s.set id (c.listed (listDlqDeliveryAttempts s.rows s.clock c.input.tenantId held
          c.nextLimit c.cursor c.input.ruleId c.input.attemptIds)))
  | next {s : State} {id : ℕ} {c : Call} {x : Listed} {rest : List Listed} :
      s.calls id = some c → c.phase = .rows → c.page = x::rest → Step s (.next id)
        { s.set id (c.examine x rest s.nextToken) with nextToken := s.nextToken+1 }
  | turn {s : State} {id : ℕ} {c : Call} : s.calls id = some c → c.phase = .rows →
      c.page = [] → Step s (.turn id) (s.set id c.turned)
  | plan {s : State} {id : ℕ} {c : Call} {row : Row} {rule : Option Rule} :
      s.calls id = some c → c.phase = .planning row →
      Step s (.plan id) (s.set id (c.planned row rule))
  | claim {s : State} {id token : ℕ} {c : Call} {row : Row} {won : Option Row}
      {rows : List Row} : s.calls id = some c → c.phase = .claiming row token →
      claimDlqDeliveryAttempt s.rows s.clock c.input.tenantId row.id token c.input.lease =
        (won,rows) →
      Step s (.claim id row.id token (s.clock+c.input.lease) won.isSome)
        ((s.set id (c.claimed token won)).withRows rows)
  | gate {s : State} {id token outcomeId : ℕ} {c : Call} {row : Row} {rule : Option Rule} :
      s.calls id = some c → c.phase = .gating row token →
      Step s (.gate id) (s.set id (c.gated row token outcomeId rule))
  /-- The read of the rule fails; the claim is given back and the error goes on. -/
  | gateFails {s : State} {id token : ℕ} {c : Call} {row : Row} : s.calls id = some c →
      c.phase = .gating row token → Step s (.gateFails id)
        (s.set id (some { c with phase := .releasing row token .throw }))
  | release {s : State} {id token : ℕ} {c : Call} {row : Row} {next : AfterRelease}
      {released : Bool} {rows : List Row} : s.calls id = some c →
      c.phase = .releasing row token next →
      releaseDeliveryAttemptClaim s.rows c.input.tenantId row.id token = (released,rows) →
      Step s (.release id row.id token released) ((s.set id (c.released row next)).withRows rows)
  | releaseFails {s : State} {id token : ℕ} {c : Call} {row : Row} {next : AfterRelease} :
      s.calls id = some c → c.phase = .releasing row token next →
      Step s (.releaseFails id) (s.set id (c.released row next))
  | renew {s : State} {id token : ℕ} {c : Call} {row : Row} {rule : Rule} {renewed : Bool}
      {rows : List Row} : s.calls id = some c → c.phase = .renewing row token rule →
      renewDeliveryAttemptClaim s.rows s.clock c.input.tenantId row.id token c.input.lease =
        (renewed,rows) →
      Step s (.renew id row.id token (s.clock+c.input.lease) renewed)
        ((s.set id (c.renewed row token rule renewed)).withRows rows)
  /-- A renewal that cannot be verified counts as lost. -/
  | renewFails {s : State} {id token : ℕ} {c : Call} {row : Row} {rule : Rule} :
      s.calls id = some c → c.phase = .renewing row token rule →
      Step s (.renewFails id) (s.set id c.leaseLost)
  /-- A renewal by the timer of a claim, at any time after the claim was asked for. -/
  | heartbeat {s : State} {tenantId : String} {attemptId token leaseMs : ℕ} {renewed : Bool}
      {rows : List Row} : token < s.nextToken →
      renewDeliveryAttemptClaim s.rows s.clock tenantId attemptId token leaseMs =
        (renewed,rows) →
      Step s (.heartbeat attemptId token (s.clock+leaseMs) renewed) (s.withRows rows)
  | send {s : State} {id token : ℕ} {c : Call} {row : Row} {rule : Rule} :
      s.calls id = some c → c.phase = .cleared row token rule → c.outbound row rule = true →
      Step s (.send id row.id token)
        (s.set id (some { c with phase := .sending row token rule }))
  | unsent {s : State} {id token outcomeId : ℕ} {c : Call} {row : Row} {rule : Rule}
      {reply : Reply} : s.calls id = some c → c.phase = .cleared row token rule →
      (c.outbound row rule && reply.sends row.attempt.channel) = false →
      Step s (.settle id) (s.set id (c.answered row token outcomeId rule reply))
  | answered {s : State} {id token outcomeId : ℕ} {c : Call} {row : Row} {rule : Rule}
      {reply : Reply} : s.calls id = some c → c.phase = .sending row token rule →
      reply.sends row.attempt.channel = true →
      Step s (.settle id) (s.set id (c.answered row token outcomeId rule reply))
  /-- The insert of an outcome needs a new id; otherwise the statement fails as a whole. -/
  | complete {s : State} {id token outcomeId : ℕ} {c : Call} {row : Row} {record : Attempt}
      {cancelled completed : Bool} {rows : List Row} : s.calls id = some c →
      c.phase = .completing row token outcomeId record cancelled →
      completeDeliveryAttemptClaim s.rows s.clock c.input.tenantId row.id token row.eventId
        outcomeId row.trigger record = (completed,rows) →
      (completed = true → ∀ r ∈ s.rows,r.id ≠ outcomeId) →
      Step s (.complete id row.id token completed)
        ((s.set id (c.completed row outcomeId record cancelled completed)).withRows rows)
  | finish {s : State} {id : ℕ} {c : Call} : s.calls id = some c → c.phase = .ended →
      Step s (.finish id) (s.set id c.finish)
  | abort {s : State} {id : ℕ} : Step s (.abort id) (s.set id none)

/-- A ledger with no call in flight. -/
structure Idle (s : State) : Prop where
  ids : (s.rows.map Row.id).Nodup
  calls : ∀ id,s.calls id = none

/-- What an answer of the ledger tells the token about its lease on the row. -/
def Op.lease (attemptId token : ℕ) : Op → Option (Option Time)
  | .claim _ a τ expires ok => if ok ∧ a = attemptId ∧ τ = token then some (some expires) else none
  | .renew _ a τ expires ok => if ok ∧ a = attemptId ∧ τ = token then some (some expires) else none
  | .heartbeat a τ expires ok =>
      if ok ∧ a = attemptId ∧ τ = token then some (some expires) else none
  | .release _ a τ ok => if ok ∧ a = attemptId ∧ τ = token then some none else none
  | .complete _ a τ ok => if ok ∧ a = attemptId ∧ τ = token then some none else none
  | _ => none

/-- The op completes the row. -/
def Op.completes (attemptId : ℕ) : Op → Bool
  | .complete _ a _ completed => completed && a == attemptId
  | _ => false

/-- The write of a statement: the rows that match are changed, the key columns stay. -/
structure Write (rows : List Row) (p : Row → Bool) (f : Row → Row) (rows' : List Row) : Prop where
  rows : rows' = updateAll p f rows
  id : ∀ r,(f r).id = r.id
  key : ∀ r,(f r).key = r.key
  dead : ∀ r,r.live = false → (f r).live = false

/-- What a step asks of the ledger. -/
inductive Ledger (rows : List Row) (now : Time) (op : Op) (rows' : List Row) : Prop
  | same : rows' = rows → (∀ a τ,op.lease a τ = none) → (∀ a,op.completes a = false) →
      Ledger rows now op rows'
  | claim (tenantId : String) (a τ n : ℕ) :
      Write rows (Row.claimable rows now tenantId a) (Row.claim τ (now+n)) rows' →
      (∀ b σ,op.lease b σ = if rows.any (Row.claimable rows now tenantId a) ∧ a = b ∧ τ = σ
        then some (some (now+n)) else none) →
      (∀ b,op.completes b = false) → Ledger rows now op rows'
  | renew (tenantId : String) (a τ n : ℕ) :
      Write rows (Row.renewable now tenantId a τ)
        (fun r => { r with leaseExpiresAt := some (now+n) }) rows' →
      (∀ b σ,op.lease b σ = if rows.any (Row.renewable now tenantId a τ) ∧ a = b ∧ τ = σ
        then some (some (now+n)) else none) →
      (∀ b,op.completes b = false) → Ledger rows now op rows'
  | release (tenantId : String) (a τ : ℕ) :
      Write rows (Row.owned tenantId a τ) (fun r => { r with
        claimedBy := none
        leaseExpiresAt := none }) rows' →
      (∀ b σ,op.lease b σ = if rows.any (Row.owned tenantId a τ) ∧ a = b ∧ τ = σ
        then some none else none) →
      (∀ b,op.completes b = false) → Ledger rows now op rows'
  | complete (tenantId : String) (a τ e : ℕ) (middle : List Row) (row : Row) :
      rows.any (Row.completable tenantId a τ e) = true →
      Write rows (Row.completable tenantId a τ e) (Row.supersede now) middle →
      rows' = middle++[row] → (∀ r ∈ rows,r.id ≠ row.id) →
      (∀ b σ,op.lease b σ = if a = b ∧ τ = σ then some none else none) →
      (∀ b,op.completes b = (a == b)) → Ledger rows now op rows'

theorem step_ledger {s t : State} {op : Op} (hs : Step s op t) :
    Ledger s.rows s.clock op t.rows := by
  cases hs with
  | claim _ _ hdb =>
      obtain ⟨hwon,hrows⟩ := Prod.mk.inj hdb
      refine .claim _ _ _ _ ⟨hrows.symm,fun _ => rfl,fun _ => rfl,fun _ h => h⟩ ?_ fun _ => rfl
      intro b σ
      rw [← hwon,Option.isSome_map,List.isSome_find?]
      rfl
  | renew _ _ hdb =>
      obtain ⟨hok,hrows⟩ := Prod.mk.inj hdb
      refine .renew _ _ _ _ ⟨hrows.symm,fun _ => rfl,fun _ => rfl,fun _ h => h⟩ ?_ fun _ => rfl
      intro b σ
      rw [hok]
      rfl
  | heartbeat _ hdb =>
      obtain ⟨hok,hrows⟩ := Prod.mk.inj hdb
      refine .renew _ _ _ _ ⟨hrows.symm,fun _ => rfl,fun _ => rfl,fun _ h => h⟩ ?_ fun _ => rfl
      intro b σ
      rw [hok]
      rfl
  | release _ _ hdb =>
      obtain ⟨hok,hrows⟩ := Prod.mk.inj hdb
      refine .release _ _ _ ⟨hrows.symm,fun _ => rfl,fun _ => rfl,fun _ h => h⟩ ?_ fun _ => rfl
      intro b σ
      rw [hok]
      rfl
  | complete _ _ hdb hfresh =>
      unfold completeDeliveryAttemptClaim at hdb
      split at hdb
      · rename_i hany
        obtain ⟨hok,hrows⟩ := Prod.mk.inj hdb
        subst hok
        refine .complete _ _ _ _ _ _ hany ⟨rfl,fun _ => rfl,fun _ => rfl,fun _ _ => rfl⟩
          hrows.symm (hfresh rfl) ?_ ?_
        · intro b σ
          simp [Op.lease]
        · intro b
          simp [Op.completes]
      · obtain ⟨hok,hrows⟩ := Prod.mk.inj hdb
        subst hok
        exact .same hrows.symm (fun _ _ => by simp [Op.lease]) fun _ => rfl
  | _ => exact .same rfl (fun _ _ => rfl) fun _ => rfl

theorem Write.mem {rows rows' : List Row} {p : Row → Bool} {f : Row → Row}
    (h : Write rows p f rows') {r : Row} (hr : r ∈ rows) :
    (if p r then f r else r) ∈ rows' := by
  rw [h.rows]
  exact List.mem_map_of_mem hr

theorem Write.ids {rows rows' : List Row} {p : Row → Bool} {f : Row → Row}
    (h : Write rows p f rows') : rows'.map Row.id = rows.map Row.id := by
  rw [h.rows]
  exact map_updateAll h.id

section
variable {rows rows' : List Row} {now : Time} {op : Op}

/-- Row ids stay unique. -/
theorem Ledger.ids (h : Ledger rows now op rows') (hu : (rows.map Row.id).Nodup) :
    (rows'.map Row.id).Nodup := by
  cases h with
  | same heq _ _ => rwa [heq]
  | claim _ _ _ _ hw _ _ => rwa [hw.ids]
  | renew _ _ _ _ hw _ _ => rwa [hw.ids]
  | release _ _ _ hw _ _ => rwa [hw.ids]
  | complete _ _ _ _ middle row _ hw heq hfresh _ _ =>
      rw [heq,List.map_append,hw.ids,List.nodup_append]
      refine ⟨hu,by simp,?_⟩
      intro a ha b hb
      obtain ⟨r,hr,rfl⟩ := List.mem_map.mp ha
      simp only [List.map_cons,List.map_nil,List.mem_singleton] at hb
      exact hb ▸ hfresh r hr

theorem row_unique (hu : (rows.map Row.id).Nodup) {x y : Row} (hx : x ∈ rows) (hy : y ∈ rows)
    (h : x.id = y.id) : x = y :=
  List.inj_on_of_nodup_map hu hx hy h

def Superseded (attemptId : ℕ) (rows : List Row) : Prop :=
  ∃ r ∈ rows,r.id = attemptId ∧ r.live = false

theorem Write.superseded {p : Row → Bool} {f : Row → Row} {attemptId : ℕ}
    (h : Write rows p f rows') (hs : Superseded attemptId rows) : Superseded attemptId rows' := by
  obtain ⟨r,hr,hid,hdead⟩ := hs
  refine ⟨_,h.mem hr,?_,?_⟩
  · split
    · exact (h.id r).trans hid
    · exact hid
  · split
    · exact h.dead r hdead
    · exact hdead

theorem Ledger.superseded {attemptId : ℕ} (h : Ledger rows now op rows')
    (hs : Superseded attemptId rows) : Superseded attemptId rows' := by
  cases h with
  | same heq _ _ => rwa [heq]
  | claim _ _ _ _ hw _ _ => exact hw.superseded hs
  | renew _ _ _ _ hw _ _ => exact hw.superseded hs
  | release _ _ _ hw _ _ => exact hw.superseded hs
  | complete _ _ _ _ middle row _ hw heq _ _ _ =>
      obtain ⟨r,hr,hrest⟩ := hw.superseded hs
      exact ⟨r,heq ▸ List.mem_append_left _ hr,hrest⟩

/-- A row that is completed was live and is superseded afterwards. -/
theorem Ledger.completes {attemptId : ℕ} (h : Ledger rows now op rows')
    (hc : op.completes attemptId = true) :
    (∃ r ∈ rows,r.id = attemptId ∧ r.live = true) ∧ Superseded attemptId rows' := by
  cases h with
  | same _ _ hno => rw [hno] at hc; cases hc
  | claim _ _ _ _ _ _ hno => rw [hno] at hc; cases hc
  | renew _ _ _ _ _ _ hno => rw [hno] at hc; cases hc
  | release _ _ _ _ _ hno => rw [hno] at hc; cases hc
  | complete tenantId a τ e middle row hany hw heq _ _ heqc =>
      rw [heqc,beq_iff_eq] at hc
      subst hc
      obtain ⟨r,hr,hp⟩ := List.any_eq_true.mp hany
      have hp' := hp
      simp only [Row.completable,Row.owned,Bool.and_eq_true,beq_iff_eq] at hp'
      refine ⟨⟨r,hr,hp'.1.1.1.2,hp'.1.2⟩,?_⟩
      have hmem := hw.mem hr
      rw [if_pos hp] at hmem
      refine ⟨Row.supersede now r,?_,hp'.1.1.1.2,rfl⟩
      rw [heq]
      exact List.mem_append_left _ hmem

/-- The lease that a token has by what it was told, oldest answer first. -/
def leaseUntil (attemptId token : ℕ) (h : List Op) : Option Time :=
  h.foldl (fun lease op => (op.lease attemptId token).getD lease) none

theorem leaseUntil_concat (attemptId token : ℕ) (h : List Op) (op : Op) :
    leaseUntil attemptId token (h++[op]) =
      (op.lease attemptId token).getD (leaseUntil attemptId token h) := by
  simp [leaseUntil]

/-- The ledger has the lease of the token. -/
def Leased (rows : List Row) (attemptId token : ℕ) (expires : Time) : Prop :=
  ∃ r ∈ rows,r.id = attemptId ∧ r.claimedBy = some token ∧ r.leaseExpiresAt = some expires ∧
    r.live = true

/-- A lease that a statement neither takes nor touches stays. -/
theorem Write.leased {p : Row → Bool} {f : Row → Row} {a τ : ℕ} {L : Time}
    (h : Write rows p f rows') (hl : Leased rows a τ L)
    (hno : ∀ r ∈ rows,r.id = a → r.claimedBy = some τ → r.leaseExpiresAt = some L →
      p r = false) : Leased rows' a τ L := by
  obtain ⟨r,hr,hid,hc,hexp,hlive⟩ := hl
  have hmem := h.mem hr
  rw [hno r hr hid hc hexp] at hmem
  exact ⟨r,by simpa using hmem,hid,hc,hexp,hlive⟩

/-- What a token was told is what the ledger has, as long as the lease runs. -/
theorem Ledger.leased {a τ : ℕ} {old : Option Time} {L : Time} (h : Ledger rows now op rows')
    (hold : ∀ L,old = some L → now < L → Leased rows a τ L) (hL : (op.lease a τ).getD old = some L)
    (hnow : now < L) : Leased rows' a τ L := by
  cases h with
  | same heq hno _ =>
      rw [hno] at hL
      rw [heq]
      exact hold L hL hnow
  | claim tenantId b σ n hw hlease _ =>
      rw [hlease] at hL
      split at hL
      · rename_i hcase
        obtain ⟨hany,rfl,rfl⟩ := hcase
        obtain ⟨r,hr,hp⟩ := List.any_eq_true.mp hany
        have hmem := hw.mem hr
        rw [if_pos hp] at hmem
        simp only [Row.claimable,Row.isDlq,Bool.and_eq_true,beq_iff_eq] at hp
        cases hL
        exact ⟨_,hmem,hp.1.1.2,rfl,rfl,hp.1.2.1.2⟩
      · refine hw.leased (hold L hL hnow) ?_
        intro r _ _ _ hexp
        simp [Row.claimable,Row.leaseActive,hexp,hnow]
  | renew tenantId b σ n hw hlease _ =>
      rw [hlease] at hL
      split at hL
      · rename_i hcase
        obtain ⟨hany,rfl,rfl⟩ := hcase
        obtain ⟨r,hr,hp⟩ := List.any_eq_true.mp hany
        have hmem := hw.mem hr
        rw [if_pos hp] at hmem
        simp only [Row.renewable,Row.owned,Bool.and_eq_true,beq_iff_eq] at hp
        cases hL
        exact ⟨_,hmem,hp.1.1.1.2,hp.1.1.2,rfl,hp.1.2⟩
      · rename_i hcase
        refine hw.leased (hold L hL hnow) ?_
        intro r hr hid hc _
        by_contra hp
        rw [Bool.not_eq_false] at hp
        refine hcase ⟨List.any_eq_true.mpr ⟨r,hr,hp⟩,?_⟩
        simp only [Row.renewable,Row.owned,Bool.and_eq_true,beq_iff_eq] at hp
        exact ⟨hp.1.1.1.2.symm.trans hid,Option.some.inj (hp.1.1.2.symm.trans hc)⟩
  | release tenantId b σ hw hlease _ =>
      rw [hlease] at hL
      split at hL
      · cases hL
      · rename_i hcase
        refine hw.leased (hold L hL hnow) ?_
        intro r hr hid hc _
        by_contra hp
        rw [Bool.not_eq_false] at hp
        refine hcase ⟨List.any_eq_true.mpr ⟨r,hr,hp⟩,?_⟩
        simp only [Row.owned,Bool.and_eq_true,beq_iff_eq] at hp
        exact ⟨hp.1.1.2.symm.trans hid,Option.some.inj (hp.1.2.symm.trans hc)⟩
  | complete tenantId b σ e middle row hany hw heq _ hlease _ =>
      rw [hlease] at hL
      split at hL
      · cases hL
      · rename_i hcase
        have hmid : Leased middle a τ L := by
          refine hw.leased (hold L hL hnow) ?_
          intro r hr hid hc _
          by_contra hp
          rw [Bool.not_eq_false] at hp
          refine hcase ?_
          simp only [Row.completable,Row.owned,Bool.and_eq_true,beq_iff_eq] at hp
          exact ⟨hp.1.1.1.2.symm.trans hid,Option.some.inj (hp.1.1.2.symm.trans hc)⟩
        obtain ⟨r,hr,hrest⟩ := hmid
        exact ⟨r,heq ▸ List.mem_append_left _ hr,hrest⟩

end

theorem before_trans {a b c : Key} (hab : a.before b = true) (hbc : b.before c = true) :
    a.before c = true := by
  simp only [Key.before,Bool.or_eq_true,Bool.and_eq_true,decide_eq_true_eq,beq_iff_eq] at *
  omega

theorem before_irrefl (a : Key) : a.before a = false := by
  simp [Key.before]

theorem before_of_not {a b : Key} (h : b.before a = false) : a = b ∨ a.before b = true := by
  obtain ⟨t,i⟩ := a
  obtain ⟨u,j⟩ := b
  simp only [Key.before,Bool.or_eq_false_iff,Bool.and_eq_false_iff,decide_eq_false_iff_not,
    beq_eq_false_iff_ne,Bool.or_eq_true,Bool.and_eq_true,decide_eq_true_eq,beq_iff_eq,
    Prod.mk.injEq] at *
  omega

/-- At the key or before it. -/
def Key.upTo (a b : Key) : Prop := a = b ∨ a.before b = true

theorem Key.upTo.before {a b c : Key} (hab : Key.upTo a b) (hbc : b.before c = true) :
    a.before c = true := by
  rcases hab with rfl | hab
  · exact hbc
  · exact before_trans hab hbc

instance : IsTrans Row Row.upTo where
  trans a b c hab hbc := by
    unfold Row.upTo at *
    rcases before_of_not hab with heq | hab
    · rw [heq]
      exact hbc
    · by_contra hca
      rw [Bool.not_eq_false] at hca
      rw [before_trans hca hab] at hbc
      cases hbc

instance : Std.Total Row.upTo where
  total a b := by
    unfold Row.upTo
    by_contra hc
    simp only [not_or,Bool.not_eq_false] at hc
    have hself := before_trans hc.1 hc.2
    rw [before_irrefl] at hself
    cases hself

section
variable {rows : List Row} {now : Time} {tenantId : String} {held : ℕ → Bool} {limit : ℕ}
variable {after : Option Key} {ruleId : Option ℕ} {attemptIds : Option (List ℕ)}

theorem length_list (hlimit : limit ≤ 500) (hpos : limit ≠ 0) :
    (listDlqDeliveryAttempts rows now tenantId held limit after ruleId attemptIds).length ≤
      limit := by
  unfold listDlqDeliveryAttempts
  simp only [List.length_map,List.length_take,hpos,if_false]
  omega

theorem mem_list {x : Listed}
    (hx : x ∈ listDlqDeliveryAttempts rows now tenantId held limit after ruleId attemptIds) :
    x.row ∈ rows ∧ ∀ k,after = some k → k.before x.row.key = true := by
  obtain ⟨r,hr,rfl⟩ := List.mem_map.mp hx
  have hr := (List.perm_insertionSort _ _).subset (List.mem_of_mem_take hr)
  obtain ⟨hmem,hp⟩ := List.mem_filter.mp hr
  refine ⟨hmem,?_⟩
  rintro k rfl
  simp only [Bool.and_eq_true] at hp
  simpa using hp.2

/-- The rows of a page come in the order of their keys. -/
theorem sorted_list (hu : (rows.map Row.id).Nodup) :
    ((listDlqDeliveryAttempts rows now tenantId held limit after ruleId attemptIds).map
      fun x => x.row.key).Pairwise fun a b => a.before b = true := by
  unfold listDlqDeliveryAttempts
  dsimp only
  generalize hc : rows.filter _ = candidates
  have hnodup : (candidates.map Row.id).Nodup := by
    rw [← hc]
    exact hu.sublist (List.filter_sublist.map _)
  have hle : (candidates.insertionSort Row.upTo).Pairwise Row.upTo :=
    List.pairwise_insertionSort _ _
  have hids : (candidates.insertionSort Row.upTo).Pairwise fun a b => a.id ≠ b.id := by
    refine List.pairwise_map.mp ?_
    exact (((List.perm_insertionSort _ _).map Row.id).nodup_iff).mpr hnodup
  rw [List.map_map]
  refine List.pairwise_map.mpr ?_
  refine ((hle.and hids).sublist (List.take_sublist _ _)).imp ?_
  rintro a b ⟨hab,hne⟩
  rcases before_of_not hab with heq | hab
  · exact absurd (congrArg Prod.snd heq) hne
  · exact hab

end

def Phase.isFinished : Phase → Bool
  | .finished => true
  | _ => false

/-- The rows that a call has to account for. -/
def owed (c : Call) : ℕ :=
  c.examined.length+if Phase.isFinished c.phase then c.missing else 0

/-- The rows that a call has accounted for, with the one it is working on. -/
def accounted (c : Call) : ℕ :=
  c.skippedCount+c.inFlightCount+c.claimLostCount+c.leaseLostCount+c.processed.length+
    if c.phase.busy then 1 else 0

def keys (c : Call) : List Key := c.examined++c.page.map fun x => x.row.key

structure CallOk (rows : List Row) (c : Call) : Prop where
  counted : owed c = accounted c
  budget : c.examined.length+c.page.length ≤ c.input.budget
  sorted : (keys c).Pairwise fun a b => a.before b = true
  known : ∀ k ∈ keys c,∃ r ∈ rows,r.key = k
  fresh : c.phase = .summarizing → keys c = []
  paged : c.phase = .paging → c.page = [] ∧
    ∀ k ∈ c.examined,∃ l,c.cursor = some l ∧ Key.upTo k l
  inPage : c.phase = .rows ∨ c.phase.busy = true →
    ∀ k ∈ keys c,∃ l,c.last = some l ∧ Key.upTo k l

section
variable {rows : List Row} {c d : Call}

/-- A busy call that goes on with the same row. -/
theorem CallOk.busy (h : CallOk rows c) (hc : c.phase.busy = true) {p : Phase}
    (hp : p.busy = true) : CallOk rows { c with phase := p } where
  counted := by
    have hcount := h.counted
    have hfin : Phase.isFinished c.phase = false := by
      cases hph : c.phase <;> simp_all [Phase.busy,Phase.isFinished]
    have hfin' : Phase.isFinished p = false := by
      cases p <;> simp_all [Phase.busy,Phase.isFinished]
    simp only [owed,accounted,hc,hp,hfin,hfin',Bool.false_eq_true,if_true,if_false] at hcount ⊢
    exact hcount
  budget := h.budget
  sorted := h.sorted
  known := h.known
  fresh hs := by
    have hs : p = .summarizing := hs
    rw [hs] at hp
    cases hp
  paged hs := by
    have hs : p = .paging := hs
    rw [hs] at hp
    cases hp
  inPage _ := h.inPage (Or.inr hc)

/-- A busy call that counts its row. -/
theorem CallOk.count (h : CallOk rows c) (hc : c.phase.busy = true) (hp : d.phase = .rows)
    (he : d.examined = c.examined) (hpage : d.page = c.page) (hi : d.input = c.input)
    (hl : d.last = c.last)
    (hsum : d.skippedCount+d.inFlightCount+d.claimLostCount+d.leaseLostCount+
      d.processed.length = c.skippedCount+c.inFlightCount+c.claimLostCount+c.leaseLostCount+
      c.processed.length+1) : CallOk rows d where
  counted := by
    have hcount := h.counted
    have hfin : Phase.isFinished c.phase = false := by
      cases hph : c.phase <;> simp_all [Phase.busy,Phase.isFinished]
    simp only [owed,accounted,hc,hfin,if_true,Bool.false_eq_true,if_false] at hcount
    simp only [owed,accounted,hp,he,Phase.isFinished,Phase.busy,Bool.false_eq_true,if_false]
    omega
  budget := by
    rw [he,hpage,hi]
    exact h.budget
  sorted := by
    unfold keys
    rw [he,hpage]
    exact h.sorted
  known := by
    unfold keys
    rw [he,hpage]
    exact h.known
  fresh hs := by
    rw [hp] at hs
    cases hs
  paged hs := by
    rw [hp] at hs
    cases hs
  inPage _ := by
    unfold keys
    rw [he,hpage,hl]
    exact h.inPage (Or.inr hc)

theorem callOk_start (i : Input) : CallOk rows i.call where
  counted := rfl
  budget := Nat.zero_le _
  sorted := List.Pairwise.nil
  known := by simp [keys,Input.call]
  fresh _ := rfl
  paged := by simp [Input.call]
  inPage := by simp [Input.call,Phase.busy]

theorem CallOk.summarized (h : CallOk rows c) (hp : c.phase = .summarizing) (n : ℕ)
    (ids : List ℕ) : CallOk rows (c.summarized n ids) := by
  have hnil := h.fresh hp
  have hcount := h.counted
  simp only [keys,List.append_eq_nil_iff,List.map_eq_nil_iff] at hnil
  constructor
  · simp only [owed,accounted,hp,Phase.isFinished,Phase.busy] at hcount ⊢
    exact hcount
  · exact h.budget
  · exact h.sorted
  · exact h.known
  · simp [Call.summarized]
  · intro _
    refine ⟨hnil.2,?_⟩
    simp [Call.summarized,hnil.1]
  · simp [Call.summarized,Phase.busy]

theorem CallOk.exhausted (h : CallOk rows c) (hp : c.phase = .paging) :
    CallOk rows { c with
      phase := .ended
      budgetExhausted := true } := by
  have hcount := h.counted
  constructor
  · simp only [owed,accounted,hp,Phase.isFinished,Phase.busy] at hcount ⊢
    exact hcount
  · exact h.budget
  · exact h.sorted
  · exact h.known
  · simp
  · simp
  · simp [Phase.busy]

theorem CallOk.turned (h : CallOk rows c) (hp : c.phase = .rows) (hpage : c.page = []) :
    CallOk rows c.turned := by
  have hcount := h.counted
  have hlast := h.inPage (Or.inl hp)
  simp only [keys,hpage,List.map_nil,List.append_nil] at hlast
  constructor
  · simp only [owed,accounted,hp,Phase.isFinished,Phase.busy] at hcount
    simp only [owed,accounted,Call.turned]
    split <;> simpa [Phase.isFinished,Phase.busy] using hcount
  · exact h.budget
  · exact h.sorted
  · exact h.known
  · simp only [Call.turned]
    split <;> simp
  · intro _
    exact ⟨hpage,hlast⟩
  · simp only [Call.turned]
    split <;> simp [Phase.busy]

theorem CallOk.finish (h : CallOk rows c) (hp : c.phase = .ended) : CallOk rows c.finish := by
  have hcount := h.counted
  constructor
  · simp only [owed,accounted,hp,Phase.isFinished,Phase.busy,Bool.false_eq_true,if_false,
      Nat.add_zero] at hcount
    simp only [owed,accounted,Call.finish,Phase.isFinished,Phase.busy,if_true,
      Bool.false_eq_true,if_false]
    have hmissing : ({ c with
        phase := .finished
        skippedCount := c.skippedCount+c.missing } : Call).missing = c.missing := rfl
    omega
  · exact h.budget
  · exact h.sorted
  · exact h.known
  · simp [Call.finish]
  · simp [Call.finish]
  · simp [Call.finish,Phase.busy]

/-- A row that the call made itself is passed by. -/
theorem CallOk.pass (h : CallOk rows c) (hp : c.phase = .rows) {x : Listed}
    {rest : List Listed} (hpage : c.page = x::rest) : CallOk rows { c with page := rest } := by
  have hsub : (c.examined++rest.map fun x => x.row.key).Sublist (keys c) := by
    unfold keys
    rw [hpage]
    exact (List.Sublist.refl _).append ((List.sublist_cons_self x rest).map _)
  constructor
  · exact h.counted
  · have hb := h.budget
    rw [hpage,List.length_cons] at hb
    show c.examined.length+rest.length ≤ c.input.budget
    omega
  · exact h.sorted.sublist hsub
  · exact fun k hk => h.known k (hsub.subset hk)
  · exact fun hs => by simp [hp] at hs
  · exact fun hs => by simp [hp] at hs
  · exact fun _ k hk => h.inPage (Or.inl hp) k (hsub.subset hk)

/-- A row is examined and counted, or examined and worked on. -/
theorem CallOk.examined (h : CallOk rows c) (hp : c.phase = .rows) {x : Listed}
    {rest : List Listed} (hpage : c.page = x::rest) (hd : d.page = rest)
    (he : d.examined = c.examined++[x.row.key]) (hi : d.input = c.input) (hl : d.last = c.last)
    (hphase : d.phase = .rows ∨ d.phase.busy = true)
    (hsum : accounted d = accounted c+1) : CallOk rows d := by
  have hkeys : keys d = keys c := by simp [keys,hd,he,hpage]
  have hcount := h.counted
  have hne : d.phase ≠ .summarizing ∧ d.phase ≠ .paging ∧ Phase.isFinished d.phase = false := by
    rcases hphase with hrows | hbusy
    · simp [hrows,Phase.isFinished]
    · cases hph : d.phase <;> simp_all [Phase.busy,Phase.isFinished]
  constructor
  · simp only [owed,hp,Phase.isFinished,Bool.false_eq_true,if_false,Nat.add_zero] at hcount
    simp only [owed,hne.2.2,he,List.length_append,List.length_singleton,Bool.false_eq_true,
      if_false]
    omega
  · have hb := h.budget
    rw [hpage,List.length_cons] at hb
    rw [he,hd,hi,List.length_append,List.length_singleton]
    omega
  · exact hkeys ▸ h.sorted
  · exact hkeys ▸ h.known
  · exact fun hs => absurd hs hne.1
  · exact fun hs => absurd hs hne.2.1
  · intro _
    rw [hkeys,hl]
    exact h.inPage (Or.inl hp)

theorem CallOk.examine (h : CallOk rows c) (hp : c.phase = .rows) {x : Listed}
    {rest : List Listed} (hpage : c.page = x::rest) (token : ℕ) :
    CallOk rows (c.examine x rest token) := by
  unfold Call.examine
  dsimp only
  split_ifs
  · exact h.pass hp hpage
  · refine h.examined hp hpage rfl rfl rfl rfl (Or.inl hp) ?_
    simp only [accounted]
    omega
  · refine h.examined hp hpage rfl rfl rfl rfl (Or.inl hp) ?_
    simp only [accounted]
    omega
  · refine h.examined hp hpage rfl rfl rfl rfl (Or.inr rfl) ?_
    simp [accounted,hp,Phase.busy]
  · refine h.examined hp hpage rfl rfl rfl rfl (Or.inr rfl) ?_
    simp [accounted,hp,Phase.busy]

/-- A page that follows the cursor. -/
theorem CallOk.listed (h : CallOk rows c) (hp : c.phase = .paging) {page : List Listed}
    (hlen : page.length ≤ c.input.budget-c.examined.length)
    (hbudget : c.examined.length < c.input.budget)
    (hrows : ∀ x ∈ page,x.row ∈ rows ∧ ∀ k,c.cursor = some k → k.before x.row.key = true)
    (hsorted : (page.map fun x => x.row.key).Pairwise fun a b => a.before b = true) :
    CallOk rows (c.listed page) := by
  obtain ⟨-,hcursor⟩ := h.paged hp
  have hcount := h.counted
  have hsort : (c.examined++page.map fun x => x.row.key).Pairwise
      fun a b => a.before b = true := by
    refine List.pairwise_append.mpr ⟨h.sorted.sublist (List.sublist_append_left _ _),hsorted,?_⟩
    intro a ha b hb
    obtain ⟨x,hx,rfl⟩ := List.mem_map.mp hb
    obtain ⟨l,hl,hal⟩ := hcursor a ha
    exact hal.before ((hrows x hx).2 l hl)
  constructor
  · simp only [owed,accounted,hp,Phase.isFinished,Phase.busy] at hcount
    simp only [owed,accounted,Call.listed]
    split <;> simpa [Phase.isFinished,Phase.busy] using hcount
  · show c.examined.length+page.length ≤ c.input.budget
    omega
  · exact hsort
  · intro k hk
    rcases List.mem_append.mp hk with hk | hk
    · exact h.known k (List.mem_append_left _ hk)
    · obtain ⟨x,hx,rfl⟩ := List.mem_map.mp hk
      exact ⟨x.row,(hrows x hx).1,rfl⟩
  · simp only [Call.listed]
    split <;> simp
  · simp only [Call.listed]
    split <;> simp
  · intro hph k hk
    have hne : page ≠ [] := by
      rintro rfl
      simp [Call.listed,Phase.busy] at hph
    refine ⟨(page.getLast hne).row.key,by simp [Call.listed,List.getLast?_eq_some_getLast hne],?_⟩
    have hk : k ∈ c.examined++page.map fun x => x.row.key := hk
    have hlast : c.examined++page.map (fun x => x.row.key) =
        (c.examined++page.dropLast.map fun x => x.row.key)++[(page.getLast hne).row.key] := by
      conv_lhs => rw [← List.dropLast_append_getLast hne]
      simp
    rw [hlast] at hsort hk
    rcases List.mem_append.mp hk with hk | hk
    · exact Or.inr ((List.pairwise_append.mp hsort).2.2 k hk _ (by simp))
    · exact Or.inl (List.mem_singleton.mp hk)

end

section
variable {rows : List Row} {c : Call} {row : Row}

theorem CallOk.skip (h : CallOk rows c) (hc : c.phase.busy = true) : CallOk rows c.skip := by
  refine h.count hc rfl rfl rfl rfl rfl ?_
  simp only [Call.skip]
  omega

theorem CallOk.process (h : CallOk rows c) (hc : c.phase.busy = true) (status : Option Status)
    (record : Option Attempt) (ids : List ℕ) (m n : ℕ) :
    CallOk rows { c.process row status record with
      createdAttemptIds := ids
      heldCount := m
      cancelledCount := n } := by
  refine h.count hc rfl rfl rfl rfl rfl ?_
  simp only [Call.process,List.length_append,List.length_singleton]
  omega

theorem CallOk.claimLost (h : CallOk rows c) (hc : c.phase.busy = true) :
    CallOk rows c.claimLost := by
  refine h.count hc rfl rfl rfl rfl rfl ?_
  simp only [Call.claimLost]
  omega

theorem CallOk.leaseLost (h : CallOk rows c) (hc : c.phase.busy = true) :
    CallOk rows c.leaseLost := by
  refine h.count hc rfl rfl rfl rfl rfl ?_
  simp only [Call.leaseLost]
  omega

theorem CallOk.planned (h : CallOk rows c) (hc : c.phase.busy = true) (rule : Option Rule) :
    CallOk rows (c.planned row rule) := by
  unfold Call.planned
  split
  · exact h.skip hc
  · exact h.process hc none none _ _ _
  · exact h.process hc _ none _ _ _
  · exact h.process hc none none _ _ _

theorem CallOk.claimed (h : CallOk rows c) (hc : c.phase.busy = true) (token : ℕ)
    (won : Option Row) : CallOk rows (c.claimed token won) := by
  cases won with
  | none => exact h.claimLost hc
  | some row => exact h.busy hc rfl

theorem CallOk.gated (h : CallOk rows c) (hc : c.phase.busy = true) (token outcomeId : ℕ)
    (rule : Option Rule) : CallOk rows (c.gated row token outcomeId rule) := by
  unfold Call.gated
  split <;> exact h.busy hc rfl

theorem CallOk.released (h : CallOk rows c) (hc : c.phase.busy = true) {next : AfterRelease}
    {d : Call} (hd : c.released row next = some d) : CallOk rows d := by
  cases next with
  | skip =>
      cases hd
      exact h.skip hc
  | hold =>
      cases hd
      exact h.process hc none none _ _ _
  | throw => cases hd

theorem CallOk.renewed (h : CallOk rows c) (hc : c.phase.busy = true) (token : ℕ) (rule : Rule)
    (renewed : Bool) : CallOk rows (c.renewed row token rule renewed) := by
  unfold Call.renewed
  split
  · exact h.busy hc rfl
  · exact h.leaseLost hc

theorem CallOk.completed (h : CallOk rows c) (hc : c.phase.busy = true) (outcomeId : ℕ)
    (record : Attempt) (cancelled completed : Bool) :
    CallOk rows (c.completed row outcomeId record cancelled completed) := by
  unfold Call.completed
  split
  · exact h.process hc _ _ _ _ _
  · exact h.leaseLost hc

end

structure Inv (s : State) : Prop where
  ids : (s.rows.map Row.id).Nodup
  calls : ∀ id c,s.calls id = some c → CallOk s.rows c

theorem page_bounds (i : Input) : i.page ≤ 500 ∧ 1 ≤ i.page := by
  unfold Input.page boundedInt
  cases i.pageSize with
  | none => decide
  | some n =>
      dsimp only
      split_ifs with hn
      · decide
      · constructor
        · exact min_le_right _ _
        · refine le_min ?_ (by decide)
          push_cast at hn
          omega

/-- The keys of the rows stay. -/
theorem Ledger.keys {rows rows' : List Row} {now : Time} {op : Op}
    (h : Ledger rows now op rows') : ∀ r ∈ rows,∃ r' ∈ rows',r'.key = r.key := by
  have hwrite : ∀ {p f middle},Write rows p f middle → ∀ r ∈ rows,∃ r' ∈ middle,r'.key = r.key := by
    intro p f middle hw r hr
    refine ⟨_,hw.mem hr,?_⟩
    split
    · exact hw.key r
    · rfl
  cases h with
  | same heq _ _ => exact fun r hr => ⟨r,heq ▸ hr,rfl⟩
  | claim _ _ _ _ hw _ _ => exact hwrite hw
  | renew _ _ _ _ hw _ _ => exact hwrite hw
  | release _ _ _ hw _ _ => exact hwrite hw
  | complete _ _ _ _ middle row _ hw heq _ _ _ =>
      intro r hr
      obtain ⟨r',hr',hk⟩ := hwrite hw r hr
      exact ⟨r',heq ▸ List.mem_append_left _ hr',hk⟩

theorem CallOk.rows {rows rows' : List Row} {c : Call} (h : CallOk rows c)
    (hk : ∀ r ∈ rows,∃ r' ∈ rows',r'.key = r.key) : CallOk rows' c where
  counted := h.counted
  budget := h.budget
  sorted := h.sorted
  known k hmem := by
    obtain ⟨r,hr,hrk⟩ := h.known k hmem
    obtain ⟨r',hr',hk'⟩ := hk r hr
    exact ⟨r',hr',hk'.trans hrk⟩
  fresh := h.fresh
  paged := h.paged
  inPage := h.inPage

/-- One call moves on while the rows keep their keys. -/
theorem Inv.move {s t : State} (h : Inv s) {id : ℕ} {d : Option Call}
    (hcalls : t.calls = Function.update s.calls id d) (hu : (t.rows.map Row.id).Nodup)
    (hk : ∀ r ∈ s.rows,∃ r' ∈ t.rows,r'.key = r.key)
    (hd : ∀ c,d = some c → CallOk s.rows c) : Inv t where
  ids := hu
  calls j c hc := by
    rw [hcalls] at hc
    by_cases hj : j = id
    · subst hj
      rw [Function.update_self] at hc
      exact (hd c hc).rows hk
    · rw [Function.update_of_ne hj] at hc
      exact (h.calls j c hc).rows hk

theorem inv_step : Preserved Step Inv := by
  intro s op t h hs
  have hledger := step_ledger hs
  have hu := hledger.ids h.ids
  have hkeys := hledger.keys
  have hmove : ∀ {id : ℕ} {d : Call},t.calls = Function.update s.calls id (some d) →
      CallOk s.rows d → Inv t := by
    intro id d hcalls hd
    refine h.move hcalls hu hkeys ?_
    rintro c ⟨⟩
    exact hd
  cases hs with
  | tick => exact ⟨h.ids,h.calls⟩
  | start => exact hmove rfl (callOk_start _)
  | summarize hc hp => exact hmove rfl ((h.calls _ _ hc).summarized hp _ _)
  | exhaust hc hp _ => exact hmove rfl ((h.calls _ _ hc).exhausted hp)
  | @list id c held hc hp hlt =>
      obtain ⟨hle,hpos⟩ := page_bounds c.input
      have hlimit : c.nextLimit ≤ 500 := (min_le_left _ _).trans hle
      have hne : c.nextLimit ≠ 0 := by
        unfold Call.nextLimit
        omega
      refine hmove rfl ((h.calls _ _ hc).listed hp ?_ hlt ?_ (sorted_list h.ids))
      · exact (length_list hlimit hne).trans (min_le_right _ _)
      · exact fun x hx => mem_list hx
  | next hc hp hpage => exact hmove rfl ((h.calls _ _ hc).examine hp hpage _)
  | turn hc hp hpage => exact hmove rfl ((h.calls _ _ hc).turned hp hpage)
  | plan hc hp => exact hmove rfl ((h.calls _ _ hc).planned (by rw [hp]; rfl) _)
  | claim hc hp _ => exact hmove rfl ((h.calls _ _ hc).claimed (by rw [hp]; rfl) _ _)
  | gate hc hp => exact hmove rfl ((h.calls _ _ hc).gated (by rw [hp]; rfl) _ _ _)
  | gateFails hc hp => exact hmove rfl ((h.calls _ _ hc).busy (by rw [hp]; rfl) rfl)
  | release hc hp _ =>
      refine h.move rfl hu hkeys ?_
      exact fun d hd => (h.calls _ _ hc).released (by rw [hp]; rfl) hd
  | releaseFails hc hp =>
      refine h.move rfl hu hkeys ?_
      exact fun d hd => (h.calls _ _ hc).released (by rw [hp]; rfl) hd
  | renew hc hp _ => exact hmove rfl ((h.calls _ _ hc).renewed (by rw [hp]; rfl) _ _ _)
  | renewFails hc hp => exact hmove rfl ((h.calls _ _ hc).leaseLost (by rw [hp]; rfl))
  | heartbeat _ _ => exact ⟨hu,fun id c hc => (h.calls id c hc).rows hkeys⟩
  | send hc hp _ => exact hmove rfl ((h.calls _ _ hc).busy (by rw [hp]; rfl) rfl)
  | unsent hc hp _ => exact hmove rfl ((h.calls _ _ hc).busy (by rw [hp]; rfl) rfl)
  | answered hc hp _ => exact hmove rfl ((h.calls _ _ hc).busy (by rw [hp]; rfl) rfl)
  | complete hc hp _ _ =>
      exact hmove rfl ((h.calls _ _ hc).completed (by rw [hp]; rfl) _ _ _ _)
  | finish hc hp => exact hmove rfl ((h.calls _ _ hc).finish hp)
  | abort =>
      refine h.move rfl hu hkeys ?_
      rintro d ⟨⟩

/-- The call won the row with the token. -/
def Claimed (h : List Op) (id attemptId token : ℕ) : Prop :=
  ∃ expires,.claim id attemptId token expires true ∈ h

/-- After its claim, the token renewed its lease on the live row. -/
def Renewed (s₀ : State) (h : List Op) (s : State) (id attemptId token : ℕ) : Prop :=
  ∃ k₁ expires k₂ u,h = k₁++.renew id attemptId token expires true::k₂ ∧
    Claimed k₁ id attemptId token ∧ Run Step s₀ k₁ u ∧
    Run Step u (.renew id attemptId token expires true::k₂) s ∧
    ∃ r ∈ u.rows,r.id = attemptId ∧ r.claimedBy = some token ∧ r.live = true ∧
      r.leaseActive u.clock = true

/-- What the phase of a call says about its past. -/
def Backed (s₀ : State) (h : List Op) (s : State) (id : ℕ) : Phase → Prop
  | .gating row token => Claimed h id row.id token
  | .renewing row token _ => Claimed h id row.id token
  | .cleared row token _ => Renewed s₀ h s id row.id token
  | _ => True

section
variable {s₀ s t : State} {h : List Op} {op : Op} {id : ℕ} {c : Call}

theorem Claimed.concat {attemptId token : ℕ} (hc : Claimed h id attemptId token) :
    Claimed (h++[op]) id attemptId token := by
  obtain ⟨expires,hmem⟩ := hc
  exact ⟨expires,List.mem_append_left _ hmem⟩

theorem Backed.concat {p : Phase} (hb : Backed s₀ h s id p) (hs : Step s op t) :
    Backed s₀ (h++[op]) t id p := by
  cases p with
  | gating row token => exact Claimed.concat hb
  | renewing row token rule => exact Claimed.concat hb
  | cleared row token rule =>
      obtain ⟨k₁,expires,k₂,u,rfl,hclaim,hrun,hrest,hrow⟩ := hb
      exact ⟨k₁,expires,k₂++[op],u,by simp,hclaim,hrun,.step hrest hs,hrow⟩
  | _ => trivial

theorem claimed_id {rows rows' : List Row} {now : Time} {tenantId : String}
    {attemptId token leaseMs : ℕ} {row : Row}
    (h : claimDlqDeliveryAttempt rows now tenantId attemptId token leaseMs = (some row,rows')) :
    row.id = attemptId := by
  obtain ⟨hwon,-⟩ := Prod.mk.inj h
  obtain ⟨r,hr,rfl⟩ := Option.map_eq_some_iff.mp hwon
  have hp := List.find?_some hr
  simp only [Row.claimable,Bool.and_eq_true,beq_iff_eq] at hp
  exact hp.1.1.2

theorem backed_examine (x : Listed) (rest : List Listed) (token : ℕ) (hp : c.phase = .rows) :
    Backed s₀ h s id (c.examine x rest token).phase := by
  unfold Call.examine
  dsimp only
  split_ifs <;> simp [hp,Backed]

theorem backed_planned (row : Row) (rule : Option Rule) :
    Backed s₀ h s id (c.planned row rule).phase := by
  unfold Call.planned
  split <;> trivial

theorem backed_released {row : Row} {next : AfterRelease} {d : Call}
    (hd : c.released row next = some d) : Backed s₀ h s id d.phase := by
  cases next with
  | skip =>
      cases hd
      trivial
  | hold =>
      cases hd
      trivial
  | throw => cases hd

theorem backed_gated {row : Row} {token outcomeId : ℕ} {rule : Option Rule}
    (hc : Claimed h id row.id token) :
    Backed s₀ h s id (c.gated row token outcomeId rule).phase := by
  unfold Call.gated
  split <;> trivial

theorem backed_step (hrun : Run Step s₀ h s)
    (hb : ∀ id c,s.calls id = some c → Backed s₀ h s id c.phase) (hs : Step s op t) :
    ∀ id c,t.calls id = some c → Backed s₀ (h++[op]) t id c.phase := by
  have hmove : ∀ {j : ℕ} {d : Option Call},t.calls = Function.update s.calls j d →
      (∀ e,d = some e → Backed s₀ (h++[op]) t j e.phase) →
      ∀ id c,t.calls id = some c → Backed s₀ (h++[op]) t id c.phase := by
    intro j d hcalls hd id c hc
    rw [hcalls] at hc
    by_cases hj : id = j
    · subst hj
      rw [Function.update_self] at hc
      exact hd c hc
    · rw [Function.update_of_ne hj] at hc
      exact (hb id c hc).concat hs
  have hset : ∀ {j : ℕ} {d : Call},t.calls = Function.update s.calls j (some d) →
      Backed s₀ (h++[op]) t j d.phase →
      ∀ id c,t.calls id = some c → Backed s₀ (h++[op]) t id c.phase := by
    intro j d hcalls hd
    refine hmove hcalls ?_
    rintro e ⟨⟩
    exact hd
  cases hs with
  | tick => exact fun id c hc => (hb id c hc).concat .tick
  | heartbeat hτ hdb => exact fun id c hc => (hb id c hc).concat (.heartbeat hτ hdb)
  | start => exact hset rfl trivial
  | summarize _ _ => exact hset rfl trivial
  | exhaust _ _ _ => exact hset rfl trivial
  | list _ _ _ =>
      refine hset rfl ?_
      simp only [Call.listed]
      split <;> trivial
  | next _ hp _ => exact hset rfl (backed_examine _ _ _ hp)
  | turn _ _ _ =>
      refine hset rfl ?_
      simp only [Call.turned]
      split <;> trivial
  | plan _ _ => exact hset rfl (backed_planned _ _)
  | @claim id token c row won rows hc hp hdb =>
      refine hset rfl ?_
      cases won with
      | none => trivial
      | some row' =>
          have hid := claimed_id hdb
          exact ⟨s.clock+c.input.lease,by simp [hid]⟩
  | gate hc hp =>
      have hback := hb _ _ hc
      rw [hp] at hback
      exact hset rfl (backed_gated (Claimed.concat hback))
  | gateFails _ _ => exact hset rfl trivial
  | release _ _ _ => exact hmove rfl fun e he => backed_released he
  | releaseFails _ _ => exact hmove rfl fun e he => backed_released he
  | @renew id token c row rule renewed rows hc hp hdb =>
      refine hset rfl ?_
      cases renewed with
      | false => trivial
      | true =>
          have hback := hb _ _ hc
          rw [hp] at hback
          have hstep := Step.renew hc hp hdb
          obtain ⟨hany,-⟩ := Prod.mk.inj hdb
          obtain ⟨r,hr,hrenew⟩ := List.any_eq_true.mp hany
          simp only [Row.renewable,Row.owned,Bool.and_eq_true,beq_iff_eq] at hrenew
          exact ⟨h,_,[],s,rfl,hback,hrun,.cons hstep .start,r,hr,hrenew.1.1.1.2,hrenew.1.1.2,
            hrenew.1.2,hrenew.2⟩
  | renewFails _ _ => exact hset rfl trivial
  | send _ _ _ => exact hset rfl trivial
  | unsent _ _ _ => exact hset rfl trivial
  | answered _ _ _ => exact hset rfl trivial
  | complete _ _ _ _ =>
      refine hset rfl ?_
      unfold Call.completed
      split <;> trivial
  | finish _ _ => exact hset rfl trivial
  | abort =>
      refine hmove rfl ?_
      rintro e ⟨⟩

end

section
variable {s₀ s : State} {h : List Op}

theorem Idle.inv (hi : Idle s₀) : Inv s₀ where
  ids := hi.ids
  calls id c hc := by
    rw [hi.calls id] at hc
    cases hc

theorem backed_run (hi : Idle s₀) (hr : Run Step s₀ h s) :
    ∀ id c,s.calls id = some c → Backed s₀ h s id c.phase := by
  induction hr with
  | start =>
      intro id c hc
      rw [hi.calls id] at hc
      cases hc
  | step hr hs ih => exact backed_step hr ih hs

/-- Completing a row rules out completing it again. -/
theorem completes_silences (attemptId : ℕ) :
    Silences Step Inv (fun op => op.completes attemptId = true)
      (fun s => Superseded attemptId s.rows) where
  kept _ _ _ _ hsup hs := (step_ledger hs).superseded hsup
  quiet _ _ _ hinv hsup hs hc := by
    obtain ⟨r,hr,hid,hdead⟩ := hsup
    obtain ⟨⟨q,hq,hqid,hlive⟩,-⟩ := (step_ledger hs).completes hc
    cases row_unique hinv.ids hr hq (hid.trans hqid.symm)
    rw [hdead] at hlive
    cases hlive

theorem clock_step {t : State} {op : Op} (hs : Step s op t) : s.clock ≤ t.clock := by
  cases hs with
  | tick => exact le_add_of_nonneg_right (Int.natCast_nonneg _)
  | _ => exact le_refl _

/-- What the tokens were told agrees with the ledger. -/
theorem leased_run (hr : Run Step s₀ h s) (attemptId token : ℕ) :
    ∀ L,leaseUntil attemptId token h = some L → s.clock < L →
      Leased s.rows attemptId token L := by
  induction hr with
  | start =>
      intro L hL
      cases hL
  | @step h s t op hr hs ih =>
      intro L hL hnow
      rw [leaseUntil_concat] at hL
      exact (step_ledger hs).leased ih hL ((clock_step hs).trans_lt hnow)

theorem nodup_examined {rows : List Row} {c : Call} (hu : (rows.map Row.id).Nodup)
    (hok : CallOk rows c) : (c.examined.map Prod.snd).Nodup := by
  have hsub : c.examined.Sublist (keys c) := List.sublist_append_left _ _
  refine List.pairwise_map.mpr ?_
  refine (hok.sorted.sublist hsub).imp_of_mem ?_
  intro a b ha hb hab heq
  obtain ⟨r,hr,rfl⟩ := hok.known a (hsub.subset ha)
  obtain ⟨q,hq,rfl⟩ := hok.known b (hsub.subset hb)
  cases row_unique hu hr hq heq
  rw [before_irrefl] at hab
  cases hab

end

/-- In every run, a row is completed at most once, at most one token has an unexpired lease
on it, a send follows a renewed claim of the live row, and a call that has finished examined
different rows within its budget and counted each of them once. -/
theorem redrive_protocol {s₀ s : State} {h : List Op} (hi : Idle s₀) (hr : Run Step s₀ h s) :
    (∀ attemptId,(h.filter fun op => op.completes attemptId).length ≤ 1) ∧
    (∀ attemptId τ σ L M,leaseUntil attemptId τ h = some L → leaseUntil attemptId σ h = some M →
      s.clock < L → s.clock < M → τ = σ) ∧
    (∀ id attemptId token t,Step s (.send id attemptId token) t →
      Renewed s₀ h s id attemptId token) ∧
    ∀ id c,s.calls id = some c → c.phase = .finished →
      c.examined.length ≤ c.input.budget ∧ (c.examined.map Prod.snd).Nodup ∧
      c.examined.length+c.missing = c.skippedCount+c.inFlightCount+c.claimLostCount+
        c.leaseLostCount+c.processed.length ∧
      (c.input.attemptIds = none → c.examined.length = c.skippedCount+c.inFlightCount+
        c.claimLostCount+c.leaseLostCount+c.processed.length) := by
  have hinv : Inv s := inv_step.run hi.inv hr
  refine ⟨?_,?_,?_,?_⟩
  · intro attemptId
    have honce := (completes_silences attemptId).at_most_once inv_step
      (fun s op t _ hs hc => ((step_ledger hs).completes hc).2) hi.inv hr
    simpa using honce
  · intro attemptId τ σ L M hL hM hnowL hnowM
    obtain ⟨r,hr₁,hid₁,hτ,-⟩ := leased_run hr attemptId τ L hL hnowL
    obtain ⟨q,hr₂,hid₂,hσ,-⟩ := leased_run hr attemptId σ M hM hnowM
    cases row_unique hinv.ids hr₁ hr₂ (hid₁.trans hid₂.symm)
    exact Option.some.inj (hτ.symm.trans hσ)
  · intro id attemptId token t hs
    cases hs with
    | send hc hp _ =>
        have hback := backed_run hi hr _ _ hc
        rw [hp] at hback
        exact hback
  · intro id c hc hp
    have hok := hinv.calls id c hc
    have hcount := hok.counted
    simp only [owed,accounted,hp,Phase.isFinished,Phase.busy,if_true,Bool.false_eq_true,
      if_false,Nat.add_zero] at hcount
    refine ⟨(Nat.le_add_right _ _).trans hok.budget,nodup_examined hinv.ids hok,hcount,?_⟩
    intro hnone
    have hmissing : c.missing = 0 := by
      unfold Call.missing
      rw [hnone]
    omega

def deadAttempt : Attempt :=
  ⟨.next 1,4,.webhook,.providerFailedDlq,"timeout",10,some 10,some 3,some 3,none,some "timeout",
    some true⟩

def deadRow : Row := ⟨1,"ten_a",2,"report.ready",deadAttempt,none,none,none⟩

def deadRule : Rule :=
  ⟨4,"ten_a",.webhook,"https://hooks.example.com/a",["report.ready"],true,none,reportReady_known⟩

def deadLedger : State := ⟨[deadRow],100,fun _ => none,0,0⟩

def redriveInput : Input := ⟨"ten_a",100,false,[.webhook],none,none,30000,none,none⟩

def claimedRow : Row := deadRow.claim 0 30100

def claimingCall : Call :=
  ((redriveInput.call.summarized 0 []).listed [⟨deadRow,false⟩]).examine ⟨deadRow,false⟩ [] 0

def gatingCall : Call := claimingCall.claimed 0 (some claimedRow)

def renewingCall : Call := gatingCall.gated claimedRow 0 9 (some deadRule)

def redriveOps : List Op :=
  [.start redriveInput,.summarize 0,.list 0,.next 0,.claim 0 1 0 30100 true,.gate 0,
    .renew 0 1 0 30100 true]

/-- A redrive of one dead letter, up to its send. -/
theorem redrive_sends_renewed : ∃ s,Renewed deadLedger redriveOps s 0 1 0 := by
  have hidle : Idle deadLedger := ⟨by simp [deadLedger],fun _ => rfl⟩
  have hrun : ∃ s t,Run Step deadLedger redriveOps s ∧ Step s (.send 0 1 0) t := by
    apply Exists.intro
    apply Exists.intro
    constructor
    · apply Run.cons .start
      apply Run.cons
      · exact @Step.summarize _ 0 _ 0 [] rfl rfl
      apply Run.cons
      · exact @Step.list _ 0 _ (fun _ => false) rfl rfl (by decide)
      apply Run.cons
      · exact @Step.next _ 0 _ ⟨deadRow,false⟩ [] rfl rfl rfl
      apply Run.cons
      · exact @Step.claim _ 0 0 claimingCall deadRow (some claimedRow) _ rfl rfl rfl
      apply Run.cons
      · exact @Step.gate _ 0 0 9 gatingCall claimedRow (some deadRule) rfl rfl
      apply Run.cons
      · exact @Step.renew _ 0 0 renewingCall claimedRow deadRule true _ rfl rfl rfl
      exact .start
    · exact @Step.send _ 0 0 (renewingCall.renewed claimedRow 0 deadRule true) claimedRow deadRule
        rfl rfl rfl
  obtain ⟨s,t,hrun,hsend⟩ := hrun
  exact ⟨s,(redrive_protocol hidle hrun).2.2.1 0 1 0 t hsend⟩

end AstraNull.DlqRedriveProtocol
