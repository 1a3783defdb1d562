import Mathlib
import AstraNull.NumberText
import AstraNull.JsonText
import AstraNull.ScriptValue
import AstraNull.ByteText
import AstraNull.ActivityCursor
import AstraNull.Orders

/-!
# Walking the activity list

The items of a page are the first ones of each source, so the marks of the next cursor separate
what was returned from what was not. A client that follows the cursor gets every item once, also
when items are recorded between its calls.
-/
namespace AstraNull.ActivityWalk
open NumberText JsonText ScriptValue ByteText ActivityCursor Orders

theorem rational_injective {m n : Number} (h : rational m = rational n) : m = n := by
  have hunique : ∀ x y : Magnitude,x.value = y.value → x = y := fun x y he =>
    Magnitude.rounds_unique x.rounds_value (he ▸ y.rounds_value)
  have hpos := fun x : Magnitude => x.value_pos
  cases m with
  | zero =>
      cases n with
      | zero => rfl
      | nonzero neg y =>
          have := hpos y
          cases neg <;> simp [rational] at h <;> linarith
  | nonzero neg x =>
      have hx := hpos x
      cases n with
      | zero => cases neg <;> simp [rational] at h <;> linarith
      | nonzero neg' y =>
          have hy := hpos y
          cases neg <;> cases neg' <;> simp [rational] at h
          · rw [hunique x y h]
          · linarith
          · linarith
          · rw [hunique x y h]

section
variable {localeCompare : JsString → JsString → Ordering}

/-- Keys are compared by number and then by text. -/
theorem totalOrder_compareKeys (h : TotalOrder localeCompare) :
    TotalOrder (compareKeys localeCompare) :=
  (totalOrder_compare.on fun _ _ => rational_injective).prod h

/-- Where both come from one source, the first was ingested before the second. -/
def Ahead (localeCompare : JsString → JsString → Ordering) (y x : Item) : Prop :=
  (isAudit y = true → isAudit x = true → rational (sequenceOf y) < rational (sequenceOf x)) ∧
  (isEvent y = true → isEvent x = true → compareKeys localeCompare (keyOf y) (keyOf x) = .lt)

/-- Noting an item on the cursor leaves exactly the items after it. -/
theorem newer_noteItem (h : TotalOrder localeCompare) (c : Cursor) (y x : Item) :
    isNewerThanCursor localeCompare x (noteItem localeCompare c y) = true ↔
      isNewerThanCursor localeCompare x c = true ∧ (x.ingest ≠ none → Ahead localeCompare y x) := by
  have hk := totalOrder_compareKeys h
  obtain ⟨yid,yi,yat⟩ := y
  obtain ⟨xid,xi,xat⟩ := x
  obtain ⟨a,e⟩ := c
  rcases xi with _ | (t | m)
  · simp [isNewerThanCursor]
  · rcases yi with _ | (s | k)
    · exact ⟨fun hn => ⟨hn,fun _ => ⟨nofun,nofun⟩⟩,fun hr => hr.1⟩
    · simp only [isNewerThanCursor,noteItem,Ahead,isAudit,isEvent,sequenceOf,larger,
        decide_eq_true_eq]
      split_ifs with hs
      · constructor
        · intro hst
          exact ⟨hs.trans hst,fun _ => ⟨fun _ _ => hst,by simp⟩⟩
        · exact fun hr => (hr.2 (by simp)).1 trivial trivial
      · constructor
        · intro hat
          exact ⟨hat,fun _ => ⟨fun _ _ => (not_lt.mp hs).trans_lt hat,by simp⟩⟩
        · exact fun hr => hr.1
    · have hsame : (noteItem localeCompare ⟨a,e⟩ ⟨yid,some (.event k),yat⟩).auditSequence = a := by
        cases e with
        | none => rfl
        | some n =>
            simp only [noteItem]
            split_ifs <;> rfl
      simp [isNewerThanCursor,hsame,Ahead,isAudit,isEvent]
  · rcases yi with _ | (s | k)
    · exact ⟨fun hn => ⟨hn,fun _ => ⟨nofun,nofun⟩⟩,fun hr => hr.1⟩
    · exact ⟨fun hn => ⟨hn,fun _ => ⟨nofun,nofun⟩⟩,fun hr => hr.1⟩
    · cases e with
      | none =>
          simp [isNewerThanCursor,noteItem,Ahead,isAudit,isEvent,keyOf,hk.gt_iff]
      | some n =>
          simp only [isNewerThanCursor,noteItem,Ahead,isAudit,isEvent,keyOf]
          split_ifs with hkn
          · simp only [beq_iff_eq]
            rw [hk.gt_iff] at hkn
            rw [hk.gt_iff,hk.gt_iff]
            constructor
            · intro hkm
              exact ⟨hk.trans _ _ _ hkn hkm,fun _ => ⟨by simp,fun _ _ => hkm⟩⟩
            · exact fun hr => (hr.2 (by simp)).2 trivial trivial
          · simp only [beq_iff_eq]
            constructor
            · intro hnm
              refine ⟨hnm,fun _ => ⟨by simp,fun _ _ => ?_⟩⟩
              exact hk.lt_of_not_gt hkn ((hk.gt_iff _ _).mp hnm)
            · exact fun hr => hr.1

theorem newer_foldl (h : TotalOrder localeCompare) (x : Item) (hx : x.ingest ≠ none)
    (page : List Item) (c : Cursor) :
    isNewerThanCursor localeCompare x (page.foldl (noteItem localeCompare) c) = true ↔
      isNewerThanCursor localeCompare x c = true ∧ ∀ y ∈ page,Ahead localeCompare y x := by
  induction page generalizing c with
  | nil => simp
  | cons y page ih =>
      rw [List.foldl_cons,ih,newer_noteItem h]
      simp only [hx,ne_eq,not_false_eq_true,true_implies,List.forall_mem_cons]
      rw [and_assoc]

/-- The first items of each source are taken, as many as the limit allows. -/
theorem mergeByIngestion_spec (localeCompare : JsString → JsString → Ordering) (limit : ℕ)
    (audits events : List Item) :
    ∃ j k,(mergeByIngestion localeCompare limit audits events).Perm
        (audits.take j++events.take k) ∧
      (mergeByIngestion localeCompare limit audits events).length =
        min limit (audits.length+events.length) := by
  induction limit generalizing audits events with
  | zero => exact ⟨0,0,by simp [mergeByIngestion],by simp [mergeByIngestion]⟩
  | succ limit ih =>
      cases audits with
      | nil =>
          cases events with
          | nil => exact ⟨0,0,by simp [mergeByIngestion],by simp [mergeByIngestion]⟩
          | cons e events =>
              obtain ⟨j,k,hp,hl⟩ := ih [] events
              refine ⟨j,k+1,?_,?_⟩
              · simpa [mergeByIngestion] using hp
              · simp only [mergeByIngestion,List.length_cons,hl,List.length_nil]
                omega
      | cons a audits =>
          have htake : (a::mergeByIngestion localeCompare limit audits events).length =
              min (limit+1) ((a::audits).length+events.length) ∧
              ∃ j k,(a::mergeByIngestion localeCompare limit audits events).Perm
                ((a::audits).take j++events.take k) := by
            obtain ⟨j,k,hp,hl⟩ := ih audits events
            refine ⟨?_,j+1,k,?_⟩
            · simp only [List.length_cons,hl]
              omega
            · simpa using hp
          cases events with
          | nil =>
              obtain ⟨hl,j,k,hp⟩ := htake
              exact ⟨j,k,hp,hl⟩
          | cons e events =>
              rw [mergeByIngestion]
              split_ifs with hshown
              · obtain ⟨hl,j,k,hp⟩ := htake
                exact ⟨j,k,hp,hl⟩
              · obtain ⟨j,k,hp,hl⟩ := ih (a::audits) events
                refine ⟨j,k+1,?_,?_⟩
                · rw [List.take_succ_cons]
                  exact (hp.cons e).trans List.perm_middle.symm
                · simp only [List.length_cons,hl]
                  omega

theorem boundedLimit_pos (limit : Numeric) : 0 < boundedLimit limit := by
  cases limit with
  | finite n =>
      simp only [boundedLimit]
      split_ifs
      · omega
      · have := le_max_left (1 : ℤ) (min 500 ⌊rational n⌋)
        omega
  | infinite neg => cases neg <;> decide
  | nan => decide

/-- A positive safe sequence number, or a key within the bounds of the cursor. -/
def validItem (i : Item) : Prop :=
  match i.ingest with
  | some (.audit s) => 0 < rational s ∧ safeSequence s = true
  | some (.event k) => safeKey k = true
  | none => False

structure Valid (items : List Item) : Prop where
  each : ∀ i ∈ items,validItem i
  distinct : (items.map Item.ingest).Nodup

variable {items fresh : List Item}

theorem validItem.ingest_ne {i : Item} (h : validItem i) : i.ingest ≠ none := by
  intro he
  simp [validItem,he] at h

theorem validItem.source {i : Item} (h : validItem i) : isAudit i = true ∨ isEvent i = true := by
  obtain ⟨id,_ | (s | k),shown⟩ := i
  · exact absurd rfl h.ingest_ne
  · exact Or.inl rfl
  · exact Or.inr rfl

theorem not_both {i : Item} (ha : isAudit i = true) : isEvent i = false := by
  obtain ⟨id,_ | (s | k),shown⟩ := i
  · rfl
  · rfl
  · cases ha

theorem Valid.filter (h : Valid items) (p : Item → Bool) : Valid (items.filter p) :=
  ⟨fun i hi => h.each i (List.mem_of_mem_filter hi),
    h.distinct.sublist (List.filter_sublist.map Item.ingest)⟩

theorem Valid.nodup (h : Valid items) : items.Nodup := List.Nodup.of_map Item.ingest h.distinct

theorem distinct_sort (h : Valid fresh) {p : Item → Bool} {l : List Item}
    (hl : l.Perm (fresh.filter p)) : l.Pairwise fun i j => i.ingest ≠ j.ingest := by
  have hnodup : (l.map Item.ingest).Nodup :=
    ((hl.map Item.ingest).nodup_iff).mpr (h.filter p).distinct
  exact List.pairwise_map.mp hnodup

theorem strict_audits (h : Valid fresh) : (sortAudits (fresh.filter isAudit)).Pairwise
    fun i j => rational (sequenceOf i) < rational (sequenceOf j) := by
  have hperm : (sortAudits (fresh.filter isAudit)).Perm (fresh.filter isAudit) :=
    List.perm_insertionSort _ _
  have : Std.Total fun i j : Item => rational (sequenceOf i) ≤ rational (sequenceOf j) :=
    ⟨fun i j => le_total _ _⟩
  have : IsTrans Item fun i j => rational (sequenceOf i) ≤ rational (sequenceOf j) :=
    ⟨fun i j k hij hjk => hij.trans hjk⟩
  have hsorted : (sortAudits (fresh.filter isAudit)).Pairwise
      fun i j => rational (sequenceOf i) ≤ rational (sequenceOf j) := List.pairwise_insertionSort _ _
  refine (hsorted.and (distinct_sort h hperm)).imp_of_mem fun {i j} hi hj hij => ?_
  refine lt_of_le_of_ne hij.1 fun he => hij.2 ?_
  have haudit : ∀ x ∈ sortAudits (fresh.filter isAudit),x.ingest = some (.audit (sequenceOf x)) := by
    intro x hx
    have ha := (List.mem_filter.mp (hperm.mem_iff.mp hx)).2
    obtain ⟨id,_ | (s | k),shown⟩ := x
    · cases ha
    · rfl
    · cases ha
  rw [haudit i hi,haudit j hj,rational_injective he]

theorem strict_events (h : TotalOrder localeCompare) (hv : Valid fresh) :
    (sortEvents localeCompare (fresh.filter isEvent)).Pairwise
      fun i j => compareKeys localeCompare (keyOf i) (keyOf j) = .lt := by
  have hk := totalOrder_compareKeys h
  have hperm : (sortEvents localeCompare (fresh.filter isEvent)).Perm (fresh.filter isEvent) :=
    List.perm_insertionSort _ _
  have : Std.Total fun i j : Item => compareKeys localeCompare (keyOf i) (keyOf j) ≠ .gt := by
    refine ⟨fun i j => ?_⟩
    rw [hk.swap (keyOf i) (keyOf j)]
    cases compareKeys localeCompare (keyOf i) (keyOf j) <;> simp
  have : IsTrans Item fun i j => compareKeys localeCompare (keyOf i) (keyOf j) ≠ .gt := by
    refine ⟨fun i j k hij hjk hik => ?_⟩
    have hlt := hk.lt_of_not_gt hjk ((hk.gt_iff _ _).mp hik)
    exact hij ((hk.gt_iff _ _).mpr hlt)
  have hsorted : (sortEvents localeCompare (fresh.filter isEvent)).Pairwise
      fun i j => compareKeys localeCompare (keyOf i) (keyOf j) ≠ .gt :=
    List.pairwise_insertionSort _ _
  refine (hsorted.and (distinct_sort hv hperm)).imp_of_mem fun {i j} hi hj hij => ?_
  have hevent : ∀ x ∈ sortEvents localeCompare (fresh.filter isEvent),
      x.ingest = some (.event (keyOf x)) := by
    intro x hx
    have he := (List.mem_filter.mp (hperm.mem_iff.mp hx)).2
    obtain ⟨id,_ | (s | k),shown⟩ := x
    · cases he
    · cases he
    · rfl
  cases hcmp : compareKeys localeCompare (keyOf i) (keyOf j) with
  | lt => rfl
  | eq =>
      refine absurd ?_ hij.2
      rw [hevent i hi,hevent j hj,(hk.eq_iff _ _).mp hcmp]
  | gt => exact absurd hcmp hij.1

theorem take_before_drop {α : Type} {R : α → α → Prop} {l : List α} (h : l.Pairwise R) (j : ℕ)
    {y x : α} (hy : y ∈ l.take j) (hx : x ∈ l) (hnot : x ∉ l.take j) : R y x := by
  rw [← List.take_append_drop j l] at h hx
  rcases List.mem_append.mp hx with hx | hx
  · exact absurd hx hnot
  · exact (List.pairwise_append.mp h).2.2 y hy x hx

/-- What is on the page is what the page is not ahead of. -/
theorem mem_page_iff (h : TotalOrder localeCompare) (hv : Valid fresh) (previous : Option Cursor)
    (limit : Numeric) {x : Item} (hx : x ∈ fresh) :
    x ∈ (pageOf localeCompare items fresh previous limit).items ↔
      ¬ ∀ y ∈ (pageOf localeCompare items fresh previous limit).items,Ahead localeCompare y x := by
  obtain ⟨j,k,hperm,-⟩ := mergeByIngestion_spec localeCompare
    (boundedLimit limit) (sortAudits (fresh.filter isAudit))
    (sortEvents localeCompare (fresh.filter isEvent))
  have hpage : ∀ y,y ∈ (pageOf localeCompare items fresh previous limit).items ↔ y ∈ fresh ∧
      (y ∈ (sortAudits (fresh.filter isAudit)).take j ∨
        y ∈ (sortEvents localeCompare (fresh.filter isEvent)).take k) := by
    intro y
    simp only [pageOf,List.mem_filter,List.contains_iff_mem,hperm.mem_iff,List.mem_append]
  have haudit : ∀ y ∈ (sortAudits (fresh.filter isAudit)).take j,isAudit y = true := fun y hy =>
    (List.mem_filter.mp ((List.perm_insertionSort _ _).mem_iff.mp (List.mem_of_mem_take hy))).2
  have hevent : ∀ y ∈ (sortEvents localeCompare (fresh.filter isEvent)).take k,isEvent y = true :=
    fun y hy => (List.mem_filter.mp ((List.perm_insertionSort _ _).mem_iff.mp
      (List.mem_of_mem_take hy))).2
  constructor
  · intro hm hall
    have hself := hall x hm
    rcases (hv.each x hx).source with ha | he
    · exact lt_irrefl _ (hself.1 ha ha)
    · have hlt := hself.2 he he
      rw [(totalOrder_compareKeys h).refl] at hlt
      cases hlt
  · intro hall
    by_contra hnot
    refine hall fun y hy => ?_
    have hnot' := fun hmem => hnot ((hpage x).mpr ⟨hx,hmem⟩)
    rw [hpage] at hy
    constructor
    · intro hya hxa
      have hxm : x ∈ sortAudits (fresh.filter isAudit) :=
        (List.perm_insertionSort _ _).mem_iff.mpr (List.mem_filter.mpr ⟨hx,hxa⟩)
      rcases hy.2 with hy' | hy'
      · exact take_before_drop (strict_audits hv) j hy' hxm fun hm => hnot' (Or.inl hm)
      · have := hevent y hy'
        rw [not_both hya] at this
        cases this
    · intro hye hxe
      have hxm : x ∈ sortEvents localeCompare (fresh.filter isEvent) :=
        (List.perm_insertionSort _ _).mem_iff.mpr (List.mem_filter.mpr ⟨hx,hxe⟩)
      rcases hy.2 with hy' | hy'
      · rw [not_both (haudit y hy')] at hye
        cases hye
      · exact take_before_drop (strict_events h hv) k hy' hxm fun hm => hnot' (Or.inr hm)

theorem page_ne_nil (hv : Valid fresh) (previous : Option Cursor) (limit : Numeric)
    (hne : fresh ≠ []) : (pageOf localeCompare items fresh previous limit).items ≠ [] := by
  obtain ⟨j,k,hperm,hlen⟩ := mergeByIngestion_spec localeCompare
    (boundedLimit limit) (sortAudits (fresh.filter isAudit))
    (sortEvents localeCompare (fresh.filter isEvent))
  obtain ⟨x,hx⟩ := List.exists_mem_of_ne_nil fresh hne
  have hsome : 0 < (sortAudits (fresh.filter isAudit)).length+
      (sortEvents localeCompare (fresh.filter isEvent)).length := by
    rcases (hv.each x hx).source with ha | he
    · have := List.length_pos_of_mem ((List.perm_insertionSort
        (fun i j => rational (sequenceOf i) ≤ rational (sequenceOf j)) _).mem_iff.mpr
          (List.mem_filter.mpr ⟨hx,ha⟩))
      exact Nat.add_pos_left this _
    · have := List.length_pos_of_mem ((List.perm_insertionSort
        (fun i j => compareKeys localeCompare (keyOf i) (keyOf j) ≠ .gt) _).mem_iff.mpr
          (List.mem_filter.mpr ⟨hx,he⟩))
      exact Nat.add_pos_right _ this
  have hpos := boundedLimit_pos limit
  obtain ⟨y,hy⟩ := List.exists_mem_of_length_pos (by rw [hlen]; omega :
    0 < (mergeByIngestion localeCompare (boundedLimit limit) (sortAudits (fresh.filter isAudit))
      (sortEvents localeCompare (fresh.filter isEvent))).length)
  refine List.ne_nil_of_mem (List.mem_filter.mpr ⟨?_,List.contains_iff_mem.mpr hy⟩ :
    y ∈ (pageOf localeCompare items fresh previous limit).items)
  rcases List.mem_append.mp (hperm.mem_iff.mp hy) with hm | hm
  · exact List.mem_of_mem_filter ((List.perm_insertionSort _ _).mem_iff.mp (List.mem_of_mem_take hm))
  · exact List.mem_of_mem_filter ((List.perm_insertionSort _ _).mem_iff.mp (List.mem_of_mem_take hm))

/-- The marks are those of recorded items. -/
structure Marks (items : List Item) (c : Cursor) : Prop where
  audit : c.auditSequence = .zero ∨ ∃ i ∈ items,i.ingest = some (.audit c.auditSequence)
  event : ∀ k,c.eventKey = some k → ∃ i ∈ items,i.ingest = some (.event k)

/-- The client holds the text of the cursor, and has got the items the cursor is past. -/
structure Progress (localeCompare : JsString → JsString → Ordering) (items returned : List Item)
    (after : Option JsString) (c : Cursor) : Prop where
  reads : (after = none ∧ c = .start) ∨
    ∃ raw,after = some raw ∧ raw ≠ [] ∧ decodeActivityCursor raw = some c
  marks : Marks items c
  nodup : returned.Nodup
  mem : ∀ i,i ∈ returned ↔ i ∈ items ∧ isNewerThanCursor localeCompare i c = false

theorem marks_foldl {c : Cursor} (h : Marks items c) {page : List Item} (hp : ∀ i ∈ page,i ∈ items) :
    Marks items (page.foldl (noteItem localeCompare) c) := by
  induction page generalizing c with
  | nil => exact h
  | cons y page ih =>
      refine ih ?_ fun i hi => hp i (List.mem_cons_of_mem y hi)
      have hy := hp y List.mem_cons_self
      obtain ⟨id,_ | (s | k),shown⟩ := y
      · exact h
      · refine ⟨?_,h.event⟩
        simp only [noteItem,larger]
        split_ifs
        · exact Or.inr ⟨_,hy,rfl⟩
        · exact h.audit
      · have hnew : Marks items { c with eventKey := some k } := by
          refine ⟨h.audit,fun m hm => ?_⟩
          cases hm
          exact ⟨_,hy,rfl⟩
        simp only [noteItem]
        split
        · exact hnew
        · split_ifs
          · exact hnew
          · exact h

theorem safe_of_marks (hv : Valid items) {c : Cursor} (h : Marks items c) : safeCursor c = true := by
  have haudit : safeSequence c.auditSequence = true := by
    rcases h.audit with hz | ⟨i,hi,he⟩
    · rw [hz]
      norm_num [safeSequence,isSafeInteger,rational,maxSafeInteger]
    · have hvi := hv.each i hi
      simp only [validItem,he] at hvi
      exact hvi.2
  have hevent : c.eventKey.all safeKey = true := by
    cases hk : c.eventKey with
    | none => rfl
    | some k =>
        obtain ⟨i,hi,he⟩ := h.event k hk
        have hvi := hv.each i hi
        simp only [validItem,he] at hvi
        exact hvi
  simp [safeCursor,haudit,hevent]

theorem known_of_marks (h : TotalOrder localeCompare) {c : Cursor} (hm : Marks items c) :
    cursorKnown localeCompare items c = true := by
  simp only [cursorKnown,Bool.and_eq_true,Bool.or_eq_true,Bool.not_eq_true',decide_eq_false_iff_not,
    List.any_eq_true,beq_iff_eq]
  constructor
  · rcases hm.audit with hz | ⟨i,hi,he⟩
    · left
      rw [hz]
      exact lt_irrefl 0
    · exact Or.inr ⟨i,hi,he⟩
  · cases hk : c.eventKey with
    | none => rfl
    | some k =>
        obtain ⟨i,hi,he⟩ := hm.event k hk
        simp only [List.any_eq_true]
        exact ⟨i,hi,by simp [he,(totalOrder_compareKeys h).refl]⟩

theorem newer_start {i : Item} (h : validItem i) : isNewerThanCursor localeCompare i .start = true := by
  obtain ⟨id,_ | (s | k),shown⟩ := i
  · exact absurd rfl h.ingest_ne
  · have hpos : rational Cursor.start.auditSequence < rational s := h.1
    exact decide_eq_true hpos
  · rfl

/-- Both kinds of calls look at the items after the cursor. -/
theorem paginate_eq (h : TotalOrder localeCompare) (hv : Valid items) {returned : List Item}
    {after : Option JsString} {c : Cursor} (hp : Progress localeCompare items returned after c)
    (limit : Numeric) : ∃ previous : Option Cursor,previous.getD .start = c ∧
      paginateActivity localeCompare items after limit = .ok (pageOf localeCompare items
        (items.filter fun i => isNewerThanCursor localeCompare i c) previous limit) := by
  rcases hp.reads with ⟨rfl,rfl⟩ | ⟨raw,rfl,hne,hd⟩
  · refine ⟨none,rfl,?_⟩
    have hall : items.filter (fun i => isNewerThanCursor localeCompare i .start) = items :=
      List.filter_eq_self.mpr fun i hi => newer_start (hv.each i hi)
    rw [paginateActivity,hall]
  · refine ⟨some c,rfl,?_⟩
    simp only [paginateActivity,if_neg hne,hd,known_of_marks h hp.marks,Bool.not_true,
      Bool.false_eq_true,if_false]

theorem encode_ne_nil (c : Cursor) : encodeActivityCursor c ≠ [] := by
  intro he
  have := congrArg List.length he
  simp [encodeActivityCursor,js] at this

/-- One call: it succeeds, returns new items, and the cursor is past exactly what was returned. -/
theorem progress_step (h : TotalOrder localeCompare) (hv : Valid items) {returned : List Item}
    {after : Option JsString} {c : Cursor} (hp : Progress localeCompare items returned after c)
    (limit : Numeric) : ∃ page c',paginateActivity localeCompare items after limit = .ok page ∧
      Progress localeCompare items (returned++page.items) (some page.cursor) c' ∧
      (page.hasMore = false → ∀ i ∈ items,i ∈ returned++page.items) ∧
      (page.hasMore = true → page.items ≠ []) := by
  obtain ⟨previous,hprevious,heq⟩ := paginate_eq h hv hp limit
  set fresh := items.filter fun i => isNewerThanCursor localeCompare i c with hfresh
  have hvf : Valid fresh := hv.filter _
  set page := pageOf localeCompare items fresh previous limit with hpage
  have hsub : ∀ i ∈ page.items,i ∈ fresh := fun i hi => List.mem_of_mem_filter hi
  have hcursor : page.cursor = encodeActivityCursor (page.items.foldl (noteItem localeCompare) c) := by
    rw [hpage,← hprevious]
    rfl
  have hmarks : Marks items (page.items.foldl (noteItem localeCompare) c) :=
    marks_foldl hp.marks fun i hi => List.mem_of_mem_filter (hsub i hi)
  refine ⟨page,page.items.foldl (noteItem localeCompare) c,heq,⟨Or.inr ?_,hmarks,?_,?_⟩,?_,?_⟩
  · refine ⟨_,rfl,by rw [hcursor]; exact encode_ne_nil _,?_⟩
    rw [hcursor,decode_encode,if_pos (safe_of_marks hv hmarks)]
  · rw [List.nodup_append]
    refine ⟨hp.nodup,hvf.nodup.filter _,fun a ha b hb he => ?_⟩
    have hold := ((hp.mem a).mp ha).2
    have hnew := (List.mem_filter.mp (hsub b hb)).2
    rw [he,hnew] at hold
    cases hold
  · intro i
    rw [List.mem_append,hp.mem]
    by_cases hi : i ∈ items
    · have hnewer := newer_foldl h i (hv.each i hi).ingest_ne page.items c
      cases hold : isNewerThanCursor localeCompare i c with
      | false =>
          have hfalse : isNewerThanCursor localeCompare i
              (page.items.foldl (noteItem localeCompare) c) = false := by
            by_contra hc
            have := (hnewer.mp (by simpa using hc)).1
            rw [hold] at this
            cases this
          simp [hi,hfalse]
      | true =>
          have hif : i ∈ fresh := List.mem_filter.mpr ⟨hi,hold⟩
          rw [mem_page_iff h hvf previous limit hif]
          simp only [hi,true_and,Bool.true_eq_false,false_or]
          rw [← Bool.not_eq_true,hnewer,hold]
          simp only [true_and]
          rfl
    · constructor
      · rintro (⟨hm,-⟩ | hm)
        · exact absurd hm hi
        · exact absurd (List.mem_of_mem_filter (hsub i hm)) hi
      · exact fun hm => absurd hm.1 hi
  · intro hmore i hi
    rw [List.mem_append]
    cases hold : isNewerThanCursor localeCompare i c with
    | false => exact Or.inl ((hp.mem i).mpr ⟨hi,hold⟩)
    | true =>
        right
        have hlen : fresh.length ≤ page.items.length := by
          have : ¬ page.items.length < fresh.length := of_decide_eq_false hmore
          omega
        have hall : page.items = fresh := List.filter_sublist.eq_of_length_le hlen
        rw [hall]
        exact List.mem_filter.mpr ⟨hi,hold⟩
  · intro hmore
    refine page_ne_nil hvf previous limit fun hnil => ?_
    have : page.items.length < fresh.length := of_decide_eq_true hmore
    rw [hnil] at this
    simp at this

/-- Everything new has a later sequence number, or a later key, than what its source had. -/
def Grows (localeCompare : JsString → JsString → Ordering) (old new : List Item) : Prop :=
  ∃ added,new.Perm (old++added) ∧ ∀ i ∈ added,∀ o ∈ old,Ahead localeCompare o i

/-- The lists of successive calls. -/
def Growing (localeCompare : JsString → JsString → Ordering) : List Item → List (List Item) → Prop
  | _,[] => True
  | old,new::later => Valid new ∧ Grows localeCompare old new ∧ Growing localeCompare new later

theorem progress_grows (h : TotalOrder localeCompare) {new returned : List Item}
    {after : Option JsString} {c : Cursor} (hv : Valid new)
    (hp : Progress localeCompare items returned after c) (hg : Grows localeCompare items new) :
    Progress localeCompare new returned after c := by
  obtain ⟨added,hperm,hahead⟩ := hg
  have hold : ∀ i ∈ items,i ∈ new := fun i hi => hperm.mem_iff.mpr (List.mem_append_left _ hi)
  refine ⟨hp.reads,⟨?_,?_⟩,hp.nodup,fun i => ?_⟩
  · exact hp.marks.audit.imp id fun ⟨i,hi,he⟩ => ⟨i,hold i hi,he⟩
  · intro k hk
    obtain ⟨i,hi,he⟩ := hp.marks.event k hk
    exact ⟨i,hold i hi,he⟩
  · rw [hp.mem]
    constructor
    · exact fun hi => ⟨hold i hi.1,hi.2⟩
    · rintro ⟨hi,hnot⟩
      rcases List.mem_append.mp (hperm.mem_iff.mp hi) with ho | hadd
      · exact ⟨ho,hnot⟩
      · -- a new item is after the marks, which are those of old items
        exfalso
        have hvi := hv.each i hi
        have hnewer : isNewerThanCursor localeCompare i c = true := by
          obtain ⟨id,_ | (s | k),shown⟩ := i
          · exact absurd rfl hvi.ingest_ne
          · rcases hp.marks.audit with hz | ⟨o,ho,he⟩
            · have hpos : rational c.auditSequence < rational s := by
                rw [hz]
                exact hvi.1
              exact decide_eq_true hpos
            · have hlt := (hahead _ hadd o ho).1 (by simp [isAudit,he]) rfl
              have hseq : sequenceOf o = c.auditSequence := by simp [sequenceOf,he]
              rw [hseq] at hlt
              exact decide_eq_true hlt
          · cases hk : c.eventKey with
            | none => simp [isNewerThanCursor,hk]
            | some m =>
                obtain ⟨o,ho,he⟩ := hp.marks.event m hk
                have hlt := (hahead _ hadd o ho).2 (by simp [isEvent,he]) rfl
                have hkey : keyOf o = m := by simp [keyOf,he]
                rw [hkey] at hlt
                have hgt := ((totalOrder_compareKeys h).gt_iff k m).mpr hlt
                simp [isNewerThanCursor,hk,hgt]
        rw [hnot] at hnewer
        cases hnewer

theorem poll_progress (h : TotalOrder localeCompare) (polls : List Poll) (later : List (List Item))
    {returned : List Item} {after : Option JsString} {c : Cursor}
    (hp : Progress localeCompare items returned after c)
    (hg : Growing localeCompare items (polls.map Prod.fst++later)) :
    ∃ got after' c' last,poll localeCompare after polls = .ok (got,after') ∧
      Progress localeCompare last (returned++got) after' c' ∧ Growing localeCompare last later := by
  induction polls generalizing items returned after c with
  | nil => exact ⟨[],after,c,items,rfl,by simpa using hp,hg⟩
  | cons p polls ih =>
      obtain ⟨new,limit⟩ := p
      obtain ⟨hv,hgrows,hrest⟩ := hg
      obtain ⟨page,c₁,hpage,hnext,-,-⟩ := progress_step h hv (progress_grows h hv hp hgrows) limit
      obtain ⟨got,after',c',last,hpoll,hlast,hlater⟩ := ih hnext hrest
      refine ⟨page.items++got,after',c',last,?_,by rwa [← List.append_assoc],hlater⟩
      rw [poll,hpage]
      simp only [bind,Except.bind,hpoll]

theorem drain_progress (h : TotalOrder localeCompare) (hv : Valid items) (limit : Numeric) (calls : ℕ)
    {returned : List Item} {after : Option JsString} {c : Cursor}
    (hp : Progress localeCompare items returned after c)
    (hcalls : items.length < returned.length+calls) :
    ∃ rest,drain localeCompare items limit calls after = some (.ok rest) ∧
      (returned++rest).Perm items := by
  induction calls generalizing returned after c with
  | zero =>
      have hle : returned.length ≤ items.length :=
        (hp.nodup.subperm fun i hi => ((hp.mem i).mp hi).1).length_le
      omega
  | succ calls ih =>
      obtain ⟨page,c₁,hpage,hnext,hlast,hmore⟩ := progress_step h hv hp limit
      cases hm : page.hasMore with
      | false =>
          refine ⟨page.items,by simp [drain,hpage,hm],?_⟩
          rw [List.perm_ext_iff_of_nodup hnext.nodup hv.nodup]
          exact fun i => ⟨fun hi => ((hnext.mem i).mp hi).1,hlast hm i⟩
      | true =>
          have hpos := List.length_pos_of_ne_nil (hmore hm)
          obtain ⟨rest,hrest,hperm⟩ := ih hnext (by rw [List.length_append]; omega)
          refine ⟨page.items++rest,?_,by rwa [← List.append_assoc]⟩
          simp [drain,hpage,hm,hrest,Except.map]

end

theorem pageOf_event (cmp : JsString → JsString → Ordering) {i : Item} {k : EventKey}
    (h : i.ingest = some (.event k)) (limit : Numeric) :
    pageOf cmp [i] [i] none limit = ⟨[i],encodeActivityCursor ⟨.zero,some k⟩,false,1⟩ := by
  obtain ⟨n,hn⟩ := Nat.exists_eq_add_one_of_ne_zero (boundedLimit_pos limit).ne'
  have haudit : isAudit i = false := by simp [isAudit,h]
  have hevent : isEvent i = true := by simp [isEvent,h]
  simp [pageOf,haudit,hevent,sortAudits,sortEvents,hn,mergeByIngestion,cursorAfter,noteItem,h,
    Cursor.start]

/-- The cursor written for an event with a long id is not read back. -/
theorem poll_long_id (cmp : JsString → JsString → Ordering) {i : Item} {k : EventKey}
    (h : i.ingest = some (.event k)) (hlong : 256 < k.2.length) (hid : i.id.head? ≠ some 99)
    (limit : Numeric) :
    poll cmp none [([i],limit),([i],limit)] = .error .invalidActivityCursor := by
  have hbad : safeCursor ⟨.zero,some k⟩ = false := by simp [safeCursor,safeKey,hlong]
  have hdecode : decodeActivityCursor (encodeActivityCursor ⟨.zero,some k⟩) = none := by
    simp [decode_encode,hbad]
  have hforeign : (i.id == encodeActivityCursor ⟨.zero,some k⟩) = false := by
    refine beq_eq_false_iff_ne.mpr fun he => hid ?_
    rw [he]
    rfl
  have hfirst : paginateActivity cmp [i] none limit =
      .ok ⟨[i],encodeActivityCursor ⟨.zero,some k⟩,false,1⟩ := by
    rw [paginateActivity,pageOf_event cmp h]
  have hsecond : paginateActivity cmp [i] (some (encodeActivityCursor ⟨.zero,some k⟩)) limit =
      .error .invalidActivityCursor := by
    simp [paginateActivity,encode_ne_nil,hdecode,hforeign]
  rw [poll,hfirst]
  simp only [bind,Except.bind,poll,hsecond]

/-- An event whose id is one unit longer than a cursor may carry. -/
def longEvent : Item := ⟨List.replicate 257 97,some (.event (.zero,List.replicate 257 97)),[]⟩

theorem long_id_invalidates_cursor :
    TotalOrder (compare : JsString → JsString → Ordering) ∧
    (∃ k,longEvent.ingest = some (.event k) ∧ 0 ≤ rational k.1) ∧
    poll compare none [([longEvent],.finite .zero),([longEvent],.finite .zero)] =
      .error .invalidActivityCursor :=
  ⟨totalOrder_compare,⟨_,rfl,le_refl 0⟩,
    poll_long_id compare rfl (by rw [List.length_replicate]; decide) (by decide) _⟩

/-- Calls over growing lists never report an invalid cursor, and as many further calls as there
are items complete the walk: every item is returned exactly once. -/
theorem activity_walk {localeCompare : JsString → JsString → Ordering}
    (h : TotalOrder localeCompare) (polls : List Poll) (items : List Item) (limit : Numeric)
    (hg : Growing localeCompare [] (polls.map Prod.fst++[items])) :
    ∃ got after rest,poll localeCompare none polls = .ok (got,after) ∧
      drain localeCompare items limit (items.length+1) after = some (.ok rest) ∧
      (got++rest).Perm items := by
  have hstart : Progress localeCompare [] [] none .start :=
    ⟨Or.inl ⟨rfl,rfl⟩,⟨Or.inl rfl,nofun⟩,List.nodup_nil,by simp⟩
  obtain ⟨got,after,c,last,hpoll,hp,hv,hgrows,-⟩ := poll_progress h polls [items] hstart hg
  obtain ⟨rest,hdrain,hperm⟩ := drain_progress h hv limit (items.length+1)
    (progress_grows h hv hp hgrows) (by omega)
  exact ⟨got,after,rest,hpoll,hdrain,hperm⟩

def recorded : Item := ⟨js "audit_1",some (.audit Number.one),js "2026-01-01"⟩

def observed : Item := ⟨js "event_1",some (.event (.zero,js "event_1")),js "2025-12-31"⟩

theorem activity_walk_late_event : ∃ got after rest,
    poll compare none [([recorded],.nan)] = .ok (got,after) ∧
      drain compare [recorded,observed] .nan 3 after = some (.ok rest) ∧
      (got++rest).Perm [recorded,observed] := by
  refine activity_walk totalOrder_compare [([recorded],.nan)] [recorded,observed] .nan ?_
  have hone : validItem recorded := by
    have hvalue : rational (sequenceOf recorded) = 1 := by
      have hpow : (2 : ℚ)^52*2^1022 = 2^1074 := (pow_add 2 52 1022).symm
      simp only [recorded,Number.one,sequenceOf,rational,Magnitude.value,Magnitude.scale,Bool.false_eq_true,
        if_false]
      rw [div_eq_one_iff_eq (by positivity),mul_assoc,Nat.cast_pow,Nat.cast_ofNat,hpow]
    change 0 < rational (sequenceOf recorded) ∧ safeSequence (sequenceOf recorded) = true
    simp only [safeSequence,isSafeInteger,hvalue]
    norm_num [maxSafeInteger]
  have hzero : validItem observed := by
    simp [validItem,observed,safeKey,rational,js]
  refine ⟨⟨?_,?_⟩,?_,⟨?_,?_⟩,?_,trivial⟩
  · simpa using hone
  · decide
  · exact ⟨[recorded],by simp,by simp⟩
  · simpa using ⟨hone,hzero⟩
  · decide
  · refine ⟨[observed],by simp,?_⟩
    intro i hi o ho
    rw [List.mem_singleton.mp hi,List.mem_singleton.mp ho]
    exact ⟨fun _ h => absurd h (by decide),fun h => absurd h (by decide)⟩
end AstraNull.ActivityWalk
