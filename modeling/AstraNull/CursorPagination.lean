import Mathlib
import AstraNull.NumberText
import AstraNull.JsonText
import AstraNull.ScriptValue
import AstraNull.ByteText
import AstraNull.ProbeProfile

/-!
# Cursor pagination

`lib/cursorPagination.mjs`: the cursor names the last item of a page, and the next page starts
behind it. A cursor whose item is not in the list starts at the first page again.
-/
namespace AstraNull.CursorPagination
open NumberText JsonText ScriptValue ByteText
open ProbeProfile (numeral exists_numeral)

def encodeCursor (payload : JsVal) : JsString := base64Url (utf8 (text payload))

def decodeCursor (cursor : JsVal) : Option JsVal :=
  if !truthy cursor then none
  else match parse (fromUtf8 (fromBase64Url (toStr cursor))) with
    | some parsed => if isObject parsed then some parsed else none
    | none => none

/-- `Math.max(1, Math.min(Math.floor(Number(limit) || fallback), max))` -/
def clampPageLimit (max fallback : ℕ) (limit : JsVal) : ℕ :=
  match toNumber limit with
  | .finite .zero => Nat.max 1 (Nat.min fallback max)
  | .finite n => Nat.max 1 (min ⌊rational n⌋ (max : ℤ)).toNat
  | .infinite neg => if neg then 1 else Nat.max 1 max
  | .nan => Nat.max 1 (Nat.min fallback max)

structure Page where
  items : List JsVal
  nextCursor : Option JsString
  count : ℕ

/-- The payload of a cursor. -/
def namedBy (cursorField id : JsString) : JsVal := .obj [(cursorField,.str id)]

section
variable (cursorField : JsString)

def startIndex (items : List JsVal) (decoded : Option JsVal) : ℕ :=
  match decoded with
  | none => 0
  | some d =>
      if nullish (d.get cursorField) then 0
      else
        let idx := items.findIdx fun item => strictEq (item.get cursorField) (d.get cursorField)
        if idx < items.length then idx+1 else 0

def paginateItems (limit : JsVal) (items : List JsVal) (cursor : JsVal) : Page :=
  let limit := clampPageLimit 100 50 limit
  let start := startIndex cursorField items (decodeCursor cursor)
  let page := (items.drop start).take limit
  let next := match page.getLast? with
    | some last =>
        if start+limit < items.length ∧ truthy last = true then
          some (encodeCursor (.obj [(cursorField,last.get cursorField)]))
        else none
    | none => none
  ⟨page,next,page.length⟩

/-- The items of all pages, while there is a next one. -/
def follow (limit : JsVal) (items : List JsVal) : ℕ → JsVal → Option (List JsVal)
  | 0,_ => none
  | fuel+1,cursor =>
      let page := paginateItems cursorField limit items cursor
      match page.nextCursor with
      | none => some page.items
      | some c => (follow limit items fuel (.str c)).map (page.items++ ·)

/-- One page of each list, each with the cursor of the page before. -/
def fetches (limit : JsVal) : List (List JsVal) → JsVal → List JsVal
  | [],_ => []
  | items::later,cursor =>
      let page := paginateItems cursorField limit items cursor
      page.items++match page.nextCursor with
        | none => []
        | some c => fetches limit later (.str c)

/-- The item that a cursor names is in the list that the cursor is used on. -/
def CursorKept (limit : JsVal) : List (List JsVal) → JsVal → Prop
  | items::next::later,cursor =>
      ∀ last c,(paginateItems cursorField limit items cursor).items.getLast? = some last →
        (paginateItems cursorField limit items cursor).nextCursor = some c →
        last ∈ next ∧ CursorKept limit (next::later) (.str c)
  | _,_ => True

def DistinctIds (items : List JsVal) : Prop :=
  ∃ ids : List JsString,items.map (fun item => item.get cursorField) = ids.map .str ∧ ids.Nodup

end

theorem isJson_namedBy (cursorField id : JsString) : IsJson (namedBy cursorField id) := by
  refine .obj (List.nodup_singleton _) fun p hp => ?_
  rw [List.mem_singleton.mp hp]
  exact .str id

theorem decode_encode {v : JsVal} (h : IsJson v) (hobject : isObject v = true) :
    decodeCursor (.str (encodeCursor v)) = some v := by
  have hread : parse (fromUtf8 (fromBase64Url (encodeCursor v))) = some v := by
    rw [encodeCursor,fromBase64Url_base64Url (utf8_lt _),fromUtf8_utf8,parse_text h.wellFormed,
      clean_of_isJson h]
  have hsome : truthy (.str (encodeCursor v)) = true := by
    rw [truthy,decide_eq_true_iff]
    intro hnil
    rw [hnil] at hread
    cases hread
  have hparse : parse (fromUtf8 (fromBase64Url (toStr (.str (encodeCursor v))))) = some v := hread
  rw [decodeCursor,hsome,hparse]
  simp [hobject]

theorem get_namedBy (cursorField id : JsString) :
    (namedBy cursorField id).get cursorField = .str id := by
  simp [namedBy,JsVal.get]

theorem strictEq_str {v : JsVal} {s : JsString} : strictEq v (.str s) = true ↔ v = .str s := by
  cases v <;> simp [strictEq]

section
variable {cursorField : JsString} {limit : JsVal} {items : List JsVal}

theorem startIndex_named (items : List JsVal) (id : JsString) :
    startIndex cursorField items (decodeCursor (.str (encodeCursor (namedBy cursorField id)))) =
      if items.findIdx (fun item => strictEq (item.get cursorField) (.str id)) < items.length then
        items.findIdx (fun item => strictEq (item.get cursorField) (.str id))+1
      else 0 := by
  rw [decode_encode (isJson_namedBy cursorField id) rfl]
  simp only [startIndex,get_namedBy]
  rfl

/-- A cursor without its item is no cursor. -/
theorem startIndex_gone {id : JsString} (h : ∀ item ∈ items,item.get cursorField ≠ .str id) :
    startIndex cursorField items (decodeCursor (.str (encodeCursor (namedBy cursorField id)))) =
      0 := by
  have hnone : items.findIdx (fun item => strictEq (item.get cursorField) (.str id)) =
      items.length := by
    rw [List.findIdx_eq_length]
    intro item hitem
    rw [Bool.eq_false_iff,ne_eq,strictEq_str]
    exact h item hitem
  rw [startIndex_named,hnone,if_neg (lt_irrefl _)]

theorem startIndex_kept {before after : List JsVal} {item : JsVal} {id : JsString}
    (hid : item.get cursorField = .str id)
    (hbefore : ∀ other ∈ before,other.get cursorField ≠ .str id) :
    startIndex cursorField (before++item::after)
      (decodeCursor (.str (encodeCursor (namedBy cursorField id)))) = before.length+1 := by
  have hfind : (before++item::after).findIdx
      (fun other => strictEq (other.get cursorField) (.str id)) = before.length := by
    have hmiss : before.findIdx (fun other => strictEq (other.get cursorField) (.str id)) =
        before.length := by
      rw [List.findIdx_eq_length]
      intro other hother
      rw [Bool.eq_false_iff,ne_eq,strictEq_str]
      exact hbefore other hother
    rw [List.findIdx_append,hmiss,if_neg (lt_irrefl _),List.findIdx_cons,strictEq_str.mpr hid]
    simp
  rw [startIndex_named,hfind,if_pos (by simp)]

theorem clampPageLimit_pos (max fallback : ℕ) (limit : JsVal) :
    1 ≤ clampPageLimit max fallback limit := by
  rw [clampPageLimit]
  split
  · exact le_max_left _ _
  · exact le_max_left _ _
  · split_ifs
    · exact le_rfl
    · exact le_max_left _ _
  · exact le_max_left _ _

/-- The page at the beginning of what is left. -/
def pageOf (cursorField : JsString) (limit : ℕ) (rest : List JsVal) : Page :=
  ⟨rest.take limit,
    if limit < rest.length then (rest.take limit).getLast?.map fun last =>
      encodeCursor (.obj [(cursorField,last.get cursorField)]) else none,
    (rest.take limit).length⟩

theorem DistinctIds.get {items : List JsVal} (h : DistinctIds cursorField items) :
    ∀ item ∈ items,∃ id,item.get cursorField = .str id := by
  obtain ⟨ids,hids,-⟩ := h
  intro item hitem
  have hmem : item.get cursorField ∈ ids.map JsVal.str := by
    rw [← hids]
    exact List.mem_map.mpr ⟨item,hitem,rfl⟩
  obtain ⟨id,-,hid⟩ := List.mem_map.mp hmem
  exact ⟨id,hid.symm⟩

theorem DistinctIds.nodup {items : List JsVal} (h : DistinctIds cursorField items) :
    (items.map fun item => item.get cursorField).Nodup := by
  obtain ⟨ids,hids,hnodup⟩ := h
  rw [hids]
  exact hnodup.map fun _ _ hstr => JsVal.str.inj hstr

theorem DistinctIds.sublist {items other : List JsVal} (h : DistinctIds cursorField items)
    (hsub : other.Sublist items) : DistinctIds cursorField other := by
  choose! id hid using h.get
  refine ⟨other.map id,?_,?_⟩
  · rw [List.map_map]
    exact List.map_congr_left fun item hitem => hid item (hsub.subset hitem)
  · have hnodup := (hsub.map fun item => item.get cursorField).nodup h.nodup
    have hmap : other.map (fun item => item.get cursorField) = (other.map id).map .str := by
      rw [List.map_map]
      exact List.map_congr_left fun item hitem => hid item (hsub.subset hitem)
    rw [hmap] at hnodup
    exact List.Nodup.of_map _ hnodup

theorem truthy_of_get {item : JsVal} {id : JsString} (h : item.get cursorField = .str id) :
    truthy item = true := by
  cases item with
  | obj kvs => rfl
  | _ => cases h

theorem paginateItems_eq {items rest : List JsVal} {cursor : JsVal} {start : ℕ}
    (hids : DistinctIds cursorField items)
    (hstart : startIndex cursorField items (decodeCursor cursor) = start)
    (hrest : items.drop start = rest) (hle : start ≤ items.length) :
    paginateItems cursorField limit items cursor =
      pageOf cursorField (clampPageLimit 100 50 limit) rest := by
  have hlength : rest.length = items.length-start := by rw [← hrest,List.length_drop]
  simp only [paginateItems,hstart,hrest,pageOf]
  cases hlast : (rest.take (clampPageLimit 100 50 limit)).getLast? with
  | none => simp
  | some last =>
      have hmem : last ∈ items := by
        have htake := List.mem_of_mem_take (List.mem_of_getLast? hlast)
        rw [← hrest] at htake
        exact List.mem_of_mem_drop htake
      obtain ⟨id,hid⟩ := hids.get last hmem
      have hmore : start+clampPageLimit 100 50 limit < items.length ∧ truthy last = true ↔
          clampPageLimit 100 50 limit < rest.length := by
        rw [truthy_of_get hid,hlength]
        constructor
        · rintro ⟨hlt,-⟩
          omega
        · intro hlt
          exact ⟨by omega,rfl⟩
      simp only [hmore,Option.map_some]

/-- The cursor stands before what is left. -/
inductive Points (cursorField : JsString) (items : List JsVal) : JsVal → List JsVal → Prop
  | first : Points cursorField items .null items
  | behind {before rest : List JsVal} {item : JsVal} {id : JsString} :
      items = before++item::rest → item.get cursorField = .str id →
      Points cursorField items (.str (encodeCursor (namedBy cursorField id))) rest

theorem Points.page {cursor : JsVal} {rest : List JsVal} (hids : DistinctIds cursorField items)
    (h : Points cursorField items cursor rest) : paginateItems cursorField limit items cursor =
      pageOf cursorField (clampPageLimit 100 50 limit) rest := by
  cases h with
  | first => exact @paginateItems_eq _ _ items items .null 0 hids rfl rfl (Nat.zero_le _)
  | @behind before _ item id hitems hid =>
      have hbefore : ∀ other ∈ before,other.get cursorField ≠ .str id := by
        intro other hother hsame
        have hnodup := hids.nodup
        rw [hitems,List.map_append,List.nodup_append] at hnodup
        refine hnodup.2.2 _ (List.mem_map.mpr ⟨other,hother,rfl⟩) _
          (List.mem_map.mpr ⟨item,List.mem_cons_self,rfl⟩) ?_
        rw [hsame,hid]
      have hstart := @startIndex_kept cursorField before rest item id hid hbefore
      rw [← hitems] at hstart
      refine paginateItems_eq hids hstart ?_ ?_
      · rw [hitems,List.drop_append,List.drop_eq_nil_of_le (Nat.le_succ _),
          Nat.add_sub_cancel_left,List.nil_append]
        rfl
      · rw [hitems]
        simp

/-- The cursor of a page names its last item. -/
theorem Points.next {cursor : JsVal} {rest : List JsVal} {c : JsString}
    (hids : DistinctIds cursorField items) (h : Points cursorField items cursor rest) {n : ℕ}
    (hc : (pageOf cursorField n rest).nextCursor = some c) :
    n < rest.length ∧ ∃ before last id,(rest.take n).getLast? = some last ∧
      items = before++last::rest.drop n ∧ last.get cursorField = .str id ∧
      c = encodeCursor (namedBy cursorField id) := by
  simp only [pageOf] at hc
  split_ifs at hc with hmore
  refine ⟨hmore,?_⟩
  obtain ⟨last,hlast,hcursor⟩ := Option.map_eq_some_iff.mp hc
  obtain ⟨front,hfront⟩ := List.getLast?_eq_some_iff.mp hlast
  have hrest : rest = front++last::rest.drop n := by
    conv_lhs => rw [← List.take_append_drop n rest,hfront]
    rw [List.append_assoc,List.singleton_append]
  obtain ⟨before,hbefore⟩ : ∃ before,items = before++rest := by
    cases h with
    | first => exact ⟨[],rfl⟩
    | @behind before _ item id hitems _ => exact ⟨before++[item],by simpa using hitems⟩
  have hitems : items = (before++front)++last::rest.drop n := by
    rw [List.append_assoc,← hrest]
    exact hbefore
  obtain ⟨id,hid⟩ := hids.get last (by rw [hitems]; simp)
  exact ⟨before++front,last,id,hlast,hitems,hid,by rw [← hcursor,hid]; rfl⟩

theorem follow_points (hids : DistinctIds cursorField items) {fuel : ℕ} {cursor : JsVal}
    {rest : List JsVal} (h : Points cursorField items cursor rest) (hfuel : rest.length < fuel) :
    follow cursorField limit items fuel cursor = some rest := by
  induction fuel generalizing cursor rest with
  | zero => exact absurd hfuel (Nat.not_lt_zero _)
  | succ fuel ih =>
      have hn := clampPageLimit_pos 100 50 limit
      rw [follow]
      simp only [h.page hids]
      cases hc : (pageOf cursorField (clampPageLimit 100 50 limit) rest).nextCursor with
      | none =>
          have hall : ¬ clampPageLimit 100 50 limit < rest.length := by
            intro hmore
            simp only [pageOf,if_pos hmore,Option.map_eq_none_iff,List.getLast?_eq_none_iff,
              List.take_eq_nil_iff] at hc
            rcases hc with hzero | rfl
            · omega
            · simp at hmore
          exact congrArg some (List.take_of_length_le (not_lt.mp hall))
      | some c =>
          obtain ⟨hmore,before,last,id,-,hitems,hid,rfl⟩ := h.next hids hc
          simp only
          rw [ih (.behind hitems hid) (by rw [List.length_drop]; omega)]
          exact congrArg some (List.take_append_drop _ _)

/-- What is left behind an item that stays. -/
theorem sublist_behind {before rest next : List JsVal} {item : JsVal}
    (hnodup : (before++item::rest).Nodup) (hsub : next.Sublist (before++item::rest))
    (hmem : item ∈ next) : ∃ front left,next = front++item::left ∧ left.Sublist rest := by
  rw [List.nodup_append,List.nodup_cons] at hnodup
  obtain ⟨front,back,rfl,hfront,hback⟩ := List.sublist_append_iff.mp hsub
  have hnew : item ∉ front := fun hin =>
    hnodup.2.2 item (hfront.subset hin) item List.mem_cons_self rfl
  have hin : item ∈ back := (List.mem_append.mp hmem).resolve_left hnew
  rcases List.sublist_cons_iff.mp hback with hback | ⟨left,rfl,hleft⟩
  · exact absurd (hback.subset hin) hnodup.2.1.1
  · exact ⟨front,left,rfl,hleft⟩

theorem DistinctIds.items_nodup (h : DistinctIds cursorField items) : items.Nodup :=
  List.Nodup.of_map _ h.nodup

theorem fetches_points {later : List (List JsVal)} {cursor : JsVal} {rest : List JsVal}
    (hids : DistinctIds cursorField items) (h : Points cursorField items cursor rest)
    (hremoved : (items::later).IsChain fun all left => left.Sublist all)
    (hkept : CursorKept cursorField limit (items::later) cursor) :
    (fetches cursorField limit (items::later) cursor).Sublist rest := by
  induction later generalizing items cursor rest with
  | nil =>
      rw [fetches]
      simp only [h.page hids,fetches]
      have hpage : (pageOf cursorField (clampPageLimit 100 50 limit) rest).items.Sublist rest :=
        List.take_sublist _ _
      split
      · rwa [List.append_nil]
      · rwa [List.append_nil]
  | cons next later ih =>
      rw [List.isChain_cons_cons] at hremoved
      rw [fetches]
      simp only [h.page hids]
      rw [CursorKept,h.page hids] at hkept
      cases hc : (pageOf cursorField (clampPageLimit 100 50 limit) rest).nextCursor with
      | none =>
          simp only [List.append_nil]
          exact List.take_sublist _ _
      | some c =>
          obtain ⟨-,before,last,id,hlast,hitems,hid,rfl⟩ := h.next hids hc
          obtain ⟨hmem,hlater⟩ := hkept last _ hlast hc
          have hnodup := hids.items_nodup
          have hsub := hremoved.1
          rw [hitems] at hnodup hsub
          obtain ⟨front,left,hnext,hleft⟩ := sublist_behind hnodup hsub hmem
          have hsession := ih (hids.sublist hremoved.1) (.behind hnext hid) hremoved.2 hlater
          conv_rhs => rw [← List.take_append_drop (clampPageLimit 100 50 limit) rest]
          exact (List.Sublist.refl _).append (hsession.trans hleft)

theorem paginateItems_gone {remaining : List JsVal} {id : JsString}
    (h : ∀ item ∈ remaining,item.get cursorField ≠ .str id) :
    paginateItems cursorField limit remaining (.str (encodeCursor (namedBy cursorField id))) =
      paginateItems cursorField limit remaining .null := by
  have hfirst : startIndex cursorField remaining (decodeCursor .null) = 0 := rfl
  simp only [paginateItems,startIndex_gone h,hfirst]

end

/-- Every item once and in order; removals do not repeat an item while the cursor's own item
stays, and without it the list starts again. -/
theorem cursor_walk (cursorField : JsString) (limit : JsVal) {items : List JsVal}
    (hids : DistinctIds cursorField items) :
    (∀ fuel,items.length < fuel → follow cursorField limit items fuel .null = some items) ∧
    (∀ later : List (List JsVal),(items::later).IsChain (fun all left => left.Sublist all) →
      CursorKept cursorField limit (items::later) .null →
      (fetches cursorField limit (items::later) .null).Sublist items ∧
        (fetches cursorField limit (items::later) .null).Nodup) ∧
    ∀ (remaining : List JsVal) (id : JsString),
      (∀ item ∈ remaining,item.get cursorField ≠ .str id) →
      paginateItems cursorField limit remaining (.str (encodeCursor (namedBy cursorField id))) =
        paginateItems cursorField limit remaining .null := by
  refine ⟨fun fuel hfuel => follow_points hids .first hfuel,?_,fun _ _ => paginateItems_gone⟩
  intro later hremoved hkept
  have hsub := fetches_points hids .first hremoved hkept
  exact ⟨hsub,hsub.nodup hids.items_nodup⟩

def named (id : String) : JsVal := .obj [(js "id",.str (js id))]

def threeItems : List JsVal := [named "a",named "b",named "c"]

theorem threeItems_distinct : DistinctIds (js "id") threeItems :=
  ⟨[js "a",js "b",js "c"],rfl,by decide⟩

theorem clampPageLimit_numeral {k max fallback : ℕ} (h0 : 0 < k) (hk : k < 2^53) (hmax : k ≤ max) :
    clampPageLimit max fallback (numeral k) = k := by
  obtain ⟨x,hvalue,hx⟩ := exists_numeral h0 hk
  have hmin : min (k : ℤ) max = k := min_eq_left (by exact_mod_cast hmax)
  rw [hx]
  simp only [clampPageLimit,toNumber,hvalue,Int.floor_natCast,hmin,Int.toNat_natCast]
  exact max_eq_right h0

theorem two_a_page : clampPageLimit 100 50 (numeral 2) = 2 :=
  clampPageLimit_numeral (by norm_num) (by norm_num) (by norm_num)

/-- The first item is removed after the first page; the cursor's stays. -/
theorem three_items_walked :
    follow (js "id") (numeral 2) threeItems 4 .null = some threeItems ∧
      (fetches (js "id") (numeral 2) [threeItems,[named "b",named "c"]] .null).Nodup := by
  obtain ⟨hwalk,hremoved,-⟩ := cursor_walk (js "id") (numeral 2) threeItems_distinct
  refine ⟨hwalk 4 (by decide),(hremoved [[named "b",named "c"]] ?_ ?_).2⟩
  · rw [List.isChain_cons_cons]
    exact ⟨(List.Sublist.refl _).cons _,List.isChain_singleton _⟩
  · intro last c hlast _
    rw [Points.page threeItems_distinct .first,two_a_page] at hlast
    cases hlast
    exact ⟨List.mem_cons_self,trivial⟩

/-- The cursor's own item is removed, and the first item comes a second time. -/
theorem removed_cursor_repeats : DistinctIds (js "id") threeItems ∧
    [threeItems,[named "a",named "c"]].IsChain (fun all left => left.Sublist all) ∧
    fetches (js "id") (numeral 2) [threeItems,[named "a",named "c"]] .null =
      [named "a",named "b",named "a",named "c"] := by
  refine ⟨threeItems_distinct,?_,?_⟩
  · rw [List.isChain_cons_cons]
    exact ⟨((List.Sublist.refl _).cons _).cons_cons _,List.isChain_singleton _⟩
  · have hleft : DistinctIds (js "id") [named "a",named "c"] :=
      threeItems_distinct.sublist (((List.Sublist.refl _).cons _).cons_cons _)
    have hgone : ∀ item ∈ [named "a",named "c"],item.get (js "id") ≠ .str (js "b") := by
      intro item hitem
      simp only [List.mem_cons,List.not_mem_nil,or_false] at hitem
      rcases hitem with rfl | rfl
      · exact fun h => absurd (JsVal.str.inj h) (by decide)
      · exact fun h => absurd (JsVal.str.inj h) (by decide)
    have hsecond := (@paginateItems_gone _ (numeral 2) _ _ hgone).trans
      (Points.page hleft .first)
    have hfirst := @Points.page _ (numeral 2) _ _ _ threeItems_distinct .first
    rw [two_a_page] at hfirst hsecond
    have hnext : (pageOf (js "id") 2 threeItems).nextCursor =
        some (encodeCursor (namedBy (js "id") (js "b"))) := rfl
    simp only [fetches,hfirst,hnext,hsecond]
    rfl

end AstraNull.CursorPagination
