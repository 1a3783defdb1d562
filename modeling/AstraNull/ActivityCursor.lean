import Mathlib
import AstraNull.NumberText
import AstraNull.JsonText
import AstraNull.ScriptValue
import AstraNull.ByteText

/-!
# The cursor of the activity list

`paginateActivity` of `contracts/validationScanManagement.mjs`. Items come from the audit log with a
sequence number or from events with a key. A page is chosen by merging both sources in the order
they were ingested, and the cursor keeps one mark for each source.
-/
namespace AstraNull.ActivityCursor
open NumberText JsonText ScriptValue ByteText

abbrev EventKey := Number × JsString

inductive Ingest where
  | audit (sequence : Number)
  | event (key : EventKey)
deriving DecidableEq

structure Item where
  id : JsString
  ingest : Option Ingest
  /-- `String(item.at ?? '')` -/
  shownAt : JsString
deriving DecidableEq

structure Cursor where
  auditSequence : Number
  eventKey : Option EventKey
deriving DecidableEq

def Cursor.start : Cursor := ⟨.zero,none⟩

def cursorValue (c : Cursor) : JsVal :=
  .obj [(js "a",.num c.auditSequence),(js "e",match c.eventKey with
    | none => .null
    | some k => .arr [.num k.1,.str k.2])]

def encodeActivityCursor (c : Cursor) : JsString :=
  js "c1."++base64Url (utf8 (text (cursorValue c)))

/-- The key of `parsed.e`, where it is an array that starts with a finite number. -/
def readEventKey (e : JsVal) : Option EventKey :=
  match e with
  | .arr vs => match toNumber (vs.head?.getD .undefined) with
      | .finite k => some (k,toStr (orElse (vs.tail.head?.getD .undefined) (.str [])))
      | _ => none
  | _ => none

def safeSequence (n : Number) : Bool := isSafeInteger (.num n) && decide (0 ≤ rational n)

def safeKey (k : EventKey) : Bool := decide (0 ≤ rational k.1) && decide (k.2.length ≤ 256)

def readCursor (parsed : JsVal) : Option Cursor :=
  match toNumber (field parsed "a") with
  | .finite a =>
      if !safeSequence a then none
      else if nullish (field parsed "e") then some ⟨a,readEventKey (field parsed "e")⟩
      else match readEventKey (field parsed "e") with
        | none => none
        | some k => if safeKey k then some ⟨a,some k⟩ else none
  | _ => none

def decodeActivityCursor (raw : JsString) : Option Cursor :=
  if !(js "c1.").isPrefixOf raw then none
  else match parse (fromUtf8 (fromBase64Url (raw.drop 3))) with
    | none => none
    | some parsed => readCursor parsed

def safeCursor (c : Cursor) : Bool := safeSequence c.auditSequence && c.eventKey.all safeKey

theorem isJson_cursorValue (c : Cursor) : IsJson (cursorValue c) := by
  have hnames : [js "a",js "e"].Nodup := by decide
  refine .obj hnames fun p hp => ?_
  simp only [List.mem_cons,List.not_mem_nil,or_false] at hp
  rcases hp with rfl | rfl
  · exact .num c.auditSequence
  · cases c.eventKey with
    | none => exact .null
    | some k =>
        refine .arr fun v hv => ?_
        simp only [List.mem_cons,List.not_mem_nil,or_false] at hv
        rcases hv with rfl | rfl
        · exact .num k.1
        · exact .str k.2

theorem readCursor_cursorValue (c : Cursor) :
    readCursor (cursorValue c) = if safeCursor c then some c else none := by
  obtain ⟨a,e⟩ := c
  have ha : field (cursorValue ⟨a,e⟩) "a" = .num a := rfl
  cases e with
  | none =>
      have he : field (cursorValue ⟨a,none⟩) "e" = .null := rfl
      simp only [readCursor,ha,he,toNumber,nullish,readEventKey,safeCursor,Option.all_none,
        Bool.and_true]
      cases safeSequence a <;> rfl
  | some k =>
      have he : field (cursorValue ⟨a,some k⟩) "e" = .arr [.num k.1,.str k.2] := rfl
      have hk : readEventKey (.arr [.num k.1,.str k.2]) = some k := rfl
      simp only [readCursor,ha,he,toNumber,nullish,hk,safeCursor,Option.all_some]
      by_cases hsequence : safeSequence a = true <;> by_cases hkey : safeKey k = true <;>
        simp [hsequence,hkey]

/-- A cursor is read back exactly when it is within the bounds the reader checks. -/
theorem decode_encode (c : Cursor) :
    decodeActivityCursor (encodeActivityCursor c) = if safeCursor c then some c else none := by
  have hstart : (js "c1.").isPrefixOf (encodeActivityCursor c) = true :=
    List.isPrefixOf_iff_prefix.mpr ⟨_,rfl⟩
  have hdrop : (encodeActivityCursor c).drop 3 = base64Url (utf8 (text (cursorValue c))) := rfl
  have hjson := isJson_cursorValue c
  rw [decodeActivityCursor,hstart,hdrop,fromBase64Url_base64Url (utf8_lt _),fromUtf8_utf8,
    parse_text hjson.wellFormed,clean_of_isJson hjson]
  exact readCursor_cursorValue c

section
variable (localeCompare : JsString → JsString → Ordering)

def compareKeys (left right : EventKey) : Ordering :=
  (compare (rational left.1) (rational right.1)).then (localeCompare left.2 right.2)

def isAudit (i : Item) : Bool :=
  match i.ingest with
  | some (.audit _) => true
  | _ => false

def isEvent (i : Item) : Bool :=
  match i.ingest with
  | some (.event _) => true
  | _ => false

def sequenceOf (i : Item) : Number :=
  match i.ingest with
  | some (.audit s) => s
  | _ => .zero

def keyOf (i : Item) : EventKey :=
  match i.ingest with
  | some (.event k) => k
  | _ => (.zero,[])

def larger (m n : Number) : Number := if rational m < rational n then n else m

def noteItem (c : Cursor) (i : Item) : Cursor :=
  match i.ingest with
  | some (.audit s) => { c with auditSequence := larger c.auditSequence s }
  | some (.event k) => match c.eventKey with
      | none => { c with eventKey := some k }
      | some m => if compareKeys localeCompare k m = .gt then { c with eventKey := some k } else c
  | none => c

def cursorAfter (items : List Item) (previous : Option Cursor) : Cursor :=
  items.foldl (noteItem localeCompare) (previous.getD .start)

def isNewerThanCursor (i : Item) (c : Cursor) : Bool :=
  match i.ingest with
  | some (.audit s) => decide (rational c.auditSequence < rational s)
  | some (.event k) => match c.eventKey with
      | none => true
      | some m => compareKeys localeCompare k m == .gt
  | none => false

/-- The loop, one recursion step for each item taken. -/
def mergeByIngestion : ℕ → List Item → List Item → List Item
  | 0,_,_ => []
  | _+1,[],[] => []
  | limit+1,a::audits,[] => a::mergeByIngestion limit audits []
  | limit+1,[],e::events => e::mergeByIngestion limit [] events
  | limit+1,a::audits,e::events =>
      if localeCompare a.shownAt e.shownAt ≠ .gt then a::mergeByIngestion limit audits (e::events)
      else e::mergeByIngestion limit (a::audits) events

/-- `Math.max(1,Math.min(500,Math.floor(Number(limit)) || 200))` -/
def boundedLimit : Numeric → ℕ
  | .nan => 200
  | .infinite neg => if neg then 1 else 500
  | .finite n => if ⌊rational n⌋ = 0 then 200 else (max 1 (min 500 ⌊rational n⌋)).toNat

/-- The cursor names an item of each source that has a mark. -/
def cursorKnown (items : List Item) (c : Cursor) : Bool :=
  (!decide (0 < rational c.auditSequence) ||
    items.any fun i => i.ingest == some (.audit c.auditSequence)) &&
  (match c.eventKey with
    | none => true
    | some m => items.any fun i => match i.ingest with
        | some (.event k) => compareKeys localeCompare k m == .eq
        | _ => false)

structure Page where
  items : List Item
  cursor : JsString
  hasMore : Bool
  totalRecorded : ℕ
deriving DecidableEq

inductive Refusal where
  | invalidActivityCursor
deriving DecidableEq

def sortAudits (items : List Item) : List Item :=
  items.insertionSort fun i j => rational (sequenceOf i) ≤ rational (sequenceOf j)

def sortEvents (items : List Item) : List Item :=
  items.insertionSort fun i j => compareKeys localeCompare (keyOf i) (keyOf j) ≠ .gt

def pageOf (items fresh : List Item) (previous : Option Cursor) (limit : Numeric) : Page :=
  let audits := sortAudits (fresh.filter isAudit)
  let events := sortEvents localeCompare (fresh.filter isEvent)
  let selected := mergeByIngestion localeCompare (boundedLimit limit) audits events
  let page := fresh.filter fun i => selected.contains i
  ⟨page,encodeActivityCursor (cursorAfter localeCompare page previous),
    decide (page.length < fresh.length),items.length⟩

/-- An empty `after` is no cursor, and a text that is none may be the id of an item. -/
def paginateActivity (items : List Item) (after : Option JsString) (limit : Numeric) :
    Except Refusal Page :=
  match after with
  | none => .ok (pageOf localeCompare items items none limit)
  | some raw =>
      if raw = [] then .ok (pageOf localeCompare items items none limit)
      else match decodeActivityCursor raw with
        | some c =>
            if !cursorKnown localeCompare items c then .error .invalidActivityCursor
            else .ok (pageOf localeCompare items
              (items.filter fun i => isNewerThanCursor localeCompare i c) (some c) limit)
        | none => match items.findIdx? fun i => i.id == raw with
            | none => .error .invalidActivityCursor
            | some index => .ok (pageOf localeCompare items (items.drop (index+1)) none limit)

/-- The items at each call and the limit asked for. -/
abbrev Poll := List Item × Numeric

/-- The pages of successive calls, each with the cursor of the one before. -/
def poll : Option JsString → List Poll → Except Refusal (List Item × Option JsString)
  | after,[] => .ok ([],after)
  | after,(items,limit)::polls => do
      let page ← paginateActivity localeCompare items after limit
      let rest ← poll (some page.cursor) polls
      .ok (page.items++rest.1,rest.2)

/-- Calls until there is no more; `none` where the calls do not suffice. -/
def drain (items : List Item) (limit : Numeric) :
    ℕ → Option JsString → Option (Except Refusal (List Item))
  | 0,_ => none
  | calls+1,after => match paginateActivity localeCompare items after limit with
      | .error refusal => some (.error refusal)
      | .ok page =>
          if page.hasMore then (drain items limit calls (some page.cursor)).map fun rest =>
            rest.map fun l => page.items++l
          else some (.ok page.items)

end

end AstraNull.ActivityCursor
