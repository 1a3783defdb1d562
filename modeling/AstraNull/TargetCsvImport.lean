import Mathlib
import AstraNull.JsonText
import AstraNull.ScriptText
import AstraNull.ScriptValue
import AstraNull.CsvRecords
import AstraNull.TargetMetadata
import AstraNull.TargetInput
import AstraNull.TargetStability

/-!
# Importing targets from a table

`parseTargetCsv` and `validateTargetImportRows` of `lib/targetCsvImport.mjs`. The first record may
be a header; every other record is a row, an error of the parser or an error of the validation.
-/
namespace AstraNull.TargetCsvImport
open JsonText ScriptText ScriptValue CsvRecords TargetMetadata TargetInput

inductive Column where
  | kind
  | value
  | expectedBehavior
deriving DecidableEq

/-- A name that maps to nothing is a column that is not read. -/
def headerAliases : List (String × Option Column) :=
  [("kind",some .kind),("type",some .kind),("value",some .value),("target",some .value),
    ("fqdn",some .value),("hostname",some .value),("domain",some .value),("url",some .value),
    ("ip",some .value),("expected_behavior",some .expectedBehavior),("label",none),("name",none),
    ("notes",none)]

def valueColumnKind : List (String × String) :=
  [("fqdn","fqdn"),("hostname","fqdn"),("domain","fqdn"),("url","url"),("ip","ip")]

def headerlessLayouts : ℕ → Option (List Column)
  | 1 => some [.value]
  | 2 => some [.kind,.value]
  | 3 => some [.kind,.value,.expectedBehavior]
  | _ => none

/-- `map.get(name)`. -/
def lookup {β : Type} (table : List (String × β)) (name : JsString) : Option β :=
  (table.find? fun p => js p.1 == name).map Prod.snd

/-- `map.has(name)`. -/
def isKey {β : Type} (table : List (String × β)) (name : JsString) : Bool :=
  table.any fun p => js p.1 == name

structure Rejection where
  error : String
  status : ℕ
  message : JsString
deriving DecidableEq

def csvRejection (message : JsString) : Rejection := ⟨"invalid_csv",400,message⟩

/-- Where the columns are, and whether the first record is their header. -/
structure Layout where
  header : Bool
  columns : List (Option Column)
  defaultKind : Option JsString

def knownAlias (name : JsString) : Bool := isKey headerAliases name || name == js "port"

def hasHeader (firstCells : List JsString) : Bool :=
  firstCells.head?.any (fun name => knownAlias name && !isKey valueColumnKind name) ||
    firstCells.all knownAlias

def headerLayout (firstCells : List JsString) : Except Rejection Layout :=
  let unknown := firstCells.filter fun name => !isKey headerAliases name
  if js "port" ∈ unknown then
    .error (csvRejection (js "A separate port column is not supported. "++
      js "Use kind \"tcp\" with value \"host:port\"."))
  else if unknown ≠ [] then
    .error (csvRejection (js "Unsupported CSV columns: "++join ", " unknown++js ". Allowed: "++
      join ", " (headerAliases.map fun p => js p.1)++js "."))
  else
    let columns := firstCells.map fun name => (lookup headerAliases name).join
    let mapped := columns.filterMap id
    if mapped.dedup.length ≠ mapped.length then
      .error (csvRejection (js "CSV header maps more than one column to the same field."))
    else if Column.value ∉ mapped then
      .error (csvRejection (js "CSV header must include a value column."))
    else
      let name := firstCells[columns.idxOf (some Column.value)]?
      .ok ⟨true,columns,(name.bind (lookup valueColumnKind)).map js⟩

def layoutOf (lower : JsString → JsString) (first : Entry) : Except Rejection Layout :=
  let firstCells := first.fields.map fun name => lower (trim name)
  if hasHeader firstCells then headerLayout firstCells
  else match headerlessLayouts first.fields.length with
    | none =>
        .error (csvRejection (js "Without a header row, use one column (value), two "++
          js "(kind,value), or three (kind,value,expected_behavior)."))
    | some columns => .ok ⟨false,columns.map some,none⟩

structure Row where
  row : ℕ
  kind : JsString
  value : JsString
  expectedBehavior : Option JsString

structure RowError where
  row : ℕ
  error : JsString
  field : Option JsString
  message : JsString

section
variable (P : Platform)

def inferTargetKind (value : JsString) : JsString :=
  if P.isIP value ≠ 0 then js "ip" else if startsHttp value then js "url" else js "fqdn"

/-- The cell of a column; a later column of the same name would win. -/
def cell (columns : List (Option Column)) (fields : List JsString) (name : Column) :
    Option JsString :=
  ((columns.zip fields).reverse.find? fun p => p.1 == some name).map fun p => trim p.2

/-- `text || next` for a text that may be missing. -/
def orNext (text : Option JsString) (next : JsString) : JsString :=
  match text with
  | some s => if s = [] then next else s
  | none => next

def parseRow (layout : Layout) (record : Entry) : Except RowError Row :=
  if record.fields.length ≠ layout.columns.length then
    .error ⟨record.line,js "invalid_csv_row",none,
      js "Expected "++js (toString layout.columns.length)++js " columns, found "++
        js (toString record.fields.length)++js "."⟩
  else
    let value := (cell layout.columns record.fields .value).getD []
    let behavior := (cell layout.columns record.fields .expectedBehavior).filter (· ≠ [])
    .ok ⟨record.line,orNext (cell layout.columns record.fields .kind)
      (orNext layout.defaultKind (inferTargetKind P value)),value,behavior⟩

/-- The loop over the records of the data. -/
def parseRows (layout : Layout) : List Entry → List Row × List RowError
  | [] => ([],[])
  | record::records =>
      let rest := parseRows layout records
      match parseRow P layout record with
      | .ok row => (row::rest.1,rest.2)
      | .error e => (rest.1,e::rest.2)

def targetCsvMaxBytes : ℕ := 256*1024

def targetCsvMaxRows : ℕ := 1000

/-- `replace(/^\uFEFF/,'')` -/
def withoutMark : JsString → JsString
  | u::us => if u = 0xFEFF then us else u::us
  | [] => []

def emptyBody : Rejection :=
  csvRejection (js "CSV body is empty. Provide at least one target row.")

def dataRecords (layout : Layout) (records : List Entry) : List Entry :=
  if layout.header then records.tail else records

def parseTargetCsv (input : JsString) : Except Rejection (List Row × List RowError) :=
  if trim input = [] then .error emptyBody
  else if targetCsvMaxBytes < (utf8 input).size then
    .error ⟨"csv_too_large",413,
      js "CSV exceeds "++js (toString targetCsvMaxBytes)++js " bytes."⟩
  else match splitCsvRecords (withoutMark input) with
    | .error message => .error (csvRejection message)
    | .ok [] => .error emptyBody
    | .ok (first::records) => do
        let layout ← layoutOf P.toLowerCase first
        let data := dataRecords layout (first::records)
        if data.length = 0 then throw (csvRejection (js "CSV has a header but no target rows."))
        if targetCsvMaxRows < data.length then
          throw ⟨"csv_too_many_rows",413,
            js "CSV has "++js (toString data.length)++js " rows; the limit is "++
              js (toString targetCsvMaxRows)++js "."⟩
        return parseRows P layout data

structure Accepted where
  row : ℕ
  normalized : Normalized
  expectedBehavior : Option JsString

/-- The keys seen so far, with the row of each. -/
structure Progress where
  accepted : List Accepted
  errors : List RowError
  seen : List (JsString × ℕ)

def Progress.refuse (st : Progress) (e : RowError) : Progress :=
  ⟨st.accepted,st.errors++[e],st.seen⟩

def rowTarget (row : Row) : JsVal := .obj [(js "kind",.str row.kind),(js "value",.str row.value)]

def maxExpectedBehaviorLength : ℕ := 200

/-- One round; an exception that is no refusal ends the loop, and so does any that the key
raises. -/
def validateRow (existingKeys : List JsString) (st : Progress) (row : Row) :
    Except Failure Progress :=
  match normalizeTargetInput P (rowTarget row) .null with
  | .error .typeError => .error .typeError
  | .error (.invalid name message code) => .ok (st.refuse ⟨row.row,code,some name,message⟩)
  | .ok normalized =>
      if row.expectedBehavior.any fun text => maxExpectedBehaviorLength < text.length then
        .ok (st.refuse ⟨row.row,js "invalid_target",some (js "expected_behavior"),
          js "expected_behavior must be at most 200 characters."⟩)
      else do
        let key ← targetDedupeKey P normalized.asTarget
        if key ∈ existingKeys then
          return st.refuse ⟨row.row,js "target_exists",some (js "value"),
            normalized.value++js " is already declared in this target group."⟩
        match st.seen.find? fun p => p.1 == key with
        | some earlier =>
            return st.refuse ⟨row.row,js "duplicate_row",some (js "value"),
              normalized.value++js " duplicates row "++js (toString earlier.2)++js "."⟩
        | none =>
            return ⟨st.accepted++[⟨row.row,normalized,row.expectedBehavior⟩],st.errors,
              st.seen++[(key,row.row)]⟩

def validateTargetImportRows (rows : List Row) (existingKeys : List JsString) :
    Except Failure (List Accepted × List RowError) := do
  let st ← rows.foldlM (validateRow P existingKeys) ⟨[],[],[]⟩
  return (st.accepted,st.errors)

end

section
variable {P : Platform}

theorem parseRow_line {layout : Layout} {record : Entry} :
    (∀ row,parseRow P layout record = .ok row → row.row = record.line) ∧
      ∀ e,parseRow P layout record = .error e → e.row = record.line := by
  rw [parseRow]
  split_ifs
  · refine ⟨nofun,?_⟩
    intro e he
    cases he
    rfl
  · refine ⟨?_,nofun⟩
    intro row hrow
    cases hrow
    rfl

/-- Each record makes a row or an error, on its own line; the rows stand in the order of the
records. -/
theorem parseRows_lines (layout : Layout) (records : List Entry) :
    ((parseRows P layout records).1.map Row.row++
        (parseRows P layout records).2.map RowError.row).Perm (records.map Entry.line) ∧
      ((parseRows P layout records).1.map Row.row).Sublist (records.map Entry.line) := by
  induction records with
  | nil => exact ⟨.nil,.slnil⟩
  | cons record records ih =>
      obtain ⟨hok,herror⟩ := @parseRow_line P layout record
      rw [parseRows,List.map_cons]
      cases hparse : parseRow P layout record with
      | ok row =>
          rw [List.map_cons,List.cons_append,hok row hparse]
          exact ⟨ih.1.cons _,ih.2.cons_cons _⟩
      | error e =>
          rw [List.map_cons,herror e hparse]
          exact ⟨List.perm_middle.trans (ih.1.cons _),ih.2.cons _⟩

/-- The records that a parsed text is made of. -/
theorem parseTargetCsv_records {text : JsString} {rows : List Row} {errors : List RowError}
    (h : parseTargetCsv P text = .ok (rows,errors)) :
    ∃ first records layout,splitCsvRecords (withoutMark text) = .ok (first::records) ∧
      layoutOf P.toLowerCase first = .ok layout ∧
      (rows,errors) = parseRows P layout (dataRecords layout (first::records)) := by
  rw [parseTargetCsv] at h
  split_ifs at h
  split at h
  · cases h
  · cases h
  · rename_i first records hsplit
    cases hlayout : layoutOf P.toLowerCase first with
    | error e =>
        rw [hlayout] at h
        cases h
    | ok layout =>
        rw [hlayout] at h
        simp only [bind,Except.bind] at h
        split_ifs at h
        exact ⟨first,records,layout,hsplit,hlayout,(Except.ok.inj h).symm⟩

theorem dataRecords_sublist (layout : Layout) (records : List Entry) :
    (dataRecords layout records).Sublist records := by
  rw [dataRecords]
  split_ifs
  · exact List.tail_sublist records
  · exact List.Sublist.refl records

/-- A refusal of a row is not one of the two that the keys make. -/
def Ordinary (e : Failure) : Prop :=
  ∀ name message code,e = .invalid name message code → code = js "invalid_target"

theorem ordinary_validation (name message : String) : Ordinary (validationError name message) := by
  intro n m c h
  cases h
  rfl

theorem ordinary_typeError : Ordinary .typeError := nofun

theorem ordinary_fqdn {input : JsString} {e : Failure} (h : normalizeFqdn P input = .error e) :
    Ordinary e := by
  obtain ⟨message,rfl⟩ := TargetStability.normalizeFqdn_refused h
  exact ordinary_validation _ _

theorem ordinary_ip {input : JsString} {e : Failure} (h : normalizeIp P input = .error e) :
    Ordinary e := by
  rw [normalizeIp] at h
  split_ifs at h
  · cases h
    exact ordinary_validation _ _
  · split at h
    · cases h
      exact ordinary_typeError
    · cases h

theorem ordinary_host {host : JsString} {e : Failure} (h : normalizeHost P host = .error e) :
    Ordinary e := by
  rw [normalizeHost] at h
  split_ifs at h
  · exact ordinary_ip h
  · exact ordinary_fqdn h

theorem ordinary_url {input : JsString} {e : Failure} (h : normalizeUrl P input = .error e) :
    Ordinary e := by
  rw [normalizeUrl] at h
  split at h
  · cases h
    exact ordinary_validation _ _
  · rename_i parsed _
    split_ifs at h
    · cases h
      exact ordinary_validation _ _
    · cases hhost : normalizeHost P (unbracketed (P.hostname parsed)) with
      | error e' =>
          rw [hhost] at h
          cases h
          exact ordinary_host hhost
      | ok host =>
          rw [hhost] at h
          cases h

theorem ordinary_tcp {input : JsString} {e : Failure} (h : normalizeTcp P input = .error e) :
    Ordinary e := by
  rw [normalizeTcp] at h
  split at h
  · cases h
    exact ordinary_validation _ _
  · rename_i matched digits _
    cases hhost : normalizeHost P matched with
    | error e' =>
        rw [hhost] at h
        cases h
        exact ordinary_host hhost
    | ok host =>
        rw [hhost] at h
        simp only [bind,Except.bind] at h
        split_ifs at h
        · cases h
          exact ordinary_validation _ _
        · cases h

theorem ordinary_byKind {kind : Kind} {value : JsString} {e : Failure}
    (h : normalizeByKind P kind value = .error e) : Ordinary e := by
  cases kind with
  | fqdn => exact ordinary_fqdn h
  | dnsZone => exact ordinary_fqdn h
  | ip => exact ordinary_ip h
  | url => exact ordinary_url h
  | tcp => exact ordinary_tcp h
  | canary =>
      rw [normalizeByKind] at h
      split_ifs at h
      · exact ordinary_url h
      · exact ordinary_fqdn h

theorem ordinary_kind {input : JsVal} {e : Failure} (h : normalizeTargetKind P input = .error e) :
    Ordinary e := by
  rw [normalizeTargetKind] at h
  split at h
  · cases h
  · cases h
    intro n m c hinvalid
    cases hinvalid
    rfl

theorem ordinary_value {kind value : JsVal} {e : Failure}
    (h : normalizeTargetValue P kind value = .error e) : Ordinary e := by
  rw [normalizeTargetValue] at h
  cases hkind : normalizeTargetKind P kind with
  | error e' =>
      rw [hkind] at h
      cases h
      exact ordinary_kind hkind
  | ok k =>
      rw [hkind] at h
      exact ordinary_byKind h

/-- A row is refused under one code. -/
theorem ordinary_row {row : Row} {e : Failure}
    (h : normalizeTargetInput P (rowTarget row) .null = .error e) : Ordinary e := by
  have htags : tagsOf P (rowTarget row) .null = .ok [] := rfl
  rw [normalizeTargetInput] at h
  simp only [bind,Except.bind] at h
  cases hkind : normalizeTargetKind P (kindOf (rowTarget row) .null) with
  | error e' =>
      rw [hkind] at h
      cases h
      exact ordinary_kind hkind
  | ok kind =>
      rw [hkind] at h
      simp only at h
      cases hvalue : normalizeTargetValue P (.str kind.text) (valueOf (rowTarget row) .null) with
      | error e' =>
          rw [hvalue] at h
          cases h
          exact ordinary_value hvalue
      | ok value =>
          rw [hvalue,htags] at h
          cases h

/-- The key of a row. -/
def rowKey (P : Platform) (row : Row) : Except Failure JsString := do
  let normalized ← normalizeTargetInput P (rowTarget row) .null
  targetDedupeKey P normalized.asTarget

def keyOf (P : Platform) (a : Accepted) : Except Failure JsString :=
  targetDedupeKey P a.normalized.asTarget

/-- What a round can do. -/
inductive Round (P : Platform) (existingKeys : List JsString) (st : Progress) (row : Row) :
    Progress → Prop
  | refused (e : RowError) (hrow : e.row = row.row) (hcode : e.error = js "invalid_target") :
      Round P existingKeys st row (st.refuse e)
  | exists (e : RowError) (hrow : e.row = row.row) (hcode : e.error = js "target_exists")
      (key : JsString) (hkey : rowKey P row = .ok key) (hmem : key ∈ existingKeys) :
      Round P existingKeys st row (st.refuse e)
  | duplicate (e : RowError) (hrow : e.row = row.row) (hcode : e.error = js "duplicate_row")
      (key : JsString) (hkey : rowKey P row = .ok key) (hseen : ∃ p ∈ st.seen,p.1 = key) :
      Round P existingKeys st row (st.refuse e)
  | accepted (a : Accepted) (hrow : a.row = row.row) (key : JsString) (hkey : keyOf P a = .ok key)
      (hnew : key ∉ existingKeys) (hunseen : ∀ p ∈ st.seen,p.1 ≠ key) :
      Round P existingKeys st row ⟨st.accepted++[a],st.errors,st.seen++[(key,row.row)]⟩

theorem validateRow_cases {existingKeys : List JsString} {st st' : Progress} {row : Row}
    (h : validateRow P existingKeys st row = .ok st') : Round P existingKeys st row st' := by
  rw [validateRow] at h
  split at h
  · cases h
  · rename_i name message code herror
    cases h
    exact .refused _ rfl (ordinary_row herror name message code rfl)
  · rename_i normalized hnormalized
    split_ifs at h
    · cases h
      exact .refused _ rfl rfl
    · cases hkey : targetDedupeKey P normalized.asTarget with
      | error e =>
          rw [hkey] at h
          cases h
      | ok key =>
          have hrowKey : rowKey P row = .ok key := by
            rw [rowKey,hnormalized]
            exact hkey
          rw [hkey] at h
          simp only [bind,Except.bind] at h
          split_ifs at h with hmem
          · cases h
            exact .exists _ rfl rfl key hrowKey hmem
          · split at h
            · rename_i earlier hfind
              cases h
              refine .duplicate _ rfl rfl key hrowKey
                ⟨earlier,List.mem_of_find?_eq_some hfind,?_⟩
              simpa using List.find?_some hfind
            · rename_i hfind
              cases h
              refine .accepted _ rfl key hkey hmem ?_
              intro p hp hpkey
              have := List.find?_eq_none.mp hfind p hp
              simp [hpkey] at this

/-- After some rows: every one of them is accounted for, the accepted ones under new keys. -/
structure Sorted (P : Platform) (existingKeys : List JsString) (rows : List Row) (st : Progress) :
    Prop where
  lines : (st.accepted.map Accepted.row++st.errors.map RowError.row).Perm (rows.map Row.row)
  keys : st.accepted.map (keyOf P) = st.seen.map fun p => .ok p.1
  distinct : (st.seen.map Prod.fst).Nodup
  fresh : ∀ p ∈ st.seen,p.1 ∉ existingKeys
  existing : ∀ e ∈ st.errors,e.error = js "target_exists" →
    ∃ row ∈ rows,row.row = e.row ∧ ∃ key ∈ existingKeys,rowKey P row = .ok key
  duplicate : ∀ e ∈ st.errors,e.error = js "duplicate_row" →
    ∃ row ∈ rows,row.row = e.row ∧ ∃ a ∈ st.accepted,a.row < e.row ∧
      ∃ key,keyOf P a = .ok key ∧ rowKey P row = .ok key

section
variable {existingKeys : List JsString} {rows : List Row} {st : Progress} {row : Row}

theorem Sorted.lines_error (h : Sorted P existingKeys rows st) {e : RowError}
    (hrow : e.row = row.row) :
    ((st.refuse e).accepted.map Accepted.row++(st.refuse e).errors.map RowError.row).Perm
      ((rows++[row]).map Row.row) := by
  rw [Progress.refuse,List.map_append,List.map_append,← List.append_assoc,List.map_singleton,
    List.map_singleton,hrow]
  exact h.lines.append_right _

/-- A refusal whose code needs no key. -/
theorem Sorted.refuse (h : Sorted P existingKeys rows st) {e : RowError} (hrow : e.row = row.row)
    (hexisting : e.error = js "target_exists" → ∃ key ∈ existingKeys,rowKey P row = .ok key)
    (hduplicate : e.error = js "duplicate_row" → ∃ a ∈ st.accepted,a.row < e.row ∧
      ∃ key,keyOf P a = .ok key ∧ rowKey P row = .ok key) :
    Sorted P existingKeys (rows++[row]) (st.refuse e) := by
  refine ⟨h.lines_error hrow,h.keys,h.distinct,h.fresh,?_,?_⟩
  · intro e' he' hcode
    rcases List.mem_append.mp he' with he' | he'
    · obtain ⟨r,hr,hfacts⟩ := h.existing e' he' hcode
      exact ⟨r,List.mem_append_left _ hr,hfacts⟩
    · rw [List.mem_singleton.mp he'] at hcode ⊢
      exact ⟨row,by simp,hrow.symm,hexisting hcode⟩
  · intro e' he' hcode
    rcases List.mem_append.mp he' with he' | he'
    · obtain ⟨r,hr,hfacts⟩ := h.duplicate e' he' hcode
      exact ⟨r,List.mem_append_left _ hr,hfacts⟩
    · rw [List.mem_singleton.mp he'] at hcode ⊢
      exact ⟨row,by simp,hrow.symm,hduplicate hcode⟩

theorem Sorted.seen_accepted (h : Sorted P existingKeys rows st) {p : JsString × ℕ}
    (hp : p ∈ st.seen) : ∃ a ∈ st.accepted,keyOf P a = .ok p.1 := by
  have hmem : (Except.ok p.1 : Except Failure JsString) ∈ st.accepted.map (keyOf P) := by
    rw [h.keys]
    exact List.mem_map_of_mem hp
  obtain ⟨a,ha,hkey⟩ := List.mem_map.mp hmem
  exact ⟨a,ha,hkey⟩

theorem Sorted.accepted_line (h : Sorted P existingKeys rows st) {a : Accepted}
    (ha : a ∈ st.accepted) : ∃ r ∈ rows,r.row = a.row := by
  have hmem : a.row ∈ rows.map Row.row :=
    h.lines.subset (List.mem_append_left _ (List.mem_map_of_mem ha))
  exact List.mem_map.mp hmem

/-- One row more. -/
theorem Sorted.step {st' : Progress} (h : Sorted P existingKeys rows st)
    (hrising : ∀ r ∈ rows,r.row < row.row) (hround : Round P existingKeys st row st') :
    Sorted P existingKeys (rows++[row]) st' := by
  cases hround with
  | refused e hrow hcode =>
      refine h.refuse hrow ?_ ?_
      · intro hexists
        exact absurd (hcode.symm.trans hexists) (by decide)
      · intro hduplicate
        exact absurd (hcode.symm.trans hduplicate) (by decide)
  | «exists» e hrow hcode key hkey hmem =>
      refine h.refuse hrow (fun _ => ⟨key,hmem,hkey⟩) ?_
      intro hduplicate
      exact absurd (hcode.symm.trans hduplicate) (by decide)
  | duplicate e hrow hcode key hkey hseen =>
      refine h.refuse hrow ?_ ?_
      · intro hexists
        exact absurd (hcode.symm.trans hexists) (by decide)
      · intro _
        obtain ⟨p,hp,rfl⟩ := hseen
        obtain ⟨a,ha,hakey⟩ := h.seen_accepted hp
        obtain ⟨r,hr,hline⟩ := h.accepted_line ha
        exact ⟨a,ha,by rw [← hline,hrow]; exact hrising r hr,p.1,hakey,hkey⟩
  | accepted a hrow key hkey hnew hunseen =>
      refine ⟨?_,?_,?_,?_,?_,?_⟩
      · rw [List.map_append,List.map_append,List.map_singleton,List.map_singleton,hrow,
          List.append_assoc]
        have hswap : ([row.row]++st.errors.map RowError.row).Perm
            (st.errors.map RowError.row++[row.row]) := List.perm_append_comm
        refine (hswap.append_left _).trans ?_
        rw [← List.append_assoc]
        exact h.lines.append_right _
      · rw [List.map_append,List.map_append,h.keys,List.map_singleton,List.map_singleton,hkey]
      · rw [List.map_append,List.map_singleton,List.nodup_append_comm]
        refine List.nodup_cons.mpr ⟨?_,h.distinct⟩
        intro hmem
        obtain ⟨p,hp,hpkey⟩ := List.mem_map.mp hmem
        exact hunseen p hp hpkey
      · intro p hp
        rcases List.mem_append.mp hp with hp | hp
        · exact h.fresh p hp
        · rw [List.mem_singleton.mp hp]
          exact hnew
      · intro e he hcode
        obtain ⟨r,hr,hfacts⟩ := h.existing e he hcode
        exact ⟨r,List.mem_append_left _ hr,hfacts⟩
      · intro e he hcode
        obtain ⟨r,hr,hline,b,hb,hfacts⟩ := h.duplicate e he hcode
        exact ⟨r,List.mem_append_left _ hr,hline,b,List.mem_append_left _ hb,hfacts⟩

/-- The whole loop. -/
theorem Sorted.run {st' : Progress} (h : Sorted P existingKeys rows st) (later : List Row)
    (hrising : ((rows++later).map Row.row).Pairwise (· < ·))
    (hrun : later.foldlM (validateRow P existingKeys) st = .ok st') :
    Sorted P existingKeys (rows++later) st' := by
  induction later generalizing rows st with
  | nil =>
      cases hrun
      rwa [List.append_nil]
  | cons row later ih =>
      rw [List.foldlM_cons] at hrun
      cases hstep : validateRow P existingKeys st row with
      | error e =>
          rw [hstep] at hrun
          cases hrun
      | ok mid =>
          rw [hstep] at hrun
          have hbefore : ∀ r ∈ rows,r.row < row.row := by
            intro r hr
            rw [List.map_append,List.pairwise_append] at hrising
            exact hrising.2.2 r.row (List.mem_map_of_mem hr) row.row (by simp)
          have hmid := h.step hbefore (validateRow_cases hstep)
          have := ih hmid (by rwa [List.append_assoc,List.singleton_append]) hrun
          rwa [List.append_assoc,List.singleton_append] at this

end

/-- Every record behind the header is accepted, refused by the parser or refused by the validation,
once; the accepted rows have new keys, each its own; and the two refusals that speak of keys are
true. -/
theorem csv_import_partition (P : Platform) (text : JsString) (existingKeys : List JsString)
    (rows : List Row) (parseErrors : List RowError) (accepted : List Accepted)
    (errors : List RowError) (hparse : parseTargetCsv P text = .ok (rows,parseErrors))
    (hvalidate : validateTargetImportRows P rows existingKeys = .ok (accepted,errors)) :
    ∃ first records layout,splitCsvRecords (withoutMark text) = .ok (first::records) ∧
      layoutOf P.toLowerCase first = .ok layout ∧
      ((dataRecords layout (first::records)).map Entry.line).Nodup ∧
      (accepted.map Accepted.row++parseErrors.map RowError.row++errors.map RowError.row).Perm
        ((dataRecords layout (first::records)).map Entry.line) ∧
      (∀ a ∈ accepted,∃ key,keyOf P a = .ok key ∧ key ∉ existingKeys) ∧
      accepted.Pairwise (fun a b => keyOf P a ≠ keyOf P b) ∧
      (∀ e ∈ errors,e.error = js "duplicate_row" → ∃ row ∈ rows,row.row = e.row ∧
        ∃ a ∈ accepted,a.row < e.row ∧ ∃ key,keyOf P a = .ok key ∧ rowKey P row = .ok key) ∧
      ∀ e ∈ errors,e.error = js "target_exists" → ∃ row ∈ rows,row.row = e.row ∧
        ∃ key ∈ existingKeys,rowKey P row = .ok key := by
  obtain ⟨first,records,layout,hsplit,hlayout,hrows⟩ := parseTargetCsv_records hparse
  obtain ⟨hperm,hsublist⟩ := @parseRows_lines P layout (dataRecords layout (first::records))
  rw [← hrows] at hperm hsublist
  have hlines : ((dataRecords layout (first::records)).map Entry.line).Pairwise (· < ·) :=
    (splitCsvRecords_rising hsplit).1.sublist ((dataRecords_sublist layout _).map _)
  cases hrun : rows.foldlM (validateRow P existingKeys) ⟨[],[],[]⟩ with
  | error e =>
      rw [validateTargetImportRows,hrun] at hvalidate
      cases hvalidate
  | ok st =>
      rw [validateTargetImportRows,hrun] at hvalidate
      cases hvalidate
      have hstart : Sorted P existingKeys [] ⟨[],[],[]⟩ :=
        ⟨.nil,rfl,List.nodup_nil,by simp,by simp,by simp⟩
      have hsorted := hstart.run rows (hlines.sublist hsublist) hrun
      refine ⟨first,records,layout,hsplit,hlayout,hlines.imp (fun h => h.ne),?_,?_,?_,
        hsorted.duplicate,hsorted.existing⟩
      · rw [List.append_assoc]
        refine (List.perm_append_comm.append_left _).trans ?_
        rw [← List.append_assoc]
        exact (hsorted.lines.append_right _).trans hperm
      · intro a ha
        have hmem : keyOf P a ∈ st.seen.map fun p => Except.ok p.1 := by
          rw [← hsorted.keys]
          exact List.mem_map_of_mem ha
        obtain ⟨p,hp,hkey⟩ := List.mem_map.mp hmem
        exact ⟨p.1,hkey.symm,hsorted.fresh p hp⟩
      · have hnodup : (st.accepted.map (keyOf P)).Nodup := by
          rw [hsorted.keys]
          have hinjective : Function.Injective (Except.ok : JsString → Except Failure JsString) :=
            fun _ _ h => Except.ok.inj h
          have := hsorted.distinct.map hinjective
          rwa [List.map_map] at this
        exact List.pairwise_map.mp hnodup

end

/-- A header, a name in two spellings, one that is there already, no name, and two cells. -/
def sampleText : JsString := js "fqdn\na.\na\nb\n-\nc,d"

def sampleKeys : List JsString := [js "fqdn"++[0]++js "b"]

theorem sample_lines : ((parseTargetCsv TargetStability.small sampleText).toOption.bind fun parsed =>
    (validateTargetImportRows TargetStability.small parsed.1 sampleKeys).toOption.map fun sorted =>
      (parsed.2.map RowError.row,sorted.1.map Accepted.row,
        sorted.2.map fun e => (e.row,e.error))) =
    some ([6],[2],
      [(3,js "duplicate_row"),(4,js "target_exists"),(5,js "invalid_target")]) := by
  decide +kernel

theorem eq_ok_of_toOption {ε α : Type} {r : Except ε α} {a : α} (h : r.toOption = some a) :
    r = .ok a := by
  cases r with
  | error e => cases h
  | ok b =>
      cases h
      rfl

theorem sample_partition :
    ∃ rows parseErrors accepted errors,
      parseTargetCsv TargetStability.small sampleText = .ok (rows,parseErrors) ∧
      validateTargetImportRows TargetStability.small rows sampleKeys = .ok (accepted,errors) ∧
      accepted.map Accepted.row = [2] ∧ parseErrors.map RowError.row = [6] ∧
      errors.map (fun e => (e.row,e.error)) =
        [(3,js "duplicate_row"),(4,js "target_exists"),(5,js "invalid_target")] ∧
      ∀ e ∈ errors,e.error = js "duplicate_row" → ∃ row ∈ rows,row.row = e.row ∧
        ∃ a ∈ accepted,a.row < e.row ∧ ∃ key,keyOf TargetStability.small a = .ok key ∧
          rowKey TargetStability.small row = .ok key := by
  obtain ⟨parsed,hparse,hrest⟩ := Option.bind_eq_some_iff.mp sample_lines
  obtain ⟨sorted,hvalidate,hlines⟩ := Option.map_eq_some_iff.mp hrest
  simp only [Prod.mk.injEq] at hlines
  obtain ⟨hwrong,haccepted,herrors⟩ := hlines
  have hparse' := eq_ok_of_toOption hparse
  have hvalidate' := eq_ok_of_toOption hvalidate
  obtain ⟨_,_,_,-,-,-,-,-,-,hduplicate,-⟩ :=
    csv_import_partition _ _ _ _ _ _ _ hparse' hvalidate'
  exact ⟨parsed.1,parsed.2,sorted.1,sorted.2,hparse',hvalidate',haccepted,hwrong,herrors,hduplicate⟩

end AstraNull.TargetCsvImport
