import Mathlib
import AstraNull.JsonText
import AstraNull.ScriptText

/-!
# Records of a comma separated text

`splitCsvRecords` of `lib/targetCsvImport.mjs`: one pass over the units of the text. A quoted
field may hold separators, line ends and doubled quotes.
-/
namespace AstraNull.CsvRecords
open JsonText ScriptText

structure Entry where
  line : ℕ
  fields : List JsString
deriving DecidableEq

structure Reader where
  records : List Entry
  field : JsString
  record : List JsString
  quoted : Bool
  line : ℕ
  recordLine : ℕ

def Reader.initial : Reader := ⟨[],[],[],false,1,1⟩

/-- One round of the loop; the flag says that the next unit was taken with this one. -/
def Reader.step (r : Reader) (char : UInt16) (next : Option UInt16) : Reader × Bool :=
  if r.quoted then
    if char = 34 ∧ next = some 34 then
      (⟨r.records,r.field++[34],r.record,true,r.line,r.recordLine⟩,true)
    else if char = 34 then (⟨r.records,r.field,r.record,false,r.line,r.recordLine⟩,false)
    else
      let line := if char = 10 then r.line+1 else r.line
      (⟨r.records,r.field++[char],r.record,true,line,r.recordLine⟩,false)
  else if char = 34 ∧ r.field = [] then
    (⟨r.records,r.field,r.record,true,r.line,r.recordLine⟩,false)
  else if char = 44 then
    (⟨r.records,[],r.record++[r.field],false,r.line,r.recordLine⟩,false)
  else if char = 10 ∨ char = 13 then
    (⟨r.records++[⟨r.recordLine,r.record++[r.field]⟩],[],[],false,r.line+1,r.line+1⟩,
      decide (char = 13 ∧ next = some 10))
  else (⟨r.records,r.field++[char],r.record,false,r.line,r.recordLine⟩,false)

def Reader.read : Reader → JsString → Reader
  | r,[] => r
  | r,[char] => (r.step char none).1
  | r,char::next::rest =>
      let s := r.step char (some next)
      if s.2 then s.1.read rest else s.1.read (next::rest)

/-- The record that the text breaks off in. -/
def Reader.finish (r : Reader) : List Entry :=
  if r.field ≠ [] ∨ r.record ≠ [] then r.records++[⟨r.recordLine,r.record++[r.field]⟩]
  else r.records

def Entry.filled (entry : Entry) : Bool := entry.fields.any fun value => trim value ≠ []

def splitCsvRecords (text : JsString) : Except JsString (List Entry) :=
  let r := Reader.initial.read text
  if r.quoted then
    .error (js "Unterminated quoted field starting on line "++js (toString r.recordLine)++js ".")
  else .ok (r.finish.filter Entry.filled)

theorem read_cons (r : Reader) (char : UInt16) (rest : JsString) :
    r.read (char::rest) =
      if (r.step char rest.head?).2 then (r.step char rest.head?).1.read rest.tail
      else (r.step char rest.head?).1.read rest := by
  cases rest with
  | nil =>
      rw [Reader.read,List.head?_nil,List.tail_nil,Reader.read]
      split_ifs <;> rfl
  | cons next rest => rw [Reader.read]; rfl

def doubled (cell : JsString) : JsString := cell.flatMap fun u => if u = 34 then [34,34] else [u]

def quoteCell (cell : JsString) : JsString := [34]++doubled cell++[34]

def writeRow (row : List JsString) : JsString := [44].intercalate (row.map quoteCell)

def lineEnds : List JsString := [[10],[13,10],[13]]

/-- The texts of a table: every row ends a line in one of the three ways, the last one perhaps in
none. -/
inductive Written : List (List JsString) → JsString → Prop
  | nil : Written [] []
  | last (row : List JsString) : Written [row] (writeRow row)
  | cons {rows : List (List JsString)} {text : JsString} (row : List JsString) (ending : JsString) :
      ending ∈ lineEnds → Written rows text → Written (row::rows) (writeRow row++ending++text)

/-- The reader in a field that has come to `field`. -/
def Reader.at (r : Reader) (field : JsString) (record : List JsString) (quoted : Bool)
    (line : ℕ) : Reader := ⟨r.records,field,record,quoted,line,r.recordLine⟩

theorem read_doubled (r : Reader) (record : List JsString) (cell field rest : JsString)
    (line : ℕ) (hrest : rest.head? ≠ some 34) :
    (r.at field record true line).read (doubled cell++34::rest) =
      (r.at (field++cell) record false (line+cell.count 10)).read rest := by
  induction cell generalizing field line with
  | nil =>
      rw [doubled,List.flatMap_nil,List.nil_append,read_cons]
      simp [Reader.step,Reader.at,hrest]
  | cons u cell ih =>
      have htail : doubled (u::cell) = (if u = 34 then [34,34] else [u])++doubled cell := rfl
      by_cases hquote : u = 34
      · rw [htail,if_pos hquote,hquote]
        have := ih (field++[34]) line
        simp only [List.cons_append,List.nil_append]
        rw [read_cons]
        simpa [Reader.step,Reader.at,List.append_assoc] using this
      · rw [htail,if_neg hquote]
        simp only [List.cons_append,List.nil_append]
        rw [read_cons]
        by_cases hline : u = 10
        · have := ih (field++[u]) (line+1)
          simpa [Reader.step,Reader.at,hquote,hline,add_assoc,add_comm] using this
        · have := ih (field++[u]) line
          simpa [Reader.step,Reader.at,hquote,hline] using this

/-- A written cell brings the reader to its end, with the cell as its field. -/
theorem read_cell (r : Reader) (record : List JsString) (cell rest : JsString) (line : ℕ)
    (hrest : rest.head? ≠ some 34) :
    (r.at [] record false line).read (quoteCell cell++rest) =
      (r.at cell record false (line+cell.count 10)).read rest := by
  have hbody := read_doubled r record cell [] rest line hrest
  rw [List.nil_append] at hbody
  rw [quoteCell,List.append_assoc,List.append_assoc]
  change (r.at [] record false line).read (34::(doubled cell++34::rest)) = _
  rw [read_cons,← hbody]
  simp [Reader.step,Reader.at]

theorem writeRow_cons (cell next : JsString) (row : List JsString) :
    writeRow (cell::next::row) = quoteCell cell++44::writeRow (next::row) := by
  rw [writeRow,writeRow,List.map_cons,List.map_cons,List.intercalate_cons_cons]
  simp

/-- A written row leaves its last cell as the field and the others in the record. -/
theorem read_row (r : Reader) (row record : List JsString) (hrow : row ≠ []) (rest : JsString)
    (line : ℕ) (hrest : rest.head? ≠ some 34) :
    ∃ before cell line',before++[cell] = row ∧
      (r.at [] record false line).read (writeRow row++rest) =
        (r.at cell (record++before) false line').read rest := by
  induction row generalizing record line with
  | nil => exact absurd rfl hrow
  | cons cell row ih =>
      cases row with
      | nil =>
          refine ⟨[],cell,line+cell.count 10,rfl,?_⟩
          have hrow : writeRow [cell] = quoteCell cell := by simp [writeRow]
          rw [hrow,read_cell r record cell rest line hrest,List.append_nil]
      | cons next row =>
          obtain ⟨before,last,line',hsplit,hread⟩ :=
            ih (record++[cell]) (by simp) (line+cell.count 10)
          refine ⟨cell::before,last,line',by rw [List.cons_append,hsplit],?_⟩
          rw [writeRow_cons,List.append_assoc,read_cell _ _ _ _ _ (by simp),List.cons_append,
            read_cons]
          simpa [Reader.step,Reader.at,List.append_assoc] using hread

theorem head_writeRow {row : List JsString} (hrow : row ≠ []) :
    (writeRow row).head? = some 34 := by
  cases row with
  | nil => exact absurd rfl hrow
  | cons cell row =>
      cases row with
      | nil => simp [writeRow,quoteCell]
      | cons next row => rw [writeRow_cons,quoteCell]; rfl

theorem Written.head {rows : List (List JsString)} {text : JsString} (h : Written rows text)
    (hrows : ∀ row ∈ rows,row ≠ []) : text.head? ≠ some 10 := by
  cases h with
  | nil => simp
  | last row => rw [head_writeRow (hrows row (by simp))]; simp
  | cons row ending hending htext =>
      rw [List.append_assoc,List.head?_append,head_writeRow (hrows row (by simp))]
      simp

/-- Any of the line ends closes the record. -/
theorem read_lineEnd (r : Reader) (record : List JsString) (cell ending rest : JsString)
    (line : ℕ) (hending : ending ∈ lineEnds) (hrest : rest.head? ≠ some 10) :
    (r.at cell record false line).read (ending++rest) =
      Reader.read ⟨r.records++[⟨r.recordLine,record++[cell]⟩],[],[],false,line+1,line+1⟩ rest := by
  simp only [lineEnds,List.mem_cons,List.not_mem_nil,or_false] at hending
  rcases hending with rfl | rfl | rfl
  · rw [List.cons_append,read_cons]
    simp [Reader.step,Reader.at]
  · rw [List.cons_append,read_cons]
    simp [Reader.step,Reader.at]
  · rw [List.cons_append,read_cons]
    simp [Reader.step,Reader.at,hrest]

theorem read_written {rows : List (List JsString)} {text : JsString} (h : Written rows text)
    (hrows : ∀ row ∈ rows,row ≠ [] ∧ row ≠ [[]]) (records : List Entry) (line recordLine : ℕ) :
    let r := Reader.read ⟨records,[],[],false,line,recordLine⟩ text
    r.quoted = false ∧ r.finish.map Entry.fields = records.map Entry.fields++rows := by
  induction h generalizing records line recordLine with
  | nil => simp [Reader.read,Reader.finish]
  | last row =>
      have hrow := hrows row (by simp)
      obtain ⟨before,cell,line',hsplit,hread⟩ := read_row
        ⟨records,[],[],false,line,recordLine⟩ row [] hrow.1 [] line (by simp)
      rw [List.append_nil] at hread
      have hsome : cell ≠ [] ∨ before ≠ [] := by
        by_contra hnone
        rw [not_or,not_not,not_not] at hnone
        exact hrow.2 (by rw [← hsplit,hnone.1,hnone.2]; rfl)
      dsimp only
      rw [show (⟨records,[],[],false,line,recordLine⟩ : Reader) =
        Reader.at ⟨records,[],[],false,line,recordLine⟩ [] [] false line from rfl,hread]
      simp [Reader.read,Reader.at,Reader.finish,hsome,hsplit]
  | @cons rows text row ending hending htext ih =>
      have hrow := hrows row (by simp)
      have hrest : ∀ row ∈ rows,row ≠ [] ∧ row ≠ [[]] :=
        fun row hmem => hrows row (List.mem_cons_of_mem _ hmem)
      have hhead : (ending++text).head? ≠ some 34 := by
        simp only [lineEnds,List.mem_cons,List.not_mem_nil,or_false] at hending
        rcases hending with rfl | rfl | rfl <;> simp
      obtain ⟨before,cell,line',hsplit,hread⟩ := read_row
        ⟨records,[],[],false,line,recordLine⟩ row [] hrow.1 (ending++text) line hhead
      have hend := read_lineEnd ⟨records,[],[],false,line,recordLine⟩ before cell ending text line'
        hending (htext.head fun row hmem => (hrest row hmem).1)
      dsimp only
      rw [List.append_assoc,show (⟨records,[],[],false,line,recordLine⟩ : Reader) =
        Reader.at ⟨records,[],[],false,line,recordLine⟩ [] [] false line from rfl,hread,
        List.nil_append,hend]
      have := ih hrest (records++[⟨recordLine,before++[cell]⟩]) (line'+1) (line'+1)
      refine ⟨this.1,this.2.trans ?_⟩
      simp [hsplit]

/-- Where a text stands by the quoting rules alone: at the start of a field, in a plain one, in a
quoted one or behind a quote in it. -/
inductive Mode
  | start
  | plain
  | quoted
  | behind
deriving DecidableEq

def isSeparator (u : UInt16) : Bool := u = 44 || u = 10 || u = 13

def Mode.next : Mode → UInt16 → Mode
  | .quoted,u => if u = 34 then .behind else .quoted
  | .start,u => if u = 34 then .quoted else if isSeparator u then .start else .plain
  | .plain,u => if isSeparator u then .start else .plain
  | .behind,u => if u = 34 then .quoted else if isSeparator u then .start else .plain

def endsQuoted (text : JsString) : Prop := text.foldl Mode.next .start = .quoted

instance (text : JsString) : Decidable (endsQuoted text) :=
  inferInstanceAs (Decidable (_ = _))

/-- The reader before the rest of the text, and the mode there. -/
def Agrees (r : Reader) (rest : JsString) : Mode → Prop
  | .start => r.quoted = false ∧ r.field = []
  | .plain => r.quoted = false ∧ r.field ≠ []
  | .quoted => r.quoted = true
  | .behind => r.quoted = false ∧ rest.head? ≠ some 34

/-- A unit outside quotes that opens no quoted field. -/
theorem agrees_outside {r : Reader} {u : UInt16} {rest : JsString} (hr : r.quoted = false)
    (hopen : ¬ (u = 34 ∧ r.field = [])) :
    let s := r.step u rest.head?
    (s.2 = true → rest.head? = some 10 ∧ isSeparator u = true) ∧
      ∀ later,Agrees s.1 later (if isSeparator u then .start else .plain) := by
  by_cases hcomma : u = 44
  · simp [Reader.step,hr,isSeparator,hcomma,Agrees]
  · by_cases hline : u = 10 ∨ u = 13
    · rcases hline with rfl | rfl <;> simp [Reader.step,hr,isSeparator,Agrees]
    · rw [not_or] at hline
      simp [Reader.step,hr,isSeparator,hcomma,hline,hopen,Agrees]

/-- The reader after a round agrees with the mode there, whether it took one unit or two. -/
def Follows (r : Reader) (mode : Mode) (u : UInt16) (rest : JsString) : Prop :=
  let s := r.step u rest.head?
  (s.2 = true → ∃ v tail,rest = v::tail ∧ Agrees s.1 tail ((mode.next u).next v)) ∧
    (s.2 = false → Agrees s.1 rest (mode.next u))

theorem follows_outside {r : Reader} {mode : Mode} {u : UInt16} {rest : JsString}
    (hr : r.quoted = false) (hopen : ¬ (u = 34 ∧ r.field = []))
    (hmode : mode.next u = if isSeparator u then .start else .plain) : Follows r mode u rest := by
  obtain ⟨htaken,hagrees⟩ := @agrees_outside r u rest hr hopen
  rw [Follows,hmode]
  refine ⟨?_,fun _ => hagrees rest⟩
  intro htwo
  obtain ⟨hhead,hseparator⟩ := htaken htwo
  obtain ⟨tail,rfl⟩ := List.head?_eq_some_iff.mp hhead
  refine ⟨10,tail,rfl,?_⟩
  have := hagrees tail
  rw [hseparator,if_pos rfl] at this ⊢
  exact this

theorem agrees_step {r : Reader} {mode : Mode} {u : UInt16} {rest : JsString}
    (h : Agrees r (u::rest) mode) : Follows r mode u rest := by
  cases mode with
  | start =>
      obtain ⟨hr,hfield⟩ := h
      by_cases hquote : u = 34
      · simp [Follows,Reader.step,Mode.next,Agrees,hr,hfield,hquote]
      · exact follows_outside hr (fun hopen => hquote hopen.1) (if_neg hquote)
  | plain => exact follows_outside h.1 (fun hopen => h.2 hopen.2) rfl
  | quoted =>
      have hr : r.quoted = true := h
      by_cases hquote : u = 34
      · by_cases hnext : rest.head? = some 34
        · obtain ⟨tail,rfl⟩ := List.head?_eq_some_iff.mp hnext
          simp [Follows,Reader.step,Mode.next,Agrees,hr,hquote]
        · simp [Follows,Reader.step,Mode.next,Agrees,hr,hquote,hnext]
      · simp [Follows,Reader.step,Mode.next,Agrees,hr,hquote]
  | behind =>
      have hquote : u ≠ 34 := by simpa using h.2
      exact follows_outside h.1 (fun hopen => hquote hopen.1) (if_neg hquote)

theorem read_mode (r : Reader) (text : JsString) (mode : Mode) (h : Agrees r text mode) :
    (r.read text).quoted = true ↔ text.foldl Mode.next mode = .quoted := by
  -- A round takes one unit or two, so the induction is on the length.
  induction hlength : text.length using Nat.strong_induction_on generalizing text r mode with
  | _ n ih =>
      subst hlength
      cases text with
      | nil => cases mode <;> simp_all [Agrees,Reader.read]
      | cons u rest =>
          obtain ⟨htwo,hone⟩ := agrees_step h
          rw [read_cons,List.foldl_cons]
          cases htaken : (r.step u rest.head?).2 with
          | true =>
              obtain ⟨v,tail,rfl,hagrees⟩ := htwo htaken
              rw [if_pos rfl,List.foldl_cons]
              exact ih tail.length (by simp) _ tail _ hagrees rfl
          | false =>
              rw [if_neg Bool.false_ne_true]
              exact ih rest.length (by simp) _ rest _ (hone htaken) rfl

theorem quoted_iff (text : JsString) :
    (Reader.initial.read text).quoted = true ↔ endsQuoted text :=
  read_mode _ text .start ⟨rfl,rfl⟩

theorem filter_filled {rows : List (List JsString)} {entries : List Entry}
    (hrows : ∀ row ∈ rows,∃ cell ∈ row,trim cell ≠ []) (h : entries.map Entry.fields = rows) :
    entries.filter Entry.filled = entries := by
  rw [List.filter_eq_self]
  intro entry hentry
  obtain ⟨cell,hcell,hfilled⟩ := hrows entry.fields (h ▸ List.mem_map_of_mem hentry)
  exact List.any_eq_true.mpr ⟨cell,hcell,by simpa using hfilled⟩

/-- Reading is the inverse of quoting, for every table without blank rows; and a text is refused
exactly when it ends inside a quoted field. -/
theorem splitCsvRecords_inverts_quoting :
    (∀ (rows : List (List JsString)) (text : JsString),
      (∀ row ∈ rows,∃ cell ∈ row,trim cell ≠ []) → Written rows text →
      ∃ entries,splitCsvRecords text = .ok entries ∧ entries.map Entry.fields = rows) ∧
    ∀ text,endsQuoted text ↔ ∃ message,splitCsvRecords text = .error message := by
  constructor
  · intro rows text hrows hwritten
    have hnonempty : ∀ row ∈ rows,row ≠ [] ∧ row ≠ [[]] := by
      intro row hrow
      obtain ⟨cell,hcell,hfilled⟩ := hrows row hrow
      refine ⟨List.ne_nil_of_mem hcell,?_⟩
      rintro rfl
      rw [List.mem_singleton] at hcell
      exact hfilled (by rw [hcell]; rfl)
    obtain ⟨hquoted,hfields⟩ := read_written hwritten hnonempty [] 1 1
    rw [List.map_nil,List.nil_append] at hfields
    refine ⟨(Reader.initial.read text).finish,?_,hfields⟩
    rw [splitCsvRecords]
    rw [if_neg (by simpa [Reader.initial] using hquoted)]
    exact congrArg _ (filter_filled hrows hfields)
  · intro text
    rw [← quoted_iff,splitCsvRecords]
    split_ifs with hquoted <;> simp [hquoted]

theorem two_rows_read :
    Written [[js "a,\"",js ""],[js "b\n"]] (js "\"a,\"\"\",\"\"\r\n\"b\n\"") ∧
      ∃ entries,splitCsvRecords (js "\"a,\"\"\",\"\"\r\n\"b\n\"") = .ok entries ∧
        entries.map Entry.fields = [[js "a,\"",js ""],[js "b\n"]] := by
  have hwritten : Written [[js "a,\"",js ""],[js "b\n"]]
      (js "\"a,\"\"\",\"\"\r\n\"b\n\"") := by
    have := Written.cons [js "a,\"",js ""] [13,10] (by simp [lineEnds])
      (.last [js "b\n"])
    exact (by decide : writeRow [js "a,\"",js ""]++[13,10]++writeRow [js "b\n"] =
      js "\"a,\"\"\",\"\"\r\n\"b\n\"") ▸ this
  exact ⟨hwritten,splitCsvRecords_inverts_quoting.1 _ _ (by decide) hwritten⟩

/-- The records so far stand on rising lines before the one being read. -/
structure Reader.Ordered (r : Reader) : Prop where
  rising : (r.records.map Entry.line).Pairwise (· < ·)
  before : ∀ entry ∈ r.records,entry.line < r.recordLine
  current : r.recordLine ≤ r.line

theorem Reader.Ordered.step {r : Reader} (h : r.Ordered) (u : UInt16) (next : Option UInt16) :
    (r.step u next).1.Ordered := by
  obtain ⟨hrising,hbefore,hcurrent⟩ := h
  rw [Reader.step]
  dsimp only
  split_ifs
  · exact ⟨hrising,hbefore,hcurrent⟩
  · exact ⟨hrising,hbefore,hcurrent⟩
  · exact ⟨hrising,hbefore,hcurrent.trans (Nat.le_succ _)⟩
  · exact ⟨hrising,hbefore,hcurrent⟩
  · exact ⟨hrising,hbefore,hcurrent⟩
  · exact ⟨hrising,hbefore,hcurrent⟩
  · refine ⟨?_,?_,le_rfl⟩
    · rw [List.map_append,List.pairwise_append]
      refine ⟨hrising,List.pairwise_singleton _ _,?_⟩
      simpa using hbefore
    · intro entry hentry
      rcases List.mem_append.mp hentry with hentry | hentry
      · exact (hbefore entry hentry).trans_le (hcurrent.trans (Nat.le_succ _))
      · rw [List.mem_singleton.mp hentry]
        exact Nat.lt_succ_of_le hcurrent
  · exact ⟨hrising,hbefore,hcurrent⟩

theorem Reader.Ordered.read {r : Reader} (h : r.Ordered) (text : JsString) :
    (r.read text).Ordered := by
  induction r,text using Reader.read.induct with
  | case1 r => exact h
  | case2 r char => exact h.step char none
  | case3 r char next rest s htaken ih =>
      rw [Reader.read]
      rw [if_pos htaken]
      exact ih (h.step char _)
  | case4 r char next rest s htaken ih =>
      rw [Reader.read]
      rw [if_neg htaken]
      exact ih (h.step char _)

/-- The records of a text stand on different lines, in order. -/
theorem splitCsvRecords_rising {text : JsString} {entries : List Entry}
    (h : splitCsvRecords text = .ok entries) :
    (entries.map Entry.line).Pairwise (· < ·) ∧ ∀ entry ∈ entries,entry.filled = true := by
  have hordered : (Reader.initial.read text).Ordered :=
    Reader.Ordered.read ⟨by simp [Reader.initial],by simp [Reader.initial],le_rfl⟩ text
  rw [splitCsvRecords] at h
  split_ifs at h
  cases h
  refine ⟨?_,fun entry hentry => (List.mem_filter.mp hentry).2⟩
  refine List.Pairwise.sublist (List.filter_sublist.map _) ?_
  rw [Reader.finish]
  split_ifs
  · rw [List.map_append,List.pairwise_append]
    refine ⟨hordered.rising,List.pairwise_singleton _ _,?_⟩
    simpa using hordered.before
  · exact hordered.rising

end AstraNull.CsvRecords
