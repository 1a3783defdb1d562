import Mathlib
import AstraNull.JsonText
import AstraNull.ScriptText

/-!
# The chronology of ownership rows

`lib/ownershipTransitions.mjs`: the instant an explicit-zone clock text denotes, with its
fraction of a second kept digit by digit, the order of instants, and the time a new row of a
target receives. Rows that cannot be read refuse the allocation.
-/
namespace AstraNull.OwnershipTransitions
open JsonText ScriptText

abbrev Text := List Char

/-- Whole seconds since the epoch and the decimals after them, without trailing zeros. -/
structure Instant where
  seconds : ℤ
  fraction : List ℕ
deriving DecidableEq

def maxDateMs : ℤ := 8640000000000000

def maxDateSeconds : ℤ := 8640000000000

def readDigits : ℕ → ℕ → Text → Option (ℕ × Text)
  | 0,acc,cs => some (acc,cs)
  | n+1,acc,c::cs => if c.isDigit then readDigits n (acc*10+(c.toNat-48)) cs else none
  | _+1,_,[] => none

/-- Exactly so many digits, as a number. -/
def digits (n : ℕ) (cs : Text) : Option (ℕ × Text) := readDigits n 0 cs

def expect (allowed : List Char) : Text → Option Text
  | c::cs => if c ∈ allowed then some cs else none
  | [] => none

/-- Four digits, or a sign and six. Year zero has no negative spelling. -/
def readYear : Text → Option (ℤ × Text)
  | '+'::cs => do
      let (y,cs) ← digits 6 cs
      return ((y : ℤ),cs)
  | '-'::cs => do
      let (y,cs) ← digits 6 cs
      if y = 0 then none else some (-(y : ℤ),cs)
  | cs => do
      let (y,cs) ← digits 4 cs
      return ((y : ℤ),cs)

def dropTrailingZeros (ds : List ℕ) : List ℕ := (ds.reverse.dropWhile (· = 0)).reverse

def readFraction : Text → Option (List ℕ × Text)
  | '.'::cs =>
      let ds := cs.takeWhile Char.isDigit
      if ds = [] then none
      else some (dropTrailingZeros (ds.map fun c => c.toNat-48),cs.dropWhile Char.isDigit)
  | cs => some ([],cs)

/-- Seconds by which local time is ahead. -/
def readZone : Text → Option (ℤ × Text)
  | 'Z'::cs => some (0,cs)
  | 'z'::cs => some (0,cs)
  | sign::cs => do
      if sign ≠ '+' ∧ sign ≠ '-' then none
      let (h,cs) ← digits 2 cs
      let cs ← expect [':'] cs
      let (m,cs) ← digits 2 cs
      if 23 < h ∨ 59 < m then none
      let ahead : ℤ := h*3600+m*60
      return (if sign = '-' then -ahead else ahead,cs)
  | [] => none

def isLeapYear (y : ℤ) : Bool := y % 4 = 0 && (y % 100 ≠ 0 || y % 400 = 0)

def daysInMonth (y : ℤ) : List ℕ :=
  [31,if isLeapYear y then 29 else 28,31,30,31,30,31,31,30,31,30,31]

/-- Days from the epoch to the first day of a year. -/
def daysBeforeYear (y : ℤ) : ℤ := 365*(y-1970)+(y-1)/4-(y-1)/100+(y-1)/400-477

def daysBefore (y : ℤ) (mo d : ℕ) : ℤ :=
  daysBeforeYear y+((daysInMonth y).take (mo-1)).sum+(d-1)

def ownershipTransitionInstant (value : JsString) : Option Instant := do
  let (y,cs) ← readYear (chars value)
  let cs ← expect ['-'] cs
  let (mo,cs) ← digits 2 cs
  let cs ← expect ['-'] cs
  let (d,cs) ← digits 2 cs
  let cs ← expect ['T','t'] cs
  let (h,cs) ← digits 2 cs
  let cs ← expect [':'] cs
  let (mi,cs) ← digits 2 cs
  let cs ← expect [':'] cs
  let (s,cs) ← digits 2 cs
  let (fraction,cs) ← readFraction cs
  let (ahead,cs) ← readZone cs
  if cs ≠ [] then none
  if mo < 1 ∨ 12 < mo ∨ d < 1 ∨ (daysInMonth y).getD (mo-1) 0 < d ∨ 23 < h ∨ 59 < mi ∨ 59 < s then
    none
  let seconds := daysBefore y mo d*86400+h*3600+mi*60+s-ahead
  if maxDateSeconds < |seconds| ∨ (seconds = maxDateSeconds ∧ fraction ≠ []) then none
  return ⟨seconds,fraction⟩

def padEnd (width : ℕ) (ds : List ℕ) : List ℕ := ds++List.replicate (width-ds.length) 0

def compareDigits : List ℕ → List ℕ → Ordering
  | a::as,b::bs => (compare a b).then (compareDigits as bs)
  | _,_ => .eq

def compareOwnershipInstants (left right : Instant) : Ordering :=
  if left.seconds ≠ right.seconds then compare left.seconds right.seconds
  else
    let width := max left.fraction.length right.fraction.length
    compareDigits (padEnd width left.fraction) (padEnd width right.fraction)

/-- A row of `targetVerifications`. -/
structure Verification where
  id : JsString
  tenantId : JsString
  targetId : JsString
  state : JsString
  sourceKind : JsString
  sourceRef : JsVal
  transitionedAt : JsString
  transitionedBy : JsString
  auditEntryId : JsString

def isOf (tenantId targetId : JsString) (row : Verification) : Bool :=
  row.tenantId == tenantId && row.targetId == targetId

/-- The latest instant so far; nothing when a row cannot be read. -/
def latestInstant (rows : List Verification) : Option (Option Instant) :=
  rows.foldlM (fun latest row => do
    let instant ← ownershipTransitionInstant row.transitionedAt
    match latest with
    | none => some (some instant)
    | some l => some (some (if compareOwnershipInstants instant l = .gt then instant else l))) none

/-- The first whole millisecond above an instant. -/
def afterInstant (i : Instant) : ℤ :=
  i.seconds*1000+(((padEnd 3 i.fraction).take 3).foldl (fun acc d => acc*10+d) 0 : ℕ)+1

/-- The milliseconds of the new row, or the exception. -/
def allocateOwnershipTransitionAt (rows : List Verification) (tenantId targetId : JsString)
    (nowMs : ℤ) : Option ℤ := do
  if maxDateMs < |nowMs| then none
  let latest ← latestInstant (rows.filter (isOf tenantId targetId))
  let nextMs := match latest with
    | none => nowMs
    | some l => max (afterInstant l) nowMs
  if maxDateMs < nextMs ∨ nextMs < -maxDateMs then none
  return nextMs

end AstraNull.OwnershipTransitions
