import Mathlib
import AstraNull.OwnershipTransitions
import AstraNull.RuntimeStore

/-!
# Calendar arithmetic of policies and series

The scheduling half of `contracts/testPolicyManagement.mjs`. Times are milliseconds since the
epoch, `Date.UTC` normalises its fields, and what a time zone shows at an instant is a function
of the platform. A date out of range is an exception, which is `none` here.
-/
namespace AstraNull.Schedules
open RuntimeStore OwnershipTransitions

/-- What `Intl.DateTimeFormat` shows, month 1 to 12 and Sunday 0. -/
structure Parts where
  year : ℤ
  month : ℤ
  day : ℤ
  hour : ℤ
  minute : ℤ
  second : ℤ
  weekday : ℕ
deriving DecidableEq

/-- `zonedParts`, from the name of a zone and an instant. -/
abbrev Zone := String → ℤ → Parts

def timeClip (ms : ℤ) : Option ℤ := if maxDateMs < |ms| then none else some ms

/-- `Date.UTC`, with the month counted from zero. Years 0 to 99 are those of 1900. -/
def dateUTC (year month day hour minute second : ℤ) : Option ℤ :=
  let year := if 0 ≤ year ∧ year ≤ 99 then 1900+year else year
  let days := daysBefore (year+month/12) ((month%12).toNat+1) 1+(day-1)
  timeClip (days*86400000+hour*3600000+minute*60000+second*1000)

/-- `getUTCFullYear`, `getUTCMonth` plus one and `getUTCDate` of a day since the epoch, counted
in years that begin in March. -/
def civilDate (day : ℤ) : ℤ × ℤ × ℤ :=
  let shifted := day+719468
  let era := shifted/146097
  let dayOfEra := shifted%146097
  let yearOfEra := (dayOfEra-dayOfEra/1460+dayOfEra/36524-dayOfEra/146096)/365
  let dayOfYear := dayOfEra-(365*yearOfEra+yearOfEra/4-yearOfEra/100)
  let fromMarch := (5*dayOfYear+2)/153
  let month := if fromMarch < 10 then fromMarch+3 else fromMarch-9
  let year := yearOfEra+era*400
  (if month ≤ 2 then year+1 else year,month,dayOfYear-(153*fromMarch+2)/5+1)

example : civilDate 0 = (1970,1,1) ∧ civilDate 19782 = (2024,2,29) ∧
    civilDate (-1) = (1969,12,31) := by decide

section
variable (zone : Zone)

/-- Three rounds at most, each moving by the difference between the wanted and the shown time. -/
def settleZoned (timezone : String) (desired : ℤ) : ℕ → ℤ → Option ℤ
  | 0,candidate => timeClip candidate
  | n+1,candidate => do
      let candidate ← timeClip candidate
      let actual := zone timezone candidate
      let represented ← dateUTC actual.year (actual.month-1) actual.day actual.hour actual.minute
        actual.second
      let adjustment := desired-represented
      if adjustment = 0 then some candidate
      else settleZoned timezone desired n (candidate+adjustment)

def zonedDateToUtc (parts : Parts) (timezone : String) : Option ℤ := do
  let desired ← dateUTC parts.year (parts.month-1) parts.day parts.hour parts.minute parts.second
  settleZoned zone timezone desired 3 desired

def addLocalDays (parts : Parts) (days : ℤ) : Option Parts := do
  let date ← dateUTC parts.year (parts.month-1) (parts.day+days) parts.hour parts.minute parts.second
  let (year,month,day) := civilDate (date/86400000)
  return { parts with
    year := year
    month := month
    day := day }

/-- The last day of the month after the one of the parts. -/
def lastDayOfNextMonth (parts : Parts) : Option ℤ := do
  let date ← dateUTC parts.year (parts.month+1) 0 0 0 0
  return (civilDate (date/86400000)).2.2

def cadenceFloor (cadence : Cadence) (timezone : String) (source : ℤ) (initial : Bool) :
    Option ℤ :=
  if initial then timeClip (source+60000)
  else
    let parts := zone timezone source
    match cadence with
    | .daily => do zonedDateToUtc zone (← addLocalDays parts 1) timezone
    | .weekly => do zonedDateToUtc zone (← addLocalDays parts 7) timezone
    | .monthly => do
        let lastDay ← lastDayOfNextMonth parts
        zonedDateToUtc zone { parts with
          month := parts.month+1
          day := min parts.day lastDay } timezone

/-- The first day from an offset on whose wall clock shows the start of the window. -/
def seekWindow (window : SafeWindow) (floor : ℤ) (parts : Parts) : ℕ → ℤ → Option (Option ℤ)
  | 0,_ => some none
  | n+1,offset => do
      let dateParts ← addLocalDays { parts with
        hour := window.startHour
        minute := window.startMinute
        second := 0 } offset
      let candidate ← zonedDateToUtc zone dateParts window.timezone
      let resolved := zone window.timezone candidate
      if resolved.year = dateParts.year ∧ resolved.month = dateParts.month ∧
          resolved.day = dateParts.day ∧ resolved.hour = dateParts.hour ∧
          resolved.minute = dateParts.minute ∧ resolved.weekday = window.day ∧
          floor ≤ candidate then some (some candidate)
      else seekWindow window floor parts n (offset+1)

def earlier : Option ℤ → Option ℤ → Option ℤ
  | none,b => b
  | a,none => a
  | some a,some b => some (if b < a then b else a)

/-- Day offsets 0 to 370 of every window. -/
def alignToSafeWindow (windows : List SafeWindow) (floor : ℤ) : Option (Option ℤ) :=
  if windows = [] then some (some floor)
  else windows.foldlM (fun earliest window => do
    let found ← seekWindow zone window floor (zone window.timezone floor) 371 0
    return earlier earliest found) none

/-- `nextPolicyRunAt`: an instant, no instant, or the exception of a date out of range. -/
def nextPolicyRunAt (policy : TestPolicy) (source : ℤ) (initial : Bool) : Option (Option ℤ) :=
  if policy.enabled = false ∨ policy.state ≠ .active then some none
  else match policy.cadence with
    | .manual => some none
    | .eventDriven => some none
    | .timed cadence => do
        let floor ← cadenceFloor zone cadence policy.timezone source initial
        alignToSafeWindow zone policy.safeWindows floor

end

end AstraNull.Schedules
