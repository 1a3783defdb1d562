import Mathlib
import AstraNull.JsonText
import AstraNull.ScriptText
import AstraNull.ScriptValue
import AstraNull.CanonicalJson
import AstraNull.RuntimeStore
import AstraNull.Schedules
import AstraNull.CalendarDays

/-!
# Runs inside safe windows

`normalizeSafeWindows` and `isWithinPolicySafeWindow` of `contracts/testPolicyManagement.mjs`, and
what the search of `alignToSafeWindow` finds. In any zone a run that is planned lies in a window.
In zones with a fixed offset the search never misses a start: the wall clocks of the days it tries
are those of all starts from the floor on, and a week of them is enough.
-/
namespace AstraNull.SafeWindows
open JsonText ScriptText ScriptValue CanonicalJson RuntimeStore OwnershipTransitions Schedules
open CalendarDays

/-- `PolicyValidationError`. -/
structure Denial where
  field : String
  message : String

/-- `DAY_INDEX`, with Sunday 0. -/
def dayIndex : List (String × ℕ) :=
  [("sun",0),("sunday",0),("mon",1),("monday",1),("tue",2),("tues",2),("tuesday",2),("wed",3),
    ("wednesday",3),("thu",4),("thur",4),("thurs",4),("thursday",4),("fri",5),("friday",5),
    ("sat",6),("saturday",6)]

def isDigit (u : UInt16) : Bool := 48 ≤ u.toNat && u.toNat ≤ 57

def twoDigits (a b : UInt16) : ℕ := (a.toNat-48)*10+(b.toNat-48)

/-- `TIME_RE`, with the hour and the minute it matches. -/
def readTime : JsString → Option (ℕ × ℕ)
  | [a,b,c,d,e] =>
      if isDigit a && isDigit b && c.toNat = 58 && isDigit d && isDigit e &&
          twoDigits a b ≤ 23 && twoDigits d e ≤ 59 then some (twoDigits a b,twoDigits d e)
      else none
  | _ => none

section
variable (toLowerCase : JsString → JsString) (isTimeZone : String → Bool)

def normalizePolicyTimezone (value : JsVal) (field : String) : Except Denial String :=
  let trimmed := trim (toStr (orElse value (.str (js "UTC"))))
  let timezone := String.ofList (chars (if trimmed = [] then js "UTC" else trimmed))
  if isTimeZone timezone then .ok timezone else .error ⟨field,"Unknown IANA timezone: "++timezone⟩

def windowField (index : ℕ) (name : String) : String :=
  "safe_windows["++toString index++"]"++name

def normalizeSafeWindow (timezone : String) (index : ℕ) (window : JsVal) :
    Except Denial SafeWindow :=
  if !isObject window || isArray window then
    .error ⟨windowField index "","Each safe window must be an object."⟩
  else
    let text := fun name => trim (toStr (orElse (field window name) (.str [])))
    let day := dayIndex.find? fun p => js p.1 = toLowerCase (text "day")
    match day,readTime (text "start"),readTime (text "end") with
    | none,_,_ => .error ⟨windowField index ".day","Safe window day must be Mon through Sun."⟩
    | _,none,_ =>
        .error ⟨windowField index ".start","Safe window start must use 24-hour HH:MM."⟩
    | _,_,none => .error ⟨windowField index ".end","Safe window end must use 24-hour HH:MM."⟩
    | some day,some (startHour,startMinute),some (endHour,endMinute) =>
        if keyLE (text "end") (text "start") then
          .error ⟨windowField index ".end",
            "Safe window end must be later than its start on the same day."⟩
        else do
          let timezone ← normalizePolicyTimezone isTimeZone
            (orElse (field window "timezone") (.str (timezone.toList.flatMap units)))
            (windowField index ".timezone")
          return {
            day := day.2
            startHour := startHour
            startMinute := startMinute
            endHour := endHour
            endMinute := endMinute
            timezone := timezone }

def normalizeSafeWindows (value : JsVal) (timezone : String) : Except Denial (List SafeWindow) :=
  match value with
  | .undefined => .ok []
  | .arr windows =>
      if 14 < windows.length then
        .error ⟨"safe_windows","A policy may define at most 14 safe windows."⟩
      else windows.zipIdx.mapM fun p => normalizeSafeWindow toLowerCase isTimeZone timezone p.2 p.1
  | _ => .error ⟨"safe_windows","safe_windows must be an array."⟩

end

def isWithinPolicySafeWindow (zone : Zone) (windows : List SafeWindow) (now : ℤ) : Bool :=
  windows = [] || (timeClip now).isSome && windows.any fun window =>
    let parts := zone window.timezone now
    let minute := parts.hour*60+parts.minute
    parts.weekday = window.day && window.startHour*60+window.startMinute ≤ minute &&
      minute ≤ window.endHour*60+window.endMinute

/-- What the checks on a window leave. -/
structure IsNormal (window : SafeWindow) : Prop where
  day : window.day < 7
  startHour : window.startHour < 24
  startMinute : window.startMinute < 60
  nonempty : window.startHour*60+window.startMinute < window.endHour*60+window.endMinute

theorem readTime_eq_some {s : JsString} {hour minute : ℕ} (h : readTime s = some (hour,minute)) :
    ∃ a b c d e : UInt16,s = [a,b,c,d,e] ∧ (48 ≤ a.toNat ∧ a.toNat ≤ 57) ∧
      (48 ≤ b.toNat ∧ b.toNat ≤ 57) ∧ c.toNat = 58 ∧ (48 ≤ d.toNat ∧ d.toNat ≤ 57) ∧
      (48 ≤ e.toNat ∧ e.toNat ≤ 57) ∧ hour = twoDigits a b ∧ minute = twoDigits d e ∧
      hour ≤ 23 ∧ minute ≤ 59 := by
  unfold readTime at h
  split at h
  · next a b c d e =>
      split_ifs at h with hc
      cases h
      simp only [Bool.and_eq_true,decide_eq_true_eq,isDigit] at hc
      obtain ⟨⟨⟨⟨⟨⟨ha,hb⟩,hcolon⟩,hd⟩,he⟩,hhour⟩,hminute⟩ := hc
      exact ⟨a,b,c,d,e,rfl,ha,hb,hcolon,hd,he,rfl,rfl,hhour,hminute⟩
  · cases h

/-- Of two texts of this form, the one of the later time is the greater one. -/
theorem time_lt_of_not_keyLE {s t : JsString} {hour minute hour' minute' : ℕ}
    (hs : readTime s = some (hour,minute)) (ht : readTime t = some (hour',minute'))
    (h : ¬ keyLE t s) : hour*60+minute < hour'*60+minute' := by
  obtain ⟨a,b,c,d,e,rfl,ha,hb,hc,hd,he,rfl,rfl,hhour,hminute⟩ := readTime_eq_some hs
  obtain ⟨a',b',c',d',e',rfl,ha',hb',hc',hd',he',rfl,rfl,hhour',hminute'⟩ := readTime_eq_some ht
  simp only [keyLE,not_le,List.map_cons,List.map_nil,List.cons_lt_cons_iff,List.not_lt_nil,
    and_false,or_false,hc,hc'] at h
  simp only [twoDigits] at *
  omega

theorem dayIndex_lt {p : String × ℕ} (h : p ∈ dayIndex) : p.2 < 7 := by
  have hall : ∀ p ∈ dayIndex,p.2 < 7 := by decide
  exact hall p h

section
variable {toLowerCase : JsString → JsString} {isTimeZone : String → Bool} {timezone : String}

theorem isNormal_window {index : ℕ} {value : JsVal} {window : SafeWindow}
    (h : normalizeSafeWindow toLowerCase isTimeZone timezone index value = .ok window) :
    IsNormal window := by
  unfold normalizeSafeWindow at h
  split_ifs at h with hobject
  dsimp only at h
  split at h
  · cases h
  · cases h
  · cases h
  next day startHour startMinute endHour endMinute hday hstart hend =>
  split_ifs at h with hle
  cases hzone : normalizePolicyTimezone isTimeZone
      (orElse (field value "timezone") (.str (timezone.toList.flatMap units)))
      (windowField index ".timezone") with
  | error denial => simp [hzone,bind,Except.bind] at h
  | ok name =>
      simp only [hzone,bind,Except.bind,pure,Except.pure,Except.ok.injEq] at h
      subst h
      obtain ⟨-,-,-,-,-,-,-,-,-,-,-,-,-,hhour,hminute⟩ := readTime_eq_some hstart
      exact {
        day := dayIndex_lt (List.mem_of_find?_eq_some hday)
        startHour := Nat.lt_succ_of_le hhour
        startMinute := Nat.lt_succ_of_le hminute
        nonempty := time_lt_of_not_keyLE hstart hend hle }

theorem isNormal_mapM {values : List (JsVal × ℕ)} {windows : List SafeWindow}
    (h : (values.mapM fun p => normalizeSafeWindow toLowerCase isTimeZone timezone p.2 p.1) =
      .ok windows) : ∀ window ∈ windows,IsNormal window := by
  induction values generalizing windows with
  | nil =>
      cases h
      simp
  | cons p values ih =>
      rw [List.mapM_cons] at h
      cases hp : normalizeSafeWindow toLowerCase isTimeZone timezone p.2 p.1 with
      | error denial => simp [hp,bind,Except.bind] at h
      | ok window =>
          cases hrest : values.mapM fun p =>
              normalizeSafeWindow toLowerCase isTimeZone timezone p.2 p.1 with
          | error denial => simp [hp,hrest,bind,Except.bind] at h
          | ok rest =>
              simp only [hp,hrest,bind,Except.bind,pure,Except.pure,Except.ok.injEq] at h
              subst h
              exact List.forall_mem_cons.mpr ⟨isNormal_window hp,ih hrest⟩

theorem isNormal_windows {value : JsVal} {windows : List SafeWindow}
    (h : normalizeSafeWindows toLowerCase isTimeZone value timezone = .ok windows) :
    ∀ window ∈ windows,IsNormal window := by
  unfold normalizeSafeWindows at h
  split at h
  · cases h
    simp
  · split_ifs at h with hlong
    exact isNormal_mapM h
  · cases h

end

theorem timeClip_eq_some {a b : ℤ} (h : timeClip a = some b) : b = a ∧ |b| ≤ maxDateMs := by
  unfold timeClip at h
  split_ifs at h with hle
  cases h
  exact ⟨rfl,not_lt.mp hle⟩

theorem timeClip_of_le {a : ℤ} (h : |a| ≤ maxDateMs) : timeClip a = some a := by
  rw [timeClip,if_neg (not_lt.mpr h)]

section
variable {zone : Zone}

theorem settleZoned_inRange {timezone : String} {desired candidate t : ℤ} {n : ℕ}
    (h : settleZoned zone timezone desired n candidate = some t) : |t| ≤ maxDateMs := by
  induction n generalizing candidate with
  | zero => exact (timeClip_eq_some h).2
  | succ n ih =>
      rw [settleZoned] at h
      simp only [Option.bind_eq_bind,Option.bind_eq_some_iff] at h
      obtain ⟨clipped,hclip,represented,-,h⟩ := h
      split_ifs at h with hadjust
      · cases h
        exact (timeClip_eq_some hclip).2
      · exact ih h

/-- The window starts at the instant, by the wall clock of its zone. -/
structure Starts (zone : Zone) (window : SafeWindow) (t : ℤ) : Prop where
  weekday : (zone window.timezone t).weekday = window.day
  hour : (zone window.timezone t).hour = window.startHour
  minute : (zone window.timezone t).minute = window.startMinute
  second : (zone window.timezone t).second = 0
  whole : t%1000 = 0

theorem addLocalDays_fields {parts next : Parts} {days : ℤ} (h : addLocalDays parts days = some next) :
    next.hour = parts.hour ∧ next.minute = parts.minute ∧ next.second = parts.second := by
  simp only [addLocalDays,Option.bind_eq_bind,Option.bind_eq_some_iff] at h
  obtain ⟨date,-,h⟩ := h
  cases h
  exact ⟨rfl,rfl,rfl⟩

/-- What the search returns is not before the floor and shows the start of the window. -/
theorem seekWindow_found {window : SafeWindow} {floor t : ℤ} {parts : Parts} {n : ℕ} {offset : ℤ}
    (h : seekWindow zone window floor parts n offset = some (some t)) :
    floor ≤ t ∧ |t| ≤ maxDateMs ∧ (zone window.timezone t).weekday = window.day ∧
      (zone window.timezone t).hour = window.startHour ∧
      (zone window.timezone t).minute = window.startMinute := by
  induction n generalizing offset with
  | zero => simp [seekWindow] at h
  | succ n ih =>
      rw [seekWindow] at h
      simp only [Option.bind_eq_bind,Option.bind_eq_some_iff] at h
      obtain ⟨dateParts,hparts,candidate,hcandidate,h⟩ := h
      split_ifs at h with hmatch
      · cases h
        obtain ⟨-,-,-,hhour,hminute,hday,hfloor⟩ := hmatch
        obtain ⟨hh,hm,-⟩ := addLocalDays_fields hparts
        simp only [zonedDateToUtc,Option.bind_eq_bind,Option.bind_eq_some_iff] at hcandidate
        obtain ⟨desired,-,hsettle⟩ := hcandidate
        exact ⟨hfloor,settleZoned_inRange hsettle,hday,hhour.trans hh,hminute.trans hm⟩
      · exact ih h

theorem earlier_eq_some {a b : Option ℤ} {t : ℤ} (h : earlier a b = some t) :
    a = some t ∨ b = some t := by
  unfold earlier at h
  split at h
  · exact Or.inr h
  · exact Or.inl h
  · split_ifs at h
    · exact Or.inr h
    · exact Or.inl h

/-- An instant that comes out of the fold over the windows is what one of them found. -/
theorem foldlM_found {windows : List SafeWindow} {seek : SafeWindow → Option (Option ℤ)}
    {earliest : Option ℤ} {t : ℤ} (h : windows.foldlM (fun earliest window => do
      let found ← seek window
      return earlier earliest found) earliest = some (some t)) :
    earliest = some t ∨ ∃ window ∈ windows,seek window = some (some t) := by
  induction windows generalizing earliest with
  | nil =>
      rw [List.foldlM_nil] at h
      exact Or.inl (Option.some.inj h)
  | cons window windows ih =>
      simp only [List.foldlM_cons,Option.bind_eq_bind,Option.bind_eq_some_iff] at h
      obtain ⟨next,⟨found,hfound,hnext⟩,h⟩ := h
      cases hnext
      rcases ih h with he | ⟨other,hmem,hother⟩
      · rcases earlier_eq_some he with he | he
        · exact Or.inl he
        · exact Or.inr ⟨window,List.mem_cons_self,by rw [hfound,he]⟩
      · exact Or.inr ⟨other,List.mem_cons_of_mem _ hmem,hother⟩

theorem within_of_shown {windows : List SafeWindow} {window : SafeWindow} {t : ℤ}
    (hmem : window ∈ windows) (hnormal : IsNormal window) (hrange : |t| ≤ maxDateMs)
    (hday : (zone window.timezone t).weekday = window.day)
    (hhour : (zone window.timezone t).hour = window.startHour)
    (hminute : (zone window.timezone t).minute = window.startMinute) :
    isWithinPolicySafeWindow zone windows t = true := by
  have hnonempty := hnormal.nonempty
  have hwithin : (windows.any fun window =>
      let parts := zone window.timezone t
      let minute := parts.hour*60+parts.minute
      parts.weekday = window.day && window.startHour*60+window.startMinute ≤ minute &&
        minute ≤ window.endHour*60+window.endMinute) = true := by
    refine List.any_eq_true.mpr ⟨window,hmem,?_⟩
    simp only [hday,hhour,hminute,decide_true,Bool.true_and,Bool.and_eq_true,decide_eq_true_eq]
    omega
  rw [isWithinPolicySafeWindow,hwithin,timeClip_of_le hrange]
  simp

theorem aligned_within {windows : List SafeWindow} {floor t : ℤ} (hne : windows ≠ [])
    (hnormal : ∀ window ∈ windows,IsNormal window)
    (h : alignToSafeWindow zone windows floor = some (some t)) :
    floor ≤ t ∧ isWithinPolicySafeWindow zone windows t = true := by
  rw [alignToSafeWindow,if_neg hne] at h
  rcases foldlM_found h with he | ⟨window,hmem,hseek⟩
  · cases he
  · obtain ⟨hfloor,hrange,hday,hhour,hminute⟩ := seekWindow_found hseek
    exact ⟨hfloor,within_of_shown hmem (hnormal window hmem) hrange hday hhour hminute⟩

end

/-- What a clock shows, by the milliseconds it has counted. -/
def shown (clock : ℤ) : Parts where
  year := (civilDate (clock/86400000)).1
  month := (civilDate (clock/86400000)).2.1
  day := (civilDate (clock/86400000)).2.2
  hour := clock/3600000%24
  minute := clock/60000%60
  second := clock/1000%60
  weekday := ((clock/86400000+4)%7).toNat

example : shown 1709208305250 = ⟨2024,2,29,12,5,5,4⟩ := by decide

/-- Zones that are whole minutes, less than a day of them, ahead of universal time. Before the
year 1 the shown years are those of the other era. -/
structure Fixed (zone : Zone) (minutes : String → ℤ) : Prop where
  small : ∀ timezone,|minutes timezone| < 1440
  shows : ∀ timezone t,-62135596800000 ≤ t+minutes timezone*60000 → t ≤ maxDateMs →
    zone timezone t = shown (t+minutes timezone*60000)

/-- `Date.UTC` of what a clock shows, in whole seconds. -/
theorem dateUTC_shown {clock : ℤ} (hlow : -683002*86400000 ≤ clock) (hhigh : clock ≤ maxDateMs) :
    dateUTC (shown clock).year ((shown clock).month-1) (shown clock).day (shown clock).hour
      (shown clock).minute (shown clock).second = some (clock/1000*1000) := by
  have hutc := dateUTC_civilDate (show -683002 ≤ clock/86400000 by omega) 0 (clock/3600000%24)
    (clock/60000%60) (clock/1000%60)
  rw [add_zero,add_zero] at hutc
  have hsum : clock/86400000*86400000+clock/3600000%24*3600000+clock/60000%60*60000+
      clock/1000%60*1000 = clock/1000*1000 := by omega
  rw [hsum] at hutc
  simp only [shown]
  rw [hutc]
  simp only [maxDateMs] at hhigh
  exact timeClip_of_le (abs_le.mpr ⟨by simp only [maxDateMs]; omega,by simp only [maxDateMs]; omega⟩)

section
variable {zone : Zone} {minutes : String → ℤ}

theorem offset_bounds (hz : Fixed zone minutes) (timezone : String) :
    -86400000 < minutes timezone*60000 ∧ minutes timezone*60000 < 86400000 := by
  have hsmall := abs_lt.mp (hz.small timezone)
  omega

/-- Two rounds settle a wall clock that is wanted. -/
theorem settleZoned_fixed (hz : Fixed zone minutes) (timezone : String) {desired : ℤ} (hwhole : desired%1000 = 0)
    (hlow : -683001*86400000 ≤ desired) (hhigh : desired ≤ maxDateMs-86400000) :
    settleZoned zone timezone desired 3 desired = some (desired-minutes timezone*60000) := by
  obtain ⟨hneg,hpos⟩ := offset_bounds hz timezone
  have hmax : maxDateMs = 8640000000000000 := rfl
  -- one round, at a candidate that shows whole seconds
  have hround : ∀ n candidate,candidate%1000 = 0 → -683001*86400000 ≤ candidate+86400000 →
      -683002*86400000 ≤ candidate+minutes timezone*60000 → candidate ≤ maxDateMs →
      candidate+minutes timezone*60000 ≤ maxDateMs →
      settleZoned zone timezone desired (n+1) candidate =
        if desired-(candidate+minutes timezone*60000) = 0 then some candidate
        else settleZoned zone timezone desired n
          (candidate+(desired-(candidate+minutes timezone*60000))) := by
    intro n candidate hcandidate hfrom hshown hto hshown'
    have hclip : timeClip candidate = some candidate :=
      timeClip_of_le (abs_le.mpr ⟨by omega,hto⟩)
    have hseconds : (candidate+minutes timezone*60000)/1000*1000 =
        candidate+minutes timezone*60000 := by omega
    rw [settleZoned,hclip]
    simp only [Option.bind_eq_bind,Option.bind_some]
    rw [hz.shows timezone candidate (by omega) hto,dateUTC_shown hshown hshown',hseconds]
    simp only [Option.bind_some]
  rw [hround 2 desired hwhole (by omega) (by omega) (by omega) (by omega)]
  split_ifs with hzero
  · congr 1
    omega
  · have hnext : desired+(desired-(desired+minutes timezone*60000)) =
        desired-minutes timezone*60000 := by ring
    rw [hnext,hround 1 _ (by omega) (by omega) (by omega) (by omega) (by omega),if_pos (by ring)]

theorem zonedDateToUtc_fixed (hz : Fixed zone minutes) (timezone : String) {parts : Parts}
    {desired : ℤ} (h : dateUTC parts.year (parts.month-1) parts.day parts.hour parts.minute parts.second =
      some desired) (hwhole : desired%1000 = 0) (hlow : -683001*86400000 ≤ desired)
    (hhigh : desired ≤ maxDateMs-86400000) :
    zonedDateToUtc zone parts timezone = some (desired-minutes timezone*60000) := by
  rw [zonedDateToUtc,h]
  exact settleZoned_fixed hz timezone hwhole hlow hhigh

end

/-- The wall clock of a day, and of a day some days later. -/
def onDay (day hour minute second : ℤ) (weekday : ℕ) : Parts where
  year := (civilDate day).1
  month := (civilDate day).2.1
  day := (civilDate day).2.2
  hour := hour
  minute := minute
  second := second
  weekday := weekday

section
variable {day hour minute second : ℤ} {weekday : ℕ}

theorem dateUTC_onDay (hday : -683002 ≤ day) (hhour : 0 ≤ hour ∧ hour < 24)
    (hminute : 0 ≤ minute ∧ minute < 60) (hsecond : 0 ≤ second ∧ second < 60) {days : ℤ}
    (hdays : 0 ≤ days) (hlast : day+days < 100000000) :
    dateUTC (onDay day hour minute second weekday).year
      ((onDay day hour minute second weekday).month-1)
      ((onDay day hour minute second weekday).day+days) hour minute second =
      some ((day+days)*86400000+hour*3600000+minute*60000+second*1000) := by
  rw [onDay,dateUTC_civilDate hday]
  refine timeClip_of_le (abs_le.mpr ⟨?_,?_⟩) <;> simp only [maxDateMs] <;> omega

theorem addLocalDays_onDay (hday : -683002 ≤ day) (hhour : 0 ≤ hour ∧ hour < 24)
    (hminute : 0 ≤ minute ∧ minute < 60) (hsecond : 0 ≤ second ∧ second < 60) {days : ℤ}
    (hdays : 0 ≤ days) (hlast : day+days < 100000000) :
    addLocalDays (onDay day hour minute second weekday) days =
      some (onDay (day+days) hour minute second weekday) := by
  have hutc := @dateUTC_onDay _ _ _ _ weekday hday hhour hminute hsecond _ hdays hlast
  have hdate : ((day+days)*86400000+hour*3600000+minute*60000+second*1000)/86400000 = day+days := by
    omega
  rw [addLocalDays]
  simp only [onDay] at hutc ⊢
  rw [hutc]
  simp only [Option.bind_eq_bind,Option.bind_some,hdate]
  rfl

end

theorem shown_eq_onDay (clock : ℤ) : shown clock = onDay (clock/86400000) (clock/3600000%24)
    (clock/60000%60) (clock/1000%60) ((clock/86400000+4)%7).toNat :=
  rfl

/-- From 4 January of the year 100 to a hundred days before the last date there is. -/
def Roomy (source : ℤ) : Prop := -683000*86400000 ≤ source ∧ source ≤ maxDateMs-100*86400000

section
variable {zone : Zone} {minutes : String → ℤ}

theorem zonedDateToUtc_onDay (hz : Fixed zone minutes) (timezone : String)
    {day hour minute second : ℤ} {weekday : ℕ} (hlow : -683001 ≤ day) (hhigh : day < 99999998)
    (hhour : 0 ≤ hour ∧ hour < 24) (hminute : 0 ≤ minute ∧ minute < 60)
    (hsecond : 0 ≤ second ∧ second < 60) :
    zonedDateToUtc zone (onDay day hour minute second weekday) timezone =
      some (day*86400000+hour*3600000+minute*60000+second*1000-minutes timezone*60000) := by
  have hutc := @dateUTC_onDay _ _ _ _ weekday (show -683002 ≤ day by omega) hhour hminute hsecond 0
    le_rfl (by omega)
  rw [add_zero,add_zero] at hutc
  refine zonedDateToUtc_fixed hz timezone hutc (by omega) (by omega) ?_
  simp only [maxDateMs]
  omega

/-- The same clock one or more days on. -/
theorem floor_days (hz : Fixed zone minutes) (timezone : String) {source days : ℤ}
    (hroom : Roomy source) (h1 : 1 ≤ days) (h7 : days ≤ 7) :
    ∃ floor,(addLocalDays (zone timezone source) days).bind
        (fun parts => zonedDateToUtc zone parts timezone) = some floor ∧
      source < floor ∧ floor ≤ source+31*86400000 := by
  obtain ⟨hneg,hpos⟩ := offset_bounds hz timezone
  obtain ⟨hlow,hhigh⟩ := hroom
  have hmax : maxDateMs = 8640000000000000 := rfl
  rw [hz.shows timezone source (by omega) (by omega)]
  generalize hclock : source+minutes timezone*60000 = clock
  have hnext := @addLocalDays_onDay (clock/86400000) (clock/3600000%24) (clock/60000%60)
    (clock/1000%60) ((clock/86400000+4)%7).toNat (by omega) (by omega) (by omega) (by omega) days
    (by omega) (by omega)
  have hutc := @zonedDateToUtc_onDay _ _ hz timezone (clock/86400000+days) (clock/3600000%24)
    (clock/60000%60) (clock/1000%60) ((clock/86400000+4)%7).toNat (by omega) (by omega) (by omega)
    (by omega) (by omega)
  refine ⟨clock/86400000*86400000+days*86400000+clock/3600000%24*3600000+
    clock/60000%60*60000+clock/1000%60*1000-minutes timezone*60000,?_,by omega,by omega⟩
  rw [shown_eq_onDay,hnext,Option.bind_some,hutc,add_mul]

/-- The same clock a month on, or the last day of a month that is too short. -/
theorem floor_month (hz : Fixed zone minutes) (timezone : String) {source : ℤ}
    (hroom : Roomy source) :
    ∃ floor,cadenceFloor zone .monthly timezone source false = some floor ∧ source < floor ∧
      floor ≤ source+31*86400000 := by
  obtain ⟨hneg,hpos⟩ := offset_bounds hz timezone
  obtain ⟨hlow,hhigh⟩ := hroom
  have hmax : maxDateMs = 8640000000000000 := rfl
  have hshown := hz.shows timezone source (by omega) (by omega)
  generalize hclock : source+minutes timezone*60000 = clock at hshown
  have hyear := hundred_le_year (show -683002 ≤ clock/86400000 by omega)
  obtain ⟨-,-,hday1,hday,hnext⟩ := civilDate_spec (clock/86400000)
  have hlong := monthStart_next (civilDate (clock/86400000)).1 ((civilDate (clock/86400000)).2.1-1)
  have hlongNext := monthStart_next (civilDate (clock/86400000)).1 (civilDate (clock/86400000)).2.1
  rw [sub_add_cancel] at hlong
  obtain ⟨last,hlast,hlast1⟩ : ∃ last,lastDayOfNextMonth (shown clock) = some last ∧ 1 ≤ last := by
    obtain ⟨date,hdate⟩ : ∃ date,dateUTC (shown clock).year ((shown clock).month+1) 0 0 0 0 =
        some date := by
      refine ⟨_,(dateUTC_of_hundred_le hyear _ _ _ _ _).trans (timeClip_of_le ?_)⟩
      refine abs_le.mpr ⟨?_,?_⟩ <;> simp only [shown] <;> omega
    refine ⟨(civilDate (date/86400000)).2.2,?_,(civilDate_spec _).2.2.1⟩
    rw [lastDayOfNextMonth,hdate]
    rfl
  have hmin : 1 ≤ min (civilDate (clock/86400000)).2.2 last ∧
      min (civilDate (clock/86400000)).2.2 last ≤ (civilDate (clock/86400000)).2.2 := by omega
  generalize hdate : min (civilDate (clock/86400000)).2.2 last = date at hmin
  obtain ⟨desired,hutc,hwhole,hafter,hbefore⟩ : ∃ desired,dateUTC (shown clock).year
      ((shown clock).month+1-1) (min (shown clock).day last) (shown clock).hour
      (shown clock).minute (shown clock).second = some desired ∧ desired%1000 = 0 ∧
      clock < desired ∧ desired ≤ clock+31*86400000 := by
    refine ⟨_,(dateUTC_of_hundred_le hyear _ _ _ _ _).trans (timeClip_of_le ?_),?_,?_,?_⟩
    · refine abs_le.mpr ⟨?_,?_⟩ <;> simp only [shown,hdate,add_sub_cancel_right] <;> omega
    all_goals
      simp only [shown,hdate,add_sub_cancel_right]
      omega
  refine ⟨desired-minutes timezone*60000,?_,by omega,by omega⟩
  rw [cadenceFloor,if_neg Bool.false_ne_true]
  simp only [hshown,hlast,Option.bind_eq_bind,Option.bind_some]
  exact zonedDateToUtc_fixed hz timezone hutc hwhole (by omega) (by omega)

theorem cadenceFloor_fixed (hz : Fixed zone minutes) (timezone : String) {source : ℤ}
    (hroom : Roomy source) (cadence : Cadence) (initial : Bool) :
    ∃ floor,cadenceFloor zone cadence timezone source initial = some floor ∧ source < floor ∧
      floor ≤ source+31*86400000 := by
  cases initial with
  | true =>
      obtain ⟨hlow,hhigh⟩ := hroom
      have hmax : maxDateMs = 8640000000000000 := rfl
      refine ⟨source+60000,?_,by omega,by omega⟩
      rw [cadenceFloor,if_pos rfl]
      exact timeClip_of_le (abs_le.mpr ⟨by omega,by omega⟩)
  | false =>
      cases cadence with
      | daily => exact floor_days hz timezone hroom (by omega) (by omega)
      | weekly => exact floor_days hz timezone hroom (by omega) (by omega)
      | monthly => exact floor_month hz timezone hroom

end

/-- The start of the window on a day of its clock. -/
def startOn (minutes : String → ℤ) (window : SafeWindow) (day : ℤ) : ℤ :=
  day*86400000+window.startHour*3600000+window.startMinute*60000-minutes window.timezone*60000

section
variable {zone : Zone} {minutes : String → ℤ} {window : SafeWindow} {floor : ℤ}

theorem shown_start (hw : IsNormal window) (day : ℤ) :
    shown (startOn minutes window day+minutes window.timezone*60000) =
      onDay day window.startHour window.startMinute 0 ((day+4)%7).toNat := by
  have hh := hw.startHour
  have hm := hw.startMinute
  rw [startOn,sub_add_cancel]
  generalize hclock : day*86400000+(window.startHour : ℤ)*3600000+window.startMinute*60000 = clock
  have hday : clock/86400000 = day := by omega
  have hhour : clock/3600000%24 = window.startHour := by omega
  have hminute : clock/60000%60 = window.startMinute := by omega
  have hsecond : clock/1000%60 = 0 := by omega
  rw [shown_eq_onDay,hday,hhour,hminute,hsecond]

/-- The day is one of the window, and its start is not before the floor. -/
def Hits (minutes : String → ℤ) (window : SafeWindow) (floor day : ℤ) : Prop :=
  ((day+4)%7).toNat = window.day ∧ floor ≤ startOn minutes window day

theorem seekWindow_step (hz : Fixed zone minutes) (hw : IsNormal window) {clock offset : ℤ} {n : ℕ}
    (hlow : -683001 ≤ clock/86400000) (hoffset : 0 ≤ offset)
    (hhigh : clock/86400000+offset < 99999998) :
    (Hits minutes window floor (clock/86400000+offset) →
      seekWindow zone window floor (shown clock) (n+1) offset =
        some (some (startOn minutes window (clock/86400000+offset)))) ∧
    (¬ Hits minutes window floor (clock/86400000+offset) →
      seekWindow zone window floor (shown clock) (n+1) offset =
        seekWindow zone window floor (shown clock) n (offset+1)) := by
  have hh := hw.startHour
  have hm := hw.startMinute
  obtain ⟨hneg,hpos⟩ := offset_bounds hz window.timezone
  have hmax : maxDateMs = 8640000000000000 := rfl
  generalize hday : clock/86400000 = day at *
  have hparts := @addLocalDays_onDay day window.startHour window.startMinute 0
    ((day+4)%7).toNat (by omega) (by omega) (by omega) (by omega) offset hoffset (by omega)
  have hutc := @zonedDateToUtc_onDay _ _ hz window.timezone (day+offset) window.startHour
    window.startMinute 0 ((day+4)%7).toNat (by omega) hhigh (by omega) (by omega) (by omega)
  rw [show (day+offset)*86400000+(window.startHour : ℤ)*3600000+window.startMinute*60000+0*1000-
    minutes window.timezone*60000 = startOn minutes window (day+offset) by
      rw [startOn]; ring] at hutc
  have hzone : zone window.timezone (startOn minutes window (day+offset)) =
      onDay (day+offset) window.startHour window.startMinute 0 ((day+offset+4)%7).toNat := by
    rw [← shown_start hw]
    refine hz.shows _ _ ?_ ?_ <;> rw [startOn] <;> omega
  have hbase : ({ shown clock with
      hour := window.startHour
      minute := window.startMinute
      second := 0 } : Parts) =
        onDay day window.startHour window.startMinute 0 ((day+4)%7).toNat := by
    rw [shown,hday]
    rfl
  rw [seekWindow,hbase,hparts]
  simp only [Option.bind_eq_bind,Option.bind_some,hutc,hzone]
  constructor
  · rintro ⟨hweekday,hfloor⟩
    exact if_pos ⟨rfl,rfl,rfl,rfl,rfl,hweekday,hfloor⟩
  · intro hmiss
    exact if_neg fun h => hmiss ⟨h.2.2.2.2.2.1,h.2.2.2.2.2.2⟩

/-- The search stops at the first day that it hits. -/
theorem seekWindow_first (hz : Fixed zone minutes) (hw : IsNormal window) {clock : ℤ}
    (hlow : -683001 ≤ clock/86400000) (hhigh : clock/86400000 < 99999984) {n : ℕ} {offset : ℤ}
    (hoffset : 0 ≤ offset) (h : ∃ j : ℤ,offset ≤ j ∧ j < offset+n ∧ j ≤ 13 ∧
      Hits minutes window floor (clock/86400000+j)) :
    ∃ j : ℤ,offset ≤ j ∧ j ≤ 13 ∧ Hits minutes window floor (clock/86400000+j) ∧
      (∀ i,offset ≤ i → i < j → ¬ Hits minutes window floor (clock/86400000+i)) ∧
      seekWindow zone window floor (shown clock) n offset =
        some (some (startOn minutes window (clock/86400000+j))) := by
  induction n generalizing offset with
  | zero =>
      obtain ⟨j,hj,hlt,-⟩ := h
      omega
  | succ n ih =>
      obtain ⟨j,hj,hlt,hle,hhit⟩ := h
      obtain ⟨hfound,hmissed⟩ := @seekWindow_step _ _ _ floor hz hw clock offset n hlow hoffset
        (by omega)
      by_cases hhere : Hits minutes window floor (clock/86400000+offset)
      · exact ⟨offset,le_rfl,by omega,hhere,fun i hi hi' => absurd hi (by omega),hfound hhere⟩
      · have hne : j ≠ offset := by
          rintro rfl
          exact hhere hhit
        obtain ⟨k,hk,hk13,hhitk,hfirst,hseek⟩ := @ih (offset+1) (by omega)
          ⟨j,by omega,by push_cast at hlt; omega,hle,hhit⟩
        refine ⟨k,by omega,hk13,hhitk,?_,(hmissed hhere).trans hseek⟩
        intro i hi hik
        rcases eq_or_lt_of_le hi with rfl | hlt'
        · exact hhere
        · exact hfirst i (by omega) hik

/-- One of the two weeks from the floor on has a start. -/
theorem exists_hit (hw : IsNormal window) (minutes : String → ℤ) (floor : ℤ) :
    ∃ j : ℤ,0 ≤ j ∧ j < 0+(371 : ℕ) ∧ j ≤ 13 ∧
      Hits minutes window floor ((floor+minutes window.timezone*60000)/86400000+j) := by
  have hday := hw.day
  generalize hclock : (floor+minutes window.timezone*60000)/86400000 = day
  obtain ⟨j,hj0,hj6,hj⟩ : ∃ j : ℤ,0 ≤ j ∧ j ≤ 6 ∧ (day+j+4)%7 = window.day :=
    ⟨((window.day : ℤ)-day-4)%7,by omega,by omega,by omega⟩
  by_cases hfloor : floor ≤ startOn minutes window (day+j)
  · exact ⟨j,hj0,by omega,by omega,by omega,hfloor⟩
  · refine ⟨j+7,by omega,by omega,by omega,by omega,?_⟩
    rw [startOn]
    omega

theorem starts_startOn (hz : Fixed zone minutes) (hw : IsNormal window) {day : ℤ}
    (hlow : -683001 ≤ day) (hhigh : day < 99999998) (hday : ((day+4)%7).toNat = window.day) :
    Starts zone window (startOn minutes window day) := by
  have hh := hw.startHour
  have hm := hw.startMinute
  obtain ⟨hneg,hpos⟩ := offset_bounds hz window.timezone
  have hmax : maxDateMs = 8640000000000000 := rfl
  have hzone : zone window.timezone (startOn minutes window day) =
      onDay day window.startHour window.startMinute 0 ((day+4)%7).toNat := by
    rw [← shown_start hw]
    refine hz.shows _ _ ?_ ?_ <;> rw [startOn] <;> omega
  refine ⟨?_,?_,?_,?_,by rw [startOn]; omega⟩ <;> rw [hzone]
  · exact hday
  · rfl
  · rfl
  · rfl

/-- An instant at which the window starts is the start on its own day. -/
theorem eq_startOn (hz : Fixed zone minutes) {x : ℤ} (h : Starts zone window x)
    (hlow : -62135596800000 ≤ x+minutes window.timezone*60000) (hhigh : x ≤ maxDateMs) :
    x = startOn minutes window ((x+minutes window.timezone*60000)/86400000) ∧
      (((x+minutes window.timezone*60000)/86400000+4)%7).toNat = window.day := by
  obtain ⟨hday,hhour,hminute,hsecond,hwhole⟩ := h
  rw [hz.shows _ _ hlow hhigh] at hday hhour hminute hsecond
  simp only [shown] at hday hhour hminute hsecond
  refine ⟨?_,hday⟩
  rw [startOn,← hhour,← hminute]
  omega

/-- The search of one window finds its first start that is not before the floor. -/
theorem seekWindow_least (hz : Fixed zone minutes) (hw : IsNormal window)
    (hlow : -683000*86400000 ≤ floor) (hhigh : floor ≤ maxDateMs-69*86400000) :
    ∃ t,seekWindow zone window floor (zone window.timezone floor) 371 0 = some (some t) ∧
      IsLeast {x | floor ≤ x ∧ Starts zone window x} t := by
  obtain ⟨hneg,hpos⟩ := offset_bounds hz window.timezone
  have hmax : maxDateMs = 8640000000000000 := rfl
  have hh := hw.startHour
  have hm := hw.startMinute
  rw [hz.shows _ _ (by omega) (by omega)]
  obtain ⟨j,hj0,hj13,hhit,hfirst,hseek⟩ := @seekWindow_first _ _ _ floor hz hw
    (floor+minutes window.timezone*60000) (by omega) (by omega) 371 0 le_rfl
    (exists_hit hw minutes floor)
  refine ⟨_,hseek,⟨hhit.2,starts_startOn hz hw (by omega) (by omega) hhit.1⟩,?_⟩
  rintro x ⟨hx,hstarts⟩
  by_cases hlate : x ≤ maxDateMs
  · obtain ⟨he,hday⟩ := eq_startOn hz hstarts (by omega) hlate
    generalize hdayOf : (x+minutes window.timezone*60000)/86400000 = day at he hday
    have hafter : (floor+minutes window.timezone*60000)/86400000 ≤ day := by omega
    by_contra hlt
    refine hfirst (day-(floor+minutes window.timezone*60000)/86400000) (by omega) ?_ ?_
    · simp only [he,startOn] at hlt
      omega
    · rw [add_sub_cancel]
      exact ⟨hday,he ▸ hx⟩
  · simp only [startOn]
    omega

end

/-- The fold keeps the least of what the windows found. -/
theorem foldlM_least {windows : List SafeWindow} {seek : SafeWindow → Option (Option ℤ)}
    {found : SafeWindow → Set ℤ} (h : ∀ window ∈ windows,∃ t,seek window = some (some t) ∧
      IsLeast (found window) t) {e : ℤ} {s : Set ℤ} (he : IsLeast s e) :
    ∃ t,windows.foldlM (fun earliest window => do
      let found ← seek window
      return earlier earliest found) (some e) = some (some t) ∧
      IsLeast (s ∪ {x | ∃ window ∈ windows,x ∈ found window}) t := by
  induction windows generalizing e s with
  | nil => exact ⟨e,rfl,by simpa using he⟩
  | cons window windows ih =>
      obtain ⟨t,hseek,ht⟩ := h window List.mem_cons_self
      have hleast : IsLeast (s ∪ found window) (if t < e then t else e) := by
        have hmin := he.union ht
        split_ifs with hlt
        · rwa [min_eq_right hlt.le] at hmin
        · rwa [min_eq_left (not_lt.mp hlt)] at hmin
      obtain ⟨u,hfold,hu⟩ := ih (fun w hw => h w (List.mem_cons_of_mem _ hw)) hleast
      refine ⟨u,?_,?_⟩
      · rw [List.foldlM_cons,hseek]
        exact hfold
      · have hsets : s ∪ found window ∪ {x | ∃ w ∈ windows,x ∈ found w} =
            s ∪ {x | ∃ w ∈ window::windows,x ∈ found w} := by
          ext x
          simp [or_assoc]
        rwa [hsets] at hu

theorem alignToSafeWindow_least {zone : Zone} {minutes : String → ℤ} (hz : Fixed zone minutes)
    {windows : List SafeWindow} (hne : windows ≠ []) (hnormal : ∀ w ∈ windows,IsNormal w)
    {floor : ℤ} (hlow : -683000*86400000 ≤ floor) (hhigh : floor ≤ maxDateMs-69*86400000) :
    ∃ t,alignToSafeWindow zone windows floor = some (some t) ∧
      IsLeast {x | floor ≤ x ∧ ∃ w ∈ windows,Starts zone w x} t := by
  have hseek := fun w hw => @seekWindow_least _ _ w floor hz (hnormal w hw) hlow hhigh
  obtain ⟨window,rest,rfl⟩ := List.exists_cons_of_ne_nil hne
  obtain ⟨e,he,hleast⟩ := hseek window List.mem_cons_self
  obtain ⟨t,hfold,ht⟩ := foldlM_least (fun w hw => hseek w (List.mem_cons_of_mem _ hw)) hleast
  refine ⟨t,?_,?_⟩
  · rw [alignToSafeWindow,if_neg hne,List.foldlM_cons,he]
    exact hfold
  · have hsets : {x | floor ≤ x ∧ Starts zone window x} ∪
        {x | ∃ w ∈ rest,x ∈ {x | floor ≤ x ∧ Starts zone w x}} =
        {x | floor ≤ x ∧ ∃ w ∈ window::rest,Starts zone w x} := by
      ext x
      rw [Set.mem_union]
      constructor
      · rintro (⟨hx,hs⟩ | ⟨w,hw,hx,hs⟩)
        · exact ⟨hx,window,List.mem_cons_self,hs⟩
        · exact ⟨hx,w,List.mem_cons_of_mem _ hw,hs⟩
      · rintro ⟨hx,w,hw,hs⟩
        rcases List.mem_cons.mp hw with rfl | hw
        · exact Or.inl ⟨hx,hs⟩
        · exact Or.inr ⟨w,hw,hx,hs⟩
    rwa [hsets] at ht

/-- Whatever the zones show, a planned run is inside a window and not before the floor. Where they
keep a fixed offset, and the dates are in range, there is a run, after the reference time, and it
is the earliest start of a window from the floor on. -/
theorem safe_window_scheduling {policy : TestPolicy} {cadence : Cadence}
    {toLowerCase : JsString → JsString} {isTimeZone : String → Bool} {value : JsVal}
    {timezone : String} (henabled : policy.enabled = true) (hstate : policy.state = .active)
    (hcadence : policy.cadence = .timed cadence)
    (hwindows : normalizeSafeWindows toLowerCase isTimeZone value timezone =
      .ok policy.safeWindows) (hne : policy.safeWindows ≠ []) (source : ℤ) (initial : Bool) :
    (∀ zone t,nextPolicyRunAt zone policy source initial = some (some t) →
      (∃ floor,cadenceFloor zone cadence policy.timezone source initial = some floor ∧ floor ≤ t) ∧
        isWithinPolicySafeWindow zone policy.safeWindows t = true) ∧
    ∀ zone minutes,Fixed zone minutes → Roomy source → ∃ floor t,
      cadenceFloor zone cadence policy.timezone source initial = some floor ∧
      nextPolicyRunAt zone policy source initial = some (some t) ∧ source < t ∧
      IsLeast {x | floor ≤ x ∧ ∃ w ∈ policy.safeWindows,Starts zone w x} t := by
  have hnormal := isNormal_windows hwindows
  have hnext : ∀ zone,nextPolicyRunAt zone policy source initial =
      (cadenceFloor zone cadence policy.timezone source initial).bind
        (alignToSafeWindow zone policy.safeWindows) := by
    intro zone
    rw [nextPolicyRunAt,if_neg (by simp [henabled,hstate]),hcadence]
    rfl
  constructor
  · intro zone t h
    rw [hnext,Option.bind_eq_some_iff] at h
    obtain ⟨floor,hfloor,halign⟩ := h
    obtain ⟨hle,hwithin⟩ := aligned_within hne hnormal halign
    exact ⟨⟨floor,hfloor,hle⟩,hwithin⟩
  · intro zone minutes hz hroom
    obtain ⟨floor,hfloor,hafter,hbefore⟩ :=
      cadenceFloor_fixed hz policy.timezone hroom cadence initial
    have hlow := hroom.1
    have hhigh := hroom.2
    obtain ⟨t,halign,hleast⟩ := alignToSafeWindow_least hz hne hnormal
      (show -683000*86400000 ≤ floor by omega) (by omega)
    refine ⟨floor,t,hfloor,?_,lt_of_lt_of_le hafter hleast.1.1,hleast⟩
    rw [hnext,hfloor,Option.bind_some,halign]

/-- Universal time in every zone. -/
def universal : Zone := fun _ t => shown t

theorem fixed_universal : Fixed universal fun _ => 0 where
  small := fun _ => by decide
  shows := fun _ t _ _ => by rw [zero_mul,add_zero,universal]

/-- `toLowerCase` on the letters of English. -/
def asciiLower (s : JsString) : JsString :=
  s.map fun u => if 65 ≤ u.toNat ∧ u.toNat ≤ 90 then u+32 else u

/-- Mondays from nine to five. -/
def mondays : JsVal := .arr [.obj [(js "day",.str (js "Monday")),(js "start",.str (js "09:00")),
  (js "end",.str (js "17:00"))]]

def mondayPolicy : TestPolicy where
  id := 1
  tenantId := 1
  targetGroupId := 1
  targetId := 1
  checkId := 1
  cadence := .timed .weekly
  timezone := "UTC"
  safeWindows := [⟨1,9,0,17,0,"UTC"⟩]
  state := .active
  enabled := true
  archived := false
  maxConcurrentRuns := 1
  nextRunAt := none
  lease := none
  lastRunId := none

theorem mondays_normalized : normalizeSafeWindows asciiLower (fun name => name == "UTC") mondays
    "UTC" = .ok mondayPolicy.safeWindows := by
  rfl

theorem next_monday_nine : normalizeSafeWindows asciiLower (fun name => name == "UTC") mondays
      "UTC" = .ok mondayPolicy.safeWindows ∧ Fixed universal (fun _ => 0) ∧ Roomy 0 ∧
    ∃ floor t,cadenceFloor universal .weekly mondayPolicy.timezone 0 false = some floor ∧
      nextPolicyRunAt universal mondayPolicy 0 false = some (some t) ∧ 0 < t ∧
      IsLeast {x | floor ≤ x ∧ ∃ w ∈ mondayPolicy.safeWindows,Starts universal w x} t :=
  ⟨mondays_normalized,fixed_universal,by constructor <;> decide,
    (safe_window_scheduling rfl rfl rfl mondays_normalized (by decide) 0 false).2 universal
      (fun _ => 0) fixed_universal (by constructor <;> decide)⟩

/-- A minute after the last date there is, there is nothing to plan. -/
theorem last_date_throws : normalizeSafeWindows asciiLower (fun name => name == "UTC") mondays
      "UTC" = .ok mondayPolicy.safeWindows ∧ Fixed universal (fun _ => 0) ∧
    ¬ ∃ t,nextPolicyRunAt universal mondayPolicy maxDateMs true = some (some t) := by
  have hnone : nextPolicyRunAt universal mondayPolicy maxDateMs true = none := by decide
  refine ⟨mondays_normalized,fixed_universal,?_⟩
  rintro ⟨t,ht⟩
  rw [hnone] at ht
  cases ht

end AstraNull.SafeWindows
