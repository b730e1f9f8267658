import TradingPlatform.Core.Clock
import TradingPlatform.Text.Integer

/-!
# Texts of dates and times

A date, and a time of day on it with its distance from UTC. What the zone says of the other
reading of an ambiguous local time is part of a datetime too (`TradingPlatform.DateTime`): two
datetimes of different zones are equal only if neither depends on it
(`TradingPlatform.DateTime.Same`).

The readers here take the texts that the writers write, and no others: the standard library reads
more forms of a date, which no writer of the program uses.
-/

namespace TradingPlatform

/-! ### Dates -/

def daysInMonth (year month : ℕ) : ℕ :=
  [31, if isLeap year then 29 else 28, 31, 30, 31, 30, 31, 31, 30, 31, 30, 31].getD (month - 1) 0

/-- There is such a date. -/
def CivilDate.Valid (year month day : ℕ) : Prop :=
  (1 ≤ year ∧ year ≤ 9999) ∧ (1 ≤ month ∧ month ≤ 12) ∧ 1 ≤ day ∧ day ≤ daysInMonth year month

instance (year month day : ℕ) : Decidable (CivilDate.Valid year month day) :=
  inferInstanceAs (Decidable ((_ ∧ _) ∧ (_ ∧ _) ∧ _ ∧ _))

structure CivilDate where
  year : ℕ
  month : ℕ
  day : ℕ
  valid : CivilDate.Valid year month day
  deriving DecidableEq

theorem daysInMonth_le (year month : ℕ) : daysInMonth year month ≤ 31 := by
  rw [daysInMonth]
  rcases lt_or_ge (month - 1) 12 with hlt | hge
  · split_ifs <;> interval_cases month - 1 <;> decide
  · rw [List.getD_eq_default _ _ (by simpa using hge)]
    exact Nat.zero_le _

/-- A month ends where the next one begins. -/
theorem daysBeforeMonth_succ (year : ℕ) {month : ℕ} (hpos : 1 ≤ month) (hlt : month < 12) :
    daysBeforeMonth year (month + 1) = daysBeforeMonth year month + daysInMonth year month := by
  by_cases hleap : isLeap year
  · interval_cases month <;> simp [daysBeforeMonth, daysInMonth, hleap]
  · interval_cases month <;> simp [daysBeforeMonth, daysInMonth, hleap]

theorem daysBeforeMonth_lt (year : ℕ) {month month' : ℕ} (hpos : 1 ≤ month) (hlt : month < month')
    (hle : month' ≤ 12) :
    daysBeforeMonth year month + daysInMonth year month ≤ daysBeforeMonth year month' := by
  induction month', hlt using Nat.le_induction with
  | base => rw [daysBeforeMonth_succ year hpos (by omega)]
  | succ month' hmonth ih =>
    have hstep := daysBeforeMonth_succ year (by omega : 1 ≤ month') (by omega)
    have hprev := ih (by omega)
    omega

theorem daysBeforeYear_lt {year year' : ℕ} (hlt : year < year') :
    daysBeforeYear year + daysBeforeMonth year 12 + daysInMonth year 12 ≤ daysBeforeYear year' := by
  have hlast : daysBeforeMonth year 12 + daysInMonth year 12 =
      365 + if isLeap year then 1 else 0 := by
    by_cases hleap : isLeap year <;> simp [daysBeforeMonth, daysInMonth, hleap]
  rw [add_assoc, hlast]
  simp only [daysBeforeYear]
  split_ifs with hleap
  · simp only [isLeap] at hleap
    omega
  · omega

namespace CivilDate

/-- The day of a date. -/
def date (d : CivilDate) : Date := .ofYmd d.year d.month d.day

/-- The source's `isoformat` of a date. -/
def text (d : CivilDate) : List Char :=
  fixedDigits 10 4 d.year ++ '-' :: (fixedDigits 10 2 d.month ++ '-' :: fixedDigits 10 2 d.day)

theorem date_lt_of_year_lt {d d' : CivilDate} (h : d.year < d'.year) : d.date < d'.date := by
  obtain ⟨-, ⟨hmonth, hmonth'⟩, -, hday⟩ := d.valid
  obtain ⟨-, ⟨hpos, hmax⟩, hday', -⟩ := d'.valid
  have hyear := daysBeforeYear_lt h
  have hend : daysBeforeMonth d.year d.month + daysInMonth d.year d.month ≤
      daysBeforeMonth d.year 12 + daysInMonth d.year 12 := by
    rcases Nat.lt_or_eq_of_le hmonth' with hlt | heq
    · have hle := daysBeforeMonth_lt d.year hmonth hlt le_rfl
      omega
    · rw [heq]
  have hbegin : 0 ≤ daysBeforeMonth d'.year d'.month := by
    have hfirst : daysBeforeMonth d'.year 1 = 0 := by simp [daysBeforeMonth]
    rcases Nat.lt_or_eq_of_le hpos with hlt | heq
    · have hle := daysBeforeMonth_lt d'.year le_rfl hlt (by omega)
      omega
    · rw [← heq, hfirst]
  show daysBeforeYear d.year + daysBeforeMonth d.year d.month + d.day - epochOrdinal <
    daysBeforeYear d'.year + daysBeforeMonth d'.year d'.month + d'.day - epochOrdinal
  omega

theorem date_lt_of_month_lt {d d' : CivilDate} (h : d.year = d'.year) (hlt : d.month < d'.month) :
    d.date < d'.date := by
  obtain ⟨-, ⟨hmonth, -⟩, -, hday⟩ := d.valid
  obtain ⟨-, ⟨-, hmonth'⟩, hday', -⟩ := d'.valid
  have hle := daysBeforeMonth_lt d.year hmonth hlt hmonth'
  show daysBeforeYear d.year + daysBeforeMonth d.year d.month + d.day - epochOrdinal <
    daysBeforeYear d'.year + daysBeforeMonth d'.year d'.month + d'.day - epochOrdinal
  rw [← h]
  omega

/-- Two dates are different days. -/
theorem date_injective : Function.Injective CivilDate.date := by
  intro d d' h
  have hyear : d.year = d'.year := by
    rcases lt_trichotomy d.year d'.year with hlt | heq | hgt
    · exact absurd h (date_lt_of_year_lt hlt).ne
    · exact heq
    · exact absurd h (date_lt_of_year_lt hgt).ne'
  have hmonth : d.month = d'.month := by
    rcases lt_trichotomy d.month d'.month with hlt | heq | hgt
    · exact absurd h (date_lt_of_month_lt hyear hlt).ne
    · exact heq
    · exact absurd h (date_lt_of_month_lt hyear.symm hgt).ne'
  obtain ⟨year, month, day, hvalid⟩ := d
  obtain ⟨year', month', day', hvalid'⟩ := d'
  obtain rfl : year = year' := hyear
  obtain rfl : month = month' := hmonth
  have hday : day = day' := by
    have hsum : daysBeforeYear year + daysBeforeMonth year month + day - epochOrdinal =
        daysBeforeYear year + daysBeforeMonth year month + day' - epochOrdinal := h
    omega
  subst hday
  rfl

end CivilDate

/-- Take one character off the front of a text. -/
def expect (c : Char) (cs : List Char) : Option (List Char) :=
  if cs.head? = some c then some cs.tail else none

@[simp] theorem expect_cons (c : Char) (cs : List Char) : expect c (c :: cs) = some cs := if_pos rfl

/-- Take a date off the front of a text. -/
def scanDate (cs : List Char) : Option (CivilDate × List Char) := do
  let (year, cs) ← takeDigits 4 cs
  let cs ← expect '-' cs
  let (month, cs) ← takeDigits 2 cs
  let cs ← expect '-' cs
  let (day, cs) ← takeDigits 2 cs
  if h : CivilDate.Valid year month day then some (⟨year, month, day, h⟩, cs) else none

theorem scanDate_text (d : CivilDate) (cs : List Char) :
    scanDate (d.text ++ cs) = some (d, cs) := by
  obtain ⟨⟨-, hyear⟩, ⟨-, hmonth⟩, -, hday⟩ := d.valid
  have hmax : daysInMonth d.year d.month ≤ 31 := daysInMonth_le _ _
  have hyear' : d.year < 10 ^ 4 := by omega
  have hmonth' : d.month < 10 ^ 2 := by omega
  have hday' : d.day < 10 ^ 2 := by omega
  rw [scanDate, CivilDate.text]
  simp only [List.append_assoc, List.cons_append, takeDigits_fixedDigits hyear',
    takeDigits_fixedDigits hmonth', takeDigits_fixedDigits hday', expect_cons, Option.bind_eq_bind,
    Option.bind_some]
  exact dif_pos d.valid

/-! ### Times -/

/-- A time of day, to the microsecond. -/
structure ClockTime where
  hour : ℕ
  minute : ℕ
  second : ℕ
  microsecond : ℕ
  valid : (hour < 24 ∧ minute < 60) ∧ second < 60 ∧ microsecond < 1000000
  deriving DecidableEq

namespace ClockTime

/-- The microseconds since midnight. -/
def micros (t : ClockTime) : ℕ :=
  ((t.hour * 60 + t.minute) * 60 + t.second) * 1000000 + t.microsecond

/-- The time so many microseconds after midnight. -/
def ofMicros (n : ℕ) (h : n < 86400000000) : ClockTime :=
  ⟨n / 3600000000, n / 60000000 % 60, n / 1000000 % 60, n % 1000000, by omega⟩

theorem micros_ofMicros {n : ℕ} (h : n < 86400000000) : (ofMicros n h).micros = n := by
  simp only [micros, ofMicros]
  omega

def microsText (t : ClockTime) : List Char :=
  if t.microsecond = 0 then [] else '.' :: fixedDigits 10 6 t.microsecond

def secondsText (t : ClockTime) : List Char :=
  ':' :: (fixedDigits 10 2 t.second ++ t.microsText)

/-- The hour and the minute, then the second if it is wanted or not zero, and the microseconds if
there are any. -/
def text (t : ClockTime) (wantSecond : Bool) : List Char :=
  fixedDigits 10 2 t.hour ++ ':' :: (fixedDigits 10 2 t.minute ++
    if wantSecond = true ∨ t.second ≠ 0 ∨ t.microsecond ≠ 0 then t.secondsText else [])

end ClockTime

/-- Take the microseconds off the front of a text, if there is a point. -/
def scanMicros (cs : List Char) : Option (ℕ × List Char) :=
  if cs.head? = some '.' then takeDigits 6 cs.tail else some (0, cs)

/-- Take the second and the microseconds off the front of a text, if there is a colon. -/
def scanSeconds (cs : List Char) : Option ((ℕ × ℕ) × List Char) :=
  if cs.head? = some ':' then do
    let (second, cs) ← takeDigits 2 cs.tail
    let (micro, cs) ← scanMicros cs
    some ((second, micro), cs)
  else some ((0, 0), cs)

/-- Take a time off the front of a text. -/
def scanTime (cs : List Char) : Option (ClockTime × List Char) := do
  let (hour, cs) ← takeDigits 2 cs
  let cs ← expect ':' cs
  let (minute, cs) ← takeDigits 2 cs
  let ((second, micro), cs) ← scanSeconds cs
  if h : (hour < 24 ∧ minute < 60) ∧ second < 60 ∧ micro < 1000000 then
    some (⟨hour, minute, second, micro, h⟩, cs)
  else none

section Times

variable (t : ClockTime) {cs : List Char}

/-- The text goes on neither with seconds nor with microseconds. -/
def TimeEnd (cs : List Char) : Prop := ∀ c, cs.head? = some c → c ≠ ':' ∧ c ≠ '.'

theorem scanMicros_microsText (hcs : TimeEnd cs) :
    scanMicros (t.microsText ++ cs) = some (t.microsecond, cs) := by
  rw [ClockTime.microsText]
  split_ifs with hzero
  · rw [hzero]
    exact if_neg fun h => (hcs _ h).2 rfl
  · have hlt : t.microsecond < 10 ^ 6 := t.valid.2.2
    exact takeDigits_fixedDigits hlt cs

theorem scanSeconds_secondsText (hcs : TimeEnd cs) :
    scanSeconds (t.secondsText ++ cs) = some ((t.second, t.microsecond), cs) := by
  have hlt : t.second < 10 ^ 2 := by
    have hsecond := t.valid.2.1
    omega
  rw [ClockTime.secondsText, List.cons_append, scanSeconds, if_pos List.head?_cons, List.tail_cons,
    List.append_assoc, takeDigits_fixedDigits hlt]
  simp only [Option.bind_eq_bind, Option.bind_some, scanMicros_microsText t hcs]

/-- **A time is read back.** -/
theorem scanTime_text (wantSecond : Bool) (hcs : TimeEnd cs) :
    scanTime (t.text wantSecond ++ cs) = some (t, cs) := by
  obtain ⟨⟨hhour, hminute⟩, -⟩ := t.valid
  have hhour' : t.hour < 10 ^ 2 := by omega
  have hminute' : t.minute < 10 ^ 2 := by omega
  have hscan : scanSeconds ((if wantSecond = true ∨ t.second ≠ 0 ∨ t.microsecond ≠ 0 then
      t.secondsText else []) ++ cs) = some ((t.second, t.microsecond), cs) := by
    split_ifs with hwant
    · exact scanSeconds_secondsText t hcs
    · obtain ⟨-, hsecond, hmicro⟩ : ¬wantSecond = true ∧ t.second = 0 ∧ t.microsecond = 0 := by
        simpa [not_or] using hwant
      rw [hsecond, hmicro]
      exact if_neg fun h => (hcs _ h).1 rfl
  rw [scanTime, ClockTime.text]
  simp only [List.append_assoc, List.cons_append, takeDigits_fixedDigits hhour',
    takeDigits_fixedDigits hminute', expect_cons, Option.bind_eq_bind, Option.bind_some, hscan]
  exact dif_pos t.valid

end Times

/-! ### Datetimes with a zone -/

/-- A distance from UTC, in microseconds: less than a day. -/
abbrev UtcOffset := {m : ℤ // -86400000000 < m ∧ m < 86400000000}

/-- A local time in some zone. -/
structure DateTime where
  date : CivilDate
  time : ClockTime
  offset : UtcOffset
  /-- What the zone gives for the other reading of the local time. -/
  otherOffset : UtcOffset
  deriving DecidableEq

namespace DateTime

/-- A time in UTC. -/
def utc (date : CivilDate) (time : ClockTime) : DateTime :=
  ⟨date, time, ⟨0, by decide⟩, ⟨0, by decide⟩⟩

variable (d : DateTime)

/-- The instant of a datetime. -/
def instant : Time := d.date.date * microsPerDay + d.time.micros - d.offset

/-- **Whether two datetimes of different zones are equal.** One that depends on how an ambiguous
local time is read equals none of another zone. -/
def Same (d d' : DateTime) : Prop :=
  d.offset = d.otherOffset ∧ d'.offset = d'.otherOffset ∧ d.instant = d'.instant

instance (d d' : DateTime) : Decidable (d.Same d') := inferInstanceAs (Decidable (_ ∧ _ ∧ _))

/-- The same local time with a fixed distance from UTC. -/
def fixed : DateTime := { d with otherOffset := d.offset }

theorem same_fixed_iff : d.fixed.Same d ↔ d.offset = d.otherOffset := by
  constructor
  · rintro ⟨-, h, -⟩
    exact h
  · intro h
    exact ⟨rfl, h, rfl⟩

/-- The distance from UTC, as a time. -/
def offsetTime : ClockTime := .ofMicros (d.offset : ℤ).natAbs (by
  have hoffset := d.offset.property
  omega)

/-- The source's `isoformat` of a datetime that has a zone. -/
def isoformat : List Char :=
  d.date.text ++ 'T' :: (d.time.text true ++
    (if (d.offset : ℤ) < 0 then '-' else '+') :: d.offsetTime.text false)

end DateTime

def offsetOfMicros (m : ℤ) : Option UtcOffset :=
  if h : -86400000000 < m ∧ m < 86400000000 then some ⟨m, h⟩ else none

theorem offsetOfMicros_eq {m : ℤ} {offset : UtcOffset} (h : m = offset) :
    offsetOfMicros m = some offset := by
  subst h
  exact dif_pos offset.property

/-- The distance from UTC at the end of a text. -/
def offsetOfText (cs : List Char) : Option UtcOffset :=
  let signed := scanSign cs
  if signed.1 = [] then none
  else
    (scanTime signed.2).bind fun r =>
      if r.2 = [] then offsetOfMicros (if signed.1 = ['-'] then -(r.1.micros : ℤ) else r.1.micros)
      else none

/-- The source's `datetime.fromisoformat`, for a text with a date, a time and a distance from UTC
as `isoformat` writes them. -/
def DateTime.fromisoformat (s : Str) : Option DateTime := do
  let cs ← s.toText?
  let (date, cs) ← scanDate cs
  let cs ← expect 'T' cs
  let (time, cs) ← scanTime cs
  let offset ← offsetOfText cs
  some ⟨date, time, offset, offset⟩

theorem scanTime_text_nil (t : ClockTime) (wantSecond : Bool) :
    scanTime (t.text wantSecond) = some (t, []) := by
  have hnil : TimeEnd [] := fun c hc => by cases hc
  have h := scanTime_text t wantSecond hnil
  rwa [List.append_nil] at h

theorem offsetOfText_minus {t : ClockTime} {offset : UtcOffset} (h : -(t.micros : ℤ) = offset) :
    offsetOfText ('-' :: t.text false) = some offset := by
  have hsign : scanSign ('-' :: t.text false) = (['-'], t.text false) := rfl
  rw [offsetOfText, hsign]
  refine (if_neg (List.cons_ne_nil _ _)).trans ?_
  rw [scanTime_text_nil, Option.bind_some, if_pos rfl, if_pos rfl]
  exact offsetOfMicros_eq h

theorem offsetOfText_plus {t : ClockTime} {offset : UtcOffset} (h : (t.micros : ℤ) = offset) :
    offsetOfText ('+' :: t.text false) = some offset := by
  have hsign : scanSign ('+' :: t.text false) = (['+'], t.text false) := rfl
  have hplus : ¬['+'] = ['-'] := by decide
  rw [offsetOfText, hsign]
  refine (if_neg (List.cons_ne_nil _ _)).trans ?_
  rw [scanTime_text_nil, Option.bind_some, if_pos rfl, if_neg hplus]
  exact offsetOfMicros_eq h

theorem offsetOfText_signed {t : ClockTime} {offset : UtcOffset}
    (h : (t.micros : ℤ) = (offset : ℤ).natAbs) :
    offsetOfText ((if (offset : ℤ) < 0 then '-' else '+') :: t.text false) = some offset := by
  split_ifs with hneg
  · have hvalue : -(t.micros : ℤ) = offset := by omega
    exact offsetOfText_minus hvalue
  · have hvalue : (t.micros : ℤ) = offset := by omega
    exact offsetOfText_plus hvalue

theorem micros_offsetTime (d : DateTime) : (d.offsetTime.micros : ℤ) = (d.offset : ℤ).natAbs := by
  rw [DateTime.offsetTime, ClockTime.micros_ofMicros]

/-- **A datetime is read back with a fixed distance from UTC.** -/
theorem DateTime.fromisoformat_isoformat (d : DateTime) :
    DateTime.fromisoformat (d.isoformat.map .scalar) = some d.fixed := by
  have hend : TimeEnd ((if (d.offset : ℤ) < 0 then '-' else '+') :: d.offsetTime.text false) := by
    intro c hc
    rw [List.head?_cons, Option.some.injEq] at hc
    subst hc
    split_ifs <;> decide
  rw [DateTime.fromisoformat, Str.toText?_map_scalar, DateTime.isoformat]
  simp only [Option.bind_eq_bind, Option.bind_some, scanDate_text, expect_cons,
    scanTime_text d.time true hend,
    offsetOfText_signed (micros_offsetTime d)]
  rfl

/-- The text of a datetime determines its instant. -/
theorem instant_eq_of_isoformat_eq {d d' : DateTime} (h : d.isoformat = d'.isoformat) :
    d.instant = d'.instant := by
  have hfixed : some d.fixed = some d'.fixed := by
    rw [← DateTime.fromisoformat_isoformat, h, DateTime.fromisoformat_isoformat]
  exact Option.some.inj (congrArg (Option.map DateTime.instant) hfixed)

end TradingPlatform
