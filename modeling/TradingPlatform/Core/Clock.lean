import TradingPlatform.Core.Types

/-!
# The clock

Instants are counted from the beginning of 1970 in UTC, and so are days. A date written as year,
month and day is the day that its ordinal in the proleptic Gregorian calendar gives, the first of
January of the year 1 being the first.

The trading days of the exchange are the weekdays that are in no list of holidays; the list is the
one of 2026.
-/

namespace TradingPlatform

/-! ### Dates -/

def isLeap (year : ℤ) : Prop := year % 4 = 0 ∧ (year % 100 ≠ 0 ∨ year % 400 = 0)

instance (year : ℤ) : Decidable (isLeap year) :=
  inferInstanceAs (Decidable (year % 4 = 0 ∧ (year % 100 ≠ 0 ∨ year % 400 = 0)))

/-- The days before the first of January of a year. -/
def daysBeforeYear (year : ℤ) : ℤ :=
  let y := year - 1
  y * 365 + y / 4 - y / 100 + y / 400

/-- The days of a year before the first of a month. -/
def daysBeforeMonth (year : ℤ) (month : ℕ) : ℤ :=
  [0, 31, 59, 90, 120, 151, 181, 212, 243, 273, 304, 334].getD (month - 1) 0 +
    if 2 < month ∧ isLeap year then 1 else 0

/-- The ordinal of the first of January 1970. -/
def epochOrdinal : ℤ := 719163

/-- The source's `date`. -/
def Date.ofYmd (year : ℤ) (month day : ℕ) : Date :=
  daysBeforeYear year + daysBeforeMonth year month + day - epochOrdinal

/-- Monday is 0. -/
def Date.weekday (d : Date) : ℤ := (d + epochOrdinal + 6) % 7

/-! ### Trading days -/

/-- The holidays of 2026. -/
def nyseHolidays2026 : List Date :=
  [.ofYmd 2026 1 1, .ofYmd 2026 1 19, .ofYmd 2026 2 16, .ofYmd 2026 4 3, .ofYmd 2026 5 25,
    .ofYmd 2026 6 19, .ofYmd 2026 7 3, .ofYmd 2026 9 7, .ofYmd 2026 11 26,
    -- days of an early close, which count as holidays here
    .ofYmd 2026 11 27, .ofYmd 2026 12 24,
    .ofYmd 2026 12 25]

/-- Whether the exchange trades on a day. -/
def isTradingDay (d : Date) : Bool :=
  if 5 ≤ d.weekday then false else d ∉ nyseHolidays2026

example : (Date.ofYmd 1970 1 1, Date.ofYmd 2026 3 5, (Date.ofYmd 2026 3 5).weekday) =
    (0, 20517, 3) := by decide

/-! ### Consecutive trading days -/

/-- No trading day lies between the two. -/
def NoneBetween (d d' : Date) : Prop := ∀ e, d < e → e < d' → isTradingDay e = false

/-- The second day is the first trading day after the first. -/
structure NextTradingDay (d d' : Date) : Prop where
  trading : isTradingDay d' = true
  later : d < d'
  none : NoneBetween d d'

end TradingPlatform
