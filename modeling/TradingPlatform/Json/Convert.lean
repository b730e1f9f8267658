import TradingPlatform.Text.DateTimeText
import TradingPlatform.Text.DecimalText

/-!
# What the constructors make of a value

A value that a text denotes can be anything, and what a program makes of one – a decimal, an
integer, a date – fails in several ways: `TradingPlatform.PyError` has the kinds of exceptions
that a handler tells apart. A decimal can be made of a value itself
(`TradingPlatform.JsonValue.toDecimal`) or of its text
(`TradingPlatform.JsonValue.strToDecimal`), and what the two refuse, and how, is not the same.
-/

namespace TradingPlatform

/-- Why a conversion fails. -/
inductive PyError
  | value | key | type | attribute | overflow | invalidOperation
  deriving DecidableEq

/-! ### Days -/

/-- The Monday of the first week of a year, which is the week with its first Thursday. -/
def isoWeekOne (year : ℕ) : Date :=
  let first := Date.ofYmd year 1 1
  if 3 < first.weekday then first - first.weekday + 7 else first - first.weekday

/-- A year has so many weeks: 53 if it begins with a Thursday, or with a Wednesday and is a leap
year. -/
def isoWeeks (year : ℕ) : ℕ :=
  let weekday := (Date.ofYmd year 1 1).weekday
  if weekday = 3 ∨ weekday = 2 ∧ isLeap year then 53 else 52

/-- The day of a week date. -/
def isoWeekDate (year week day : ℕ) : Option Date :=
  let date : ℤ := isoWeekOne year + (week - 1) * 7 + day - 1
  if (1 ≤ year ∧ year ≤ 9999) ∧ (1 ≤ week ∧ week ≤ isoWeeks year) ∧ (1 ≤ day ∧ day ≤ 7) ∧
      Date.ofYmd 1 1 1 ≤ date ∧ date ≤ Date.ofYmd 9999 12 31 then
    some date
  else none

/-- The source's `date.fromisoformat`: the day of a calendar date or a week date, with hyphens or
without. Of the ten characters of a date without hyphens the last ones are not looked at. -/
def dateFromIso (s : Str) : Option Date := do
  let cs ← s.toText?
  let length := (cs.map Char.utf8Size).sum
  if length = 7 ∨ length = 8 ∨ length = 10 then
    let (year, cs) ← takeDigits 4 cs
    let hyphen := fun cs => if cs.head? = some '-' then some cs.tail else none
    let separated := (hyphen cs).isSome
    let cs := (hyphen cs).getD cs
    if cs.head? = some 'W' then
      let (week, cs) ← takeDigits 2 cs.tail
      if cs = [] then isoWeekDate year week 1
      else
        let cs ← if separated then expect '-' cs else some cs
        let (day, _) ← takeDigits 1 cs
        isoWeekDate year week day
    else
      let (month, cs) ← takeDigits 2 cs
      let cs ← if separated then expect '-' cs else some cs
      let (day, _) ← takeDigits 2 cs
      if CivilDate.Valid year month day then some (.ofYmd year month day) else none
  else none

example : dateFromIso (Str.ofString "2020-W53-1") = some (.ofYmd 2020 12 28) := by decide +kernel

/-- What a constructor makes of a number that may not be there. -/
def orInvalid (d : Option DecimalValue) : Except PyError DecimalValue :=
  match d with
  | some d => .ok d
  | none => .error .invalidOperation

namespace JsonValue

variable {F : Type}

/-- The source's `value[key]`. -/
def getItem (v : JsonValue F) (key : String) : Except PyError (JsonValue F) :=
  match v with
  | .obj fields =>
    match field? fields key with
    | some v => .ok v
    | none => .error .key
  | .null | .bool _ | .int _ | .float _ | .str _ | .arr _ => .error .type

theorem getItem_ofRecord_self (key : String) (v : JsonValue F)
    (fields : List (String × JsonValue F)) :
    (ofRecord ((key, v) :: fields)).getItem key = .ok v := by
  simp only [ofRecord, List.map_cons, getItem, field?, List.lookup_cons, BEq.rfl]

/-- The source's `date.fromisoformat` of a value. -/
def toDate : JsonValue F → Except PyError Date
  | .str s =>
    match dateFromIso s with
    | some date => .ok date
    | none => .error .value
  | .null | .bool _ | .int _ | .float _ | .arr _ | .obj _ => .error .type

/-- An integer; a truth value is one. -/
def asInt? : JsonValue F → Option ℤ
  | .int n => some n
  | .bool b => some (if b then 1 else 0)
  | .null | .float _ | .str _ | .arr _ | .obj _ => none

/-- An integer that a machine word can hold. -/
def asWord (v : JsonValue F) : Except PyError ℤ :=
  match v.asInt? with
  | none => .error .value
  | some n => if -2 ^ 63 ≤ n ∧ n < 2 ^ 63 then .ok n else .error .overflow

def asDigit (v : JsonValue F) : Except PyError ℕ :=
  v.asWord.bind fun n => if 0 ≤ n ∧ n ≤ 9 then .ok n.toNat else .error .value

def asDigits : JsonValue F → Except PyError (List ℕ)
  | .arr items => items.mapM asDigit
  | .null | .bool _ | .int _ | .float _ | .str _ | .obj _ => .error .value

/-- What the digits of a tuple are the digits of: the third item is the exponent, or tells that
the number is not finite. -/
def tupleKind : JsonValue F → Except PyError (Bool → List ℕ → Option DecimalValue)
  | .str s =>
    if s = Str.ofString "F" then .ok fun negative _ => some (.infinity negative)
    else if s = Str.ofString "n" then .ok fun negative ds => nanOf negative false (ds.map hexDigit)
    else if s = Str.ofString "N" then .ok fun negative ds => nanOf negative true (ds.map hexDigit)
    else .error .value
  | v => v.asWord.map fun e negative ds => finiteOf negative (ds.foldl (fun n d => 10 * n + d) 0) e

/-- The decimal of a sign, a list of digits and an exponent. -/
def tupleDecimal : List (JsonValue F) → Except PyError DecimalValue
  | [sign, digits, third] => do
    let sign ← sign.asWord
    if sign = 0 ∨ sign = 1 then
      let kind ← third.tupleKind
      let digits ← digits.asDigits
      orInvalid (kind (decide (sign = 1)) digits)
    else .error .value
  | _ => .error .value

/-! ### How a tuple is refused -/

section Numbers

variable (ff : FloatFormat F) (tables : UnicodeTables)

/-- **The source's `Decimal` of a value.** -/
def toDecimal : JsonValue F → Except PyError DecimalValue
  | .bool b => orInvalid (finiteOf false (if b then 1 else 0) 0)
  | .int n => orInvalid (finiteOf (decide (n < 0)) n.natAbs 0)
  | .float (.finite x) => .ok (.finite (ff.exact x))
  | .float (.infinity negative) => .ok (.infinity negative)
  | .float .nan => .ok (.nan false false [])
  | .str s => orInvalid (decimalOfText tables s)
  | .arr items => tupleDecimal items
  | .null | .obj _ => .error .type

/-- A value that is no decimal, and is not refused as a wrong one either: it has no number in it,
or one that is out of range. -/
def NoDecimal : JsonValue F → Prop
  | .null | .obj _ => True
  | .int n => finiteOf (decide (n < 0)) n.natAbs 0 = none
  | .str s => decimalOfText tables s = none
  | .arr items => tupleDecimal items = .error .overflow ∨
      tupleDecimal items = .error .invalidOperation
  | .bool _ | .float _ => False

/-- **The source's `Decimal` of the `str` of a value.** -/
def strToDecimal : JsonValue F → Except PyError DecimalValue
  | .int n => orInvalid (finiteOf (decide (n < 0)) n.natAbs 0)
  | .float (.finite x) => orInvalid (decimalOfText tables ((ff.numeral x).text.map .scalar))
  | .float (.infinity negative) => .ok (.infinity negative)
  | .float .nan => .ok (.nan false false [])
  | .str s => orInvalid (decimalOfText tables s)
  -- a word or a bracket is no number
  | .null | .bool _ | .arr _ | .obj _ => .error .invalidOperation

/-- **The source's `int` of a value.** -/
def toInt : JsonValue F → Except PyError ℤ
  | .int n => .ok n
  | .bool b => .ok (if b then 1 else 0)
  | .float (.finite x) => .ok ((ff.exact x).toRat.num.tdiv (ff.exact x).toRat.den)
  | .float (.infinity _) => .error .overflow
  | .float .nan => .error .value
  | .str s =>
    match intOfText tables 10 s with
    | some n => .ok n
    | none => .error .value
  | .null | .arr _ | .obj _ => .error .type

variable {ff tables}

end Numbers

end JsonValue

end TradingPlatform
