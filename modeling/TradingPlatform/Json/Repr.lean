import TradingPlatform.Json.Convert

/-!
# The `str` of a value

A program that wants a string takes the `str` of whatever it is given: of a string the string
itself, of anything else a text of its own, in which strings stand between quotation marks and
characters that cannot be printed are written out. Which can be, is a table.
-/

namespace TradingPlatform

/-! ### Strings between quotation marks -/

/-- The mark a string stands between: the single one, unless it is in the string and the double one
is not. -/
def quoteOf (s : Str) : Char :=
  if .scalar '\'' ∈ s ∧ .scalar '"' ∉ s then '"' else '\''

/-- The digits of a character that is written out. -/
def escapeUnit (u : ℕ) : List Char :=
  if u < 0x100 then '\\' :: 'x' :: fixedDigits 16 2 u
  else if u < 0x10000 then '\\' :: 'u' :: fixedDigits 16 4 u
  else '\\' :: 'U' :: fixedDigits 16 8 u

/-- A code point between quotation marks. -/
def reprPoint (printable : Char → Bool) (quote : Char) : CodePoint → List Char
  | .scalar c =>
    if c = quote ∨ c = '\\' then ['\\', c]
    else if c = '\t' then ['\\', 't']
    else if c = '\n' then ['\\', 'n']
    else if c = '\r' then ['\\', 'r']
    else if 32 ≤ c.toNat ∧ c.toNat < 127 ∨ 127 < c.toNat ∧ printable c = true then [c]
    else escapeUnit c.toNat
  | .high bits => escapeUnit (0xD800 + bits)
  | .low bits => escapeUnit (0xDC00 + bits)

def reprStr (printable : Char → Bool) (s : Str) : List Char :=
  quoteOf s :: (s.flatMap (reprPoint printable (quoteOf s)) ++ [quoteOf s])

namespace JsonValue

variable {F : Type} (ff : FloatFormat F) (printable : Char → Bool)

/-! ### Values -/

mutual

/-- The source's `repr` of a value. -/
def repr : JsonValue F → List Char
  | .null => "None".toList
  | .bool true => "True".toList
  | .bool false => "False".toList
  | .int n => (intNumeral n).text
  | .float (.finite x) => (ff.numeral x).text
  | .float (.infinity negative) => (if negative then ['-'] else []) ++ "inf".toList
  | .float .nan => "nan".toList
  | .str s => reprStr printable s
  | .arr items => '[' :: (", ".toList.intercalate (reprItems items) ++ [']'])
  | .obj fields => '\x7b' :: (", ".toList.intercalate (reprFields fields) ++ ['\x7d'])

def reprItems : List (JsonValue F) → List (List Char)
  | [] => []
  | v :: vs => repr v :: reprItems vs

def reprFields : List (Str × JsonValue F) → List (List Char)
  | [] => []
  | field :: fields => reprField field :: reprFields fields

def reprField : Str × JsonValue F → List Char
  | (key, v) => reprStr printable key ++ (':' :: ' ' :: repr v)

end

/-- **The source's `str` of a value.** -/
def toStr : JsonValue F → Str
  | .str s => s
  | v => (v.repr ff printable).map .scalar

/-- A value that counts as true. -/
def truthy : JsonValue F → Bool
  | .null => false
  | .bool b => b
  | .int n => decide (n ≠ 0)
  | .float (.finite x) => decide ((ff.exact x).coefficient ≠ 0)
  | .float (.infinity _) | .float .nan => true
  | .str s => !s.isEmpty
  | .arr items => !items.isEmpty
  | .obj fields => !fields.isEmpty

end JsonValue

end TradingPlatform
