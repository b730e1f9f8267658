import TradingPlatform.Json.Value
import TradingPlatform.Text.Decimal

/-!
# Reading JSON

The reader of a JSON text: a scanner that takes a value off the front of a text, and
`TradingPlatform.loads`, which wants nothing but white space after it. It reads what the standard
allows and a little more – `NaN` and the two infinities – and refuses a text that begins with a
byte order mark, control characters in strings, and trailing commas.
-/

namespace TradingPlatform

/-! ### White space, digits -/

def isJsonSpace (c : Char) : Bool := c = ' ' || c = '\t' || c = '\n' || c = '\r'

def skipSpace (cs : List Char) : List Char := cs.dropWhile isJsonSpace

def hexValue (c : Char) : Option ℕ :=
  if c.isDigit then some (c.toNat - '0'.toNat)
  else if 'a' ≤ c ∧ c ≤ 'f' then some (c.toNat - 'a'.toNat + 10)
  else if 'A' ≤ c ∧ c ≤ 'F' then some (c.toNat - 'A'.toNat + 10)
  else none

/-! ### Strings -/

/-- A piece of a string: a character, or a code unit that is given by its number. -/
inductive StringPiece
  | char (c : Char)
  | unit (u : ℕ)
  deriving DecidableEq

def CodePoint.ofUnit (u : ℕ) : CodePoint :=
  if 0xD800 ≤ u ∧ u < 0xDC00 then .high (Fin.ofNat 1024 (u - 0xD800))
  else if 0xDC00 ≤ u ∧ u < 0xE000 then .low (Fin.ofNat 1024 (u - 0xDC00))
  else .scalar (Char.ofNat u)

/-- The character that the two halves of a surrogate pair make. -/
def joinSurrogates (hi lo : Fin 1024) : Char := Char.ofNat (0x10000 + hi * 1024 + lo)

/-- The string that some pieces make: a unit that is the first half of a pair is joined to the
next one if that is a second half. -/
def joinPieces : List StringPiece → Str
  | [] => []
  | .char c :: pieces => .scalar c :: joinPieces pieces
  | [.unit u] => [CodePoint.ofUnit u]
  | .unit u :: .char c :: pieces => CodePoint.ofUnit u :: .scalar c :: joinPieces pieces
  | .unit u :: .unit u' :: pieces =>
    match CodePoint.ofUnit u, CodePoint.ofUnit u' with
    | .high hi, .low lo => .scalar (joinSurrogates hi lo) :: joinPieces pieces
    | p, _ => p :: joinPieces (.unit u' :: pieces)

/-- What stands for itself or for a control character after a backslash. -/
def simpleEscape (c : Char) : Option Char :=
  if c = '"' ∨ c = '\\' ∨ c = '/' then some c
  else if c = 'b' then some '\x08'
  else if c = 'f' then some '\x0c'
  else if c = 'n' then some '\n'
  else if c = 'r' then some '\r'
  else if c = 't' then some '\t'
  else none

/-- The pieces of a string, up to the quotation mark that ends it. -/
def scanPieces : List Char → Option (List StringPiece × List Char)
  | [] => none
  | c :: cs =>
    if c = '"' then some ([], cs)
    else if c = '\\' then
      match cs with
      | [] => none
      | e :: cs =>
        if e = 'u' then
          match cs with
          | h₁ :: h₂ :: h₃ :: h₄ :: cs =>
            match hexValue h₁, hexValue h₂, hexValue h₃, hexValue h₄ with
            | some d₁, some d₂, some d₃, some d₄ =>
              (scanPieces cs).map fun r =>
                (.unit (d₁ * 0x1000 + d₂ * 0x100 + d₃ * 0x10 + d₄) :: r.1, r.2)
            | _, _, _, _ => none
          | _ => none
        else
          match simpleEscape e with
          | some c => (scanPieces cs).map fun r => (.char c :: r.1, r.2)
          | none => none
    -- control characters are refused
    else if c.toNat < 32 then none
    else (scanPieces cs).map fun r => (.char c :: r.1, r.2)

def scanString (cs : List Char) : Option (Str × List Char) :=
  (scanPieces cs).map fun r => (joinPieces r.1, r.2)

/-! ### Numbers -/

def scanInt : List Char → Option (List Char × List Char)
  | [] => none
  | c :: cs =>
    if c = '0' then some (['0'], cs)
    else if c.isDigit then some (c :: cs.takeWhile Char.isDigit, cs.dropWhile Char.isDigit)
    else none

/-- A point and digits, if both are there. -/
def scanFrac : List Char → List Char × List Char
  | [] => ([], [])
  | c :: cs =>
    if c = '.' ∧ cs.takeWhile Char.isDigit ≠ [] then
      (c :: cs.takeWhile Char.isDigit, cs.dropWhile Char.isDigit)
    else ([], c :: cs)

/-- A sign, if there is one. -/
def scanSign : List Char → List Char × List Char
  | [] => ([], [])
  | c :: cs => if c = '+' ∨ c = '-' then ([c], cs) else ([], c :: cs)

/-- An exponent with digits, if both are there. -/
def scanExp : List Char → List Char × List Char
  | [] => ([], [])
  | c :: cs =>
    let signed := scanSign cs
    if (c = 'e' ∨ c = 'E') ∧ signed.2.takeWhile Char.isDigit ≠ [] then
      (c :: (signed.1 ++ signed.2.takeWhile Char.isDigit), signed.2.dropWhile Char.isDigit)
    else ([], c :: cs)

/-- The parts of a number. -/
structure Numeral where
  negative : Bool
  int : List Char
  frac : List Char
  exp : List Char
  deriving DecidableEq

namespace Numeral

/-- The text of a number. -/
def text (n : Numeral) : List Char :=
  (if n.negative then ['-'] else []) ++ (n.int ++ (n.frac ++ n.exp))

/-- **The grammar of numbers.** -/
structure WellFormed (n : Numeral) : Prop where
  int : n.int = ['0'] ∨ ∃ c ds, n.int = c :: ds ∧ c ≠ '0' ∧ c.isDigit = true ∧
    ∀ d ∈ ds, d.isDigit = true
  frac : n.frac = [] ∨ ∃ ds, n.frac = '.' :: ds ∧ ds ≠ [] ∧ ∀ d ∈ ds, d.isDigit = true
  exp : n.exp = [] ∨ ∃ c sign ds, n.exp = c :: (sign ++ ds) ∧ (c = 'e' ∨ c = 'E') ∧
    (sign = [] ∨ sign = ['+'] ∨ sign = ['-']) ∧ ds ≠ [] ∧ ∀ d ∈ ds, d.isDigit = true

end Numeral

def scanUnsigned (negative : Bool) (cs : List Char) : Option (Numeral × List Char) :=
  (scanInt cs).map fun r =>
    let frac := scanFrac r.2
    let exp := scanExp frac.2
    (⟨negative, r.1, frac.1, exp.1⟩, exp.2)

def scanNumeral : List Char → Option (Numeral × List Char)
  | [] => none
  | c :: cs => if c = '-' then scanUnsigned true cs else scanUnsigned false (c :: cs)

/-- What is to be known of floats: the decimal that a finite one is exactly, how one is read off
the text of a number with a fraction or an exponent, and how a finite one is written – as such a
text, which is read back as that float. -/
structure FloatFormat (F : Type) where
  exact : F → FiniteDecimal
  parse : List Char → PyFloat F
  numeral : F → Numeral
  wellFormed : ∀ x, (numeral x).WellFormed
  isFloat : ∀ x, (numeral x).frac ≠ [] ∨ (numeral x).exp ≠ []
  parse_text : ∀ x, parse (numeral x).text = .finite x

variable {F : Type} (ff : FloatFormat F)

/-- The value of a number: an integer if there is neither a fraction nor an exponent. -/
def Numeral.value (n : Numeral) : JsonValue F :=
  if n.frac = [] ∧ n.exp = [] then
    let magnitude : ℤ := Nat.ofDigitChars 10 n.int 0
    .int (if n.negative then -magnitude else magnitude)
  else .float (ff.parse n.text)

/-! ### Values -/

/-- The values that have a name. -/
def keywords : List (List Char × JsonValue F) :=
  [("null".toList, .null), ("true".toList, .bool true), ("false".toList, .bool false),
    ("NaN".toList, .float .nan), ("Infinity".toList, .float (.infinity false)),
    ("-Infinity".toList, .float (.infinity true))]

def scanKeyword (cs : List Char) : Option (JsonValue F × List Char) :=
  (keywords.find? fun kw => kw.1.isPrefixOf cs).map fun kw => (kw.2, cs.drop kw.1.length)

/-- A value that is neither a string nor a container. -/
def scanScalar (cs : List Char) : Option (JsonValue F × List Char) :=
  match scanKeyword cs with
  | some r => some r
  | none => (scanNumeral cs).map fun r => (r.1.value ff, r.2)

section Sequences

variable {α : Type}

/-- What comes after an item: the end, or a comma and another item. The flag tells which. -/
def scanDelimiter (close : Char) (cs : List Char) : Option (Bool × List Char) :=
  match skipSpace cs with
  | [] => none
  | c :: cs =>
    if c = close then some (false, cs) else if c = ',' then some (true, skipSpace cs) else none

/-- One item or more, up to the end; the number bounds how many. -/
def scanSeq (item : List Char → Option (α × List Char)) (close : Char) :
    ℕ → List Char → Option (List α × List Char)
  | 0, _ => none
  | n + 1, cs =>
    match item cs with
    | none => none
    | some (a, cs) =>
      match scanDelimiter close cs with
      | none => none
      | some (false, cs) => some ([a], cs)
      | some (true, cs) => (scanSeq item close n cs).map fun r => (a :: r.1, r.2)

/-- The items of a container, after the bracket that opens it. -/
def scanItems (item : List Char → Option (α × List Char)) (close : Char) (cs : List Char) :
    Option (List α × List Char) :=
  match skipSpace cs with
  | [] => none
  | c :: cs' => if c = close then some ([], cs') else scanSeq item close (cs.length + 1) (c :: cs')

end Sequences

/-- The key of a field and its colon. -/
def scanKey : List Char → Option (Str × List Char)
  | [] => none
  | c :: cs =>
    if c = '"' then
      match scanString cs with
      | none => none
      | some (key, cs) =>
        match skipSpace cs with
        | [] => none
        | c :: cs => if c = ':' then some (key, skipSpace cs) else none
    else none

/-- A field of an object. -/
def scanField (value : List Char → Option (JsonValue F × List Char)) (cs : List Char) :
    Option ((Str × JsonValue F) × List Char) :=
  match scanKey cs with
  | none => none
  | some (key, cs) => (value cs).map fun r => ((key, r.1), r.2)

/-- A value at the front of a text; the number bounds how deeply it is nested. -/
def scanValue : ℕ → List Char → Option (JsonValue F × List Char)
  | 0, _ => none
  | _ + 1, [] => none
  | n + 1, c :: cs =>
    if c = '"' then (scanString cs).map fun r => (.str r.1, r.2)
    else if c = '[' then (scanItems (scanValue n) ']' cs).map fun r => (.arr r.1, r.2)
    else if c = '{' then
      (scanItems (scanField (scanValue n)) '}' cs).map fun r => (.obj (dictOf r.1), r.2)
    else scanScalar ff (c :: cs)

/-- **The value of a text.** -/
def loads (text : List Char) : Option (JsonValue F) :=
  if text.head? = some '\uFEFF' then none
  else
    match scanValue ff (text.length + 1) (skipSpace text) with
    | none => none
    | some (v, rest) => if skipSpace rest = [] then some v else none

end TradingPlatform
