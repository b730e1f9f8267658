import TradingPlatform.Json.Print

/-!
# Texts of integers

How a language whose texts are Unicode reads an integer off one: white space around it is
dropped, every decimal digit of any script counts (what they are, is a table:
`TradingPlatform.UnicodeTables`), and an underscore may stand between two digits.

The fixed-width digits of dates and of hexadecimal identifiers are here too
(`TradingPlatform.fixedDigits`), each with the reader that takes them back.
-/

namespace TradingPlatform

/-! ### Characters -/

/-- What a table says of the characters outside ASCII. -/
structure UnicodeTables where
  space : Char → Bool
  digit : Char → Option (Fin 10)

namespace UnicodeTables

/-- No digit and no white space outside ASCII. -/
def ascii : UnicodeTables := ⟨fun _ => false, fun _ => none⟩

variable (tables : UnicodeTables)

def isSpace (c : Char) : Bool :=
  if c.toNat < 128 then decide (9 ≤ c.toNat ∧ c.toNat ≤ 13 ∨ 28 ≤ c.toNat ∧ c.toNat ≤ 32)
  else tables.space c

/-- The character of ASCII that stands for a character in a number. -/
def toAscii (c : Char) : Option Char :=
  if c.toNat < 128 then some c
  else if tables.space c then some ' '
  else (tables.digit c).map fun d => hexDigit d

end UnicodeTables

def stripBy (drop : Char → Bool) (cs : List Char) : List Char :=
  ((cs.dropWhile drop).reverse.dropWhile drop).reverse

/-- A text is not changed if there is nothing to drop in it. -/
theorem stripBy_eq_self {drop : Char → Bool} {cs : List Char} (h : ∀ c ∈ cs, drop c = false) :
    stripBy drop cs = cs := by
  have hself : ∀ {ds : List Char}, (∀ c ∈ ds, drop c = false) → ds.dropWhile drop = ds := by
    intro ds hds
    cases ds with
    | nil => rfl
    | cons d ds => exact List.dropWhile_cons_of_neg (by simp [hds d List.mem_cons_self])
  rw [stripBy, hself h, hself fun c hc => h c (List.mem_reverse.mp hc), List.reverse_reverse]

/-! ### Integers -/

/-- The white space that may stand around an integer. -/
def isIntSpace (c : Char) : Bool := decide (9 ≤ c.toNat ∧ c.toNat ≤ 13 ∨ c.toNat = 32)

/-- Digits to a base, with single underscores between them. The flag tells whether the last
character was a digit. -/
def scanDigits (base : ℕ) : Bool → ℕ → List Char → Option ℕ
  | afterDigit, n, [] => if afterDigit then some n else none
  | afterDigit, n, c :: cs =>
    if c = '_' then if afterDigit then scanDigits base false n cs else none
    else
      match hexValue c with
      | some d => if d < base then scanDigits base true (n * base + d) cs else none
      | none => none

/-- The mark that hexadecimal digits may have in front of them. -/
def dropHexMark : List Char → List Char
  | a :: b :: cs =>
    if a = '0' ∧ (b = 'x' ∨ b = 'X') then if cs.head? = some '_' then cs.tail else cs
    else a :: b :: cs
  | cs => cs

/-- **The integer that a text denotes**, to base ten or sixteen. -/
def intOfText (tables : UnicodeTables) (base : ℕ) (s : Str) : Option ℤ :=
  match s.toText? with
  | none => none
  | some cs =>
    let signed := scanSign (stripBy isIntSpace (cs.map fun c => (tables.toAscii c).getD '?'))
    let digits := if base = 16 then dropHexMark signed.2 else signed.2
    (scanDigits base false 0 digits).map fun n : ℕ =>
      if signed.1 = ['-'] then -(n : ℤ) else (n : ℤ)

/-! ### Digits of a fixed width -/

/-- The last digits of a number to a base, as many as the width says. -/
def fixedDigits (base : ℕ) : ℕ → ℕ → List Char
  | 0, _ => []
  | width + 1, n => fixedDigits base width (n / base) ++ [hexDigit (n % base)]

@[simp] theorem length_fixedDigits (base width n : ℕ) :
    (fixedDigits base width n).length = width := by
  induction width generalizing n with
  | zero => rfl
  | succ width ih => rw [fixedDigits, List.length_append, ih, List.length_singleton]

theorem exists_of_mem_fixedDigits {base width n : ℕ} (hbase : 0 < base) {c : Char}
    (hc : c ∈ fixedDigits base width n) : ∃ d, d < base ∧ c = hexDigit d := by
  induction width generalizing n with
  | zero => cases hc
  | succ width ih =>
    rcases List.mem_append.mp hc with hc | hc
    · exact ih hc
    · exact ⟨n % base, Nat.mod_lt _ hbase, List.mem_singleton.mp hc⟩

theorem hexDigit_ne_underscore {d : ℕ} (hd : d < 16) : hexDigit d ≠ '_' := by
  interval_cases d <;> decide

/-- Fixed digits are read as the number they are the digits of. -/
theorem scanDigits_fixedDigits {base : ℕ} (hbase : 2 ≤ base) (hbase' : base ≤ 16) {width n : ℕ}
    (hn : n < base ^ width) (hwidth : 0 < width) (m : ℕ) (flag : Bool) (cs : List Char) :
    scanDigits base flag m (fixedDigits base width n ++ cs) =
      scanDigits base true (m * base ^ width + n) cs := by
  induction width generalizing n m flag cs with
  | zero => exact absurd hwidth (lt_irrefl 0)
  | succ width ih =>
    have hstep : ∀ (m : ℕ) (flag : Bool), scanDigits base flag m (hexDigit (n % base) :: cs) =
        scanDigits base true (m * base + n % base) cs := by
      intro m flag
      have hlt : n % base < base := Nat.mod_lt _ (by omega)
      rw [scanDigits, if_neg (hexDigit_ne_underscore (by omega)), hexValue_hexDigit (by omega)]
      exact if_pos hlt
    rw [fixedDigits, List.append_assoc, List.singleton_append]
    rcases Nat.eq_zero_or_pos width with rfl | hpos
    · have hlt : n < base := by simpa using hn
      rw [fixedDigits, List.nil_append, hstep, Nat.mod_eq_of_lt hlt, pow_one]
    · have hdiv : n / base < base ^ width := by
        rw [Nat.div_lt_iff_lt_mul (by omega), ← pow_succ]
        exact hn
      have hsplit : n / base * base + n % base = n := Nat.div_add_mod' n base
      rw [ih hdiv hpos, hstep]
      congr 1
      calc (m * base ^ width + n / base) * base + n % base
          = m * base ^ (width + 1) + (n / base * base + n % base) := by ring
        _ = m * base ^ (width + 1) + n := by rw [hsplit]

/-- Take so many decimal digits off the front of a text. -/
def takeDigits (width : ℕ) (cs : List Char) : Option (ℕ × List Char) :=
  if width ≤ cs.length ∧ (cs.take width).all Char.isDigit = true then
    some (Nat.ofDigitChars 10 (cs.take width) 0, cs.drop width)
  else none

theorem isDigit_hexDigit {d : ℕ} (hd : d < 10) : (hexDigit d).isDigit = true := by
  interval_cases d <;> rfl

theorem ofDigitChars_fixedDigits {width n : ℕ} (hn : n < 10 ^ width) :
    Nat.ofDigitChars 10 (fixedDigits 10 width n) 0 = n := by
  induction width generalizing n with
  | zero =>
    rw [pow_zero, Nat.lt_one_iff] at hn
    rw [hn]
    rfl
  | succ width ih =>
    have hdiv : n / 10 < 10 ^ width := by
      rw [Nat.div_lt_iff_lt_mul (by omega), ← pow_succ]
      exact hn
    have hdigit : (hexDigit (n % 10)).toNat - '0'.toNat = n % 10 := by
      have hlt : n % 10 < 10 := Nat.mod_lt _ (by omega)
      interval_cases n % 10 <;> rfl
    rw [fixedDigits, Nat.ofDigitChars_append, ih hdiv, Nat.ofDigitChars_cons, hdigit,
      Nat.ofDigitChars_nil, Nat.div_add_mod]

theorem takeDigits_fixedDigits {width n : ℕ} (hn : n < 10 ^ width) (cs : List Char) :
    takeDigits width (fixedDigits 10 width n ++ cs) = some (n, cs) := by
  have htake : (fixedDigits 10 width n ++ cs).take width = fixedDigits 10 width n := by
    rw [List.take_append_of_le_length (by simp), List.take_of_length_le (by simp)]
  have hdrop : (fixedDigits 10 width n ++ cs).drop width = cs := by
    rw [List.drop_append_of_le_length (by simp), List.drop_of_length_le (by simp), List.nil_append]
  have hdigits : (fixedDigits 10 width n).all Char.isDigit = true := by
    rw [List.all_eq_true]
    intro c hc
    obtain ⟨d, hd, rfl⟩ := exists_of_mem_fixedDigits (by decide) hc
    exact isDigit_hexDigit hd
  rw [takeDigits, htake, hdrop, ofDigitChars_fixedDigits hn]
  exact if_pos ⟨by simp, hdigits⟩

end TradingPlatform
