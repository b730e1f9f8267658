import TradingPlatform.Text.Decimal
import TradingPlatform.Text.Integer

/-!
# Texts of decimals

The scientific string of a decimal, `TradingPlatform.FiniteDecimal.text`, and the reader
`TradingPlatform.decimalOfText`, which takes any numeric string, infinities and not-a-numbers.

A number is **read back as it was written**, sign, coefficient and exponent
(`TradingPlatform.decimalOfText_text`).
-/

namespace TradingPlatform

/-! ### Writing -/

namespace FiniteDecimal

variable (d : FiniteDecimal)

def digits : List Char := Nat.toDigits 10 d.coefficient

/-- Where the point stands among the digits, if there is no exponent. -/
def leftDigits : ℤ := d.exponent + d.digits.length

/-- Whether the number is written without an exponent. -/
def IsPlain : Prop := d.exponent ≤ 0 ∧ -6 < d.leftDigits

instance : Decidable d.IsPlain := inferInstanceAs (Decidable (_ ∧ _))

/-- Where the point stands among the digits. -/
def dotPlace : ℤ := if d.IsPlain then d.leftDigits else 1

/-- The digits before the point, and the point and the digits after it. -/
def body : List Char :=
  if d.dotPlace ≤ 0 then '0' :: '.' :: (List.replicate (-d.dotPlace).toNat '0' ++ d.digits)
  else if (d.digits.length : ℤ) ≤ d.dotPlace then
    d.digits ++ List.replicate (d.dotPlace - d.digits.length).toNat '0'
  else d.digits.take d.dotPlace.toNat ++ '.' :: d.digits.drop d.dotPlace.toNat

/-- An exponent with its sign. -/
def exponentText (e : ℤ) : List Char :=
  'E' :: (if e < 0 then '-' else '+') :: Nat.toDigits 10 e.natAbs

/-- **The scientific string.** -/
def text : List Char :=
  (if d.negative then ['-'] else []) ++ (d.body ++
    if d.leftDigits = d.dotPlace then [] else exponentText (d.leftDigits - d.dotPlace))

end FiniteDecimal

/-- The source's `str` of a decimal. -/
def DecimalValue.text : DecimalValue → List Char
  | .finite d => d.text
  | .infinity negative => (if negative then ['-'] else []) ++ "Infinity".toList
  | .nan negative signaling payload =>
    (if negative then ['-'] else []) ++
      ((if signaling then "sNaN".toList else "NaN".toList) ++ payload)

/-! ### Reading -/

/-- The digits before and after the point, and what is not read. -/
def scanCoefficient (cs : List Char) : List Char × List Char × List Char :=
  let int := cs.takeWhile Char.isDigit
  let rest := cs.dropWhile Char.isDigit
  if rest.head? = some '.' then
    (int, rest.tail.takeWhile Char.isDigit, rest.tail.dropWhile Char.isDigit)
  else (int, [], rest)

/-- The exponent that a text is, or zero if there is no text. -/
def exponentOf : List Char → Option ℤ
  | [] => some 0
  | c :: cs =>
    let signed := scanSign cs
    if (c = 'e' ∨ c = 'E') ∧ signed.2 ≠ [] ∧ signed.2.all Char.isDigit = true then
      let magnitude : ℤ := Nat.ofDigitChars 10 signed.2 0
      some (if signed.1 = ['-'] then -magnitude else magnitude)
    else none

/-- A finite decimal, if it is in range. -/
def finiteOf (negative : Bool) (coefficient : ℕ) (exponent : ℤ) : Option DecimalValue :=
  if h : DecimalInRange coefficient exponent then
    some (.finite ⟨negative, coefficient, exponent, h⟩)
  else none

def finiteOfText (negative : Bool) (cs : List Char) : Option DecimalValue :=
  let r := scanCoefficient cs
  if r.1 ++ r.2.1 = [] then none
  else
    (exponentOf r.2.2).bind fun e =>
      finiteOf negative (Nat.ofDigitChars 10 (r.1 ++ r.2.1) 0) (e - r.2.1.length)

/-- Drop a word off the front of a text, in letters of either case. -/
def dropWord (word : String) (cs : List Char) : Option (List Char) :=
  if (cs.take word.length).map Char.toLower = word.toList then some (cs.drop word.length) else none

/-- A not-a-number and the digits of its payload. -/
def nanOf (negative signaling : Bool) (payload : List Char) : Option DecimalValue :=
  if payload.all Char.isDigit = true ∧ payload.length ≤ maxPrec then
    some (.nan negative signaling (payload.dropWhile (· = '0')))
  else none

def decimalOfUnsigned (negative : Bool) (cs : List Char) : Option DecimalValue :=
  match dropWord "nan" cs, dropWord "snan" cs, dropWord "inf" cs with
  | some payload, _, _ => nanOf negative false payload
  | _, some payload, _ => nanOf negative true payload
  | _, _, some cs =>
    if cs = [] ∨ dropWord "inity" cs = some [] then some (.infinity negative) else none
  | none, none, none => finiteOfText negative cs

/-- **The decimal that a text denotes**: underscores are ignored wherever they stand, and a text
that is no number has none. -/
def decimalOfText (tables : UnicodeTables) (s : Str) : Option DecimalValue :=
  match s.toText? with
  | none => none
  | some cs =>
    match ((stripBy tables.isSpace cs).filter (· ≠ '_')).mapM tables.toAscii with
    | none => none
    | some cs =>
      let signed := scanSign cs
      decimalOfUnsigned (decide (signed.1 = ['-'])) signed.2

/-! ### What is written is read back -/

namespace FiniteDecimal

variable (d : FiniteDecimal)

theorem length_digits_pos : 0 < d.digits.length := Nat.length_toDigits_pos

theorem isDigit_digits {c : Char} (hc : c ∈ d.digits) : c.isDigit = true :=
  Nat.isDigit_of_mem_toDigits (b := 10) (by decide) (by decide) hc

theorem ofDigitChars_digits : Nat.ofDigitChars 10 d.digits 0 = d.coefficient :=
  Nat.ofDigitChars_ten_toDigits

/-- The point stands among the digits, or before them. -/
theorem dotPlace_le : d.dotPlace ≤ d.digits.length := by
  have hpos := d.length_digits_pos
  rw [dotPlace]
  split_ifs with hplain
  · have hexp : d.exponent ≤ 0 := hplain.1
    rw [leftDigits]
    omega
  · omega

/-- **The parts of a body**: digits, and those after the point if there are any. -/
theorem exists_body : ∃ int frac, d.body = int ++ (if frac = [] then [] else '.' :: frac) ∧
    int ≠ [] ∧ (∀ c ∈ int, c.isDigit = true) ∧ (∀ c ∈ frac, c.isDigit = true) ∧
    Nat.ofDigitChars 10 (int ++ frac) 0 = d.coefficient ∧
    (frac.length : ℤ) = d.digits.length - d.dotPlace := by
  have hpos := d.length_digits_pos
  have hle := d.dotPlace_le
  rw [body]
  split_ifs with hnonpos hall
  · -- zeros stand between the point and the digits
    refine ⟨['0'], List.replicate (-d.dotPlace).toNat '0' ++ d.digits, ?_, by simp, by simp, ?_, ?_,
      ?_⟩
    · rw [if_neg]
      · rfl
      · intro h
        rw [(List.append_eq_nil_iff.mp h).2] at hpos
        exact lt_irrefl 0 hpos
    · intro c hc
      rcases List.mem_append.mp hc with hc | hc
      · rw [List.eq_of_mem_replicate hc]
        rfl
      · exact d.isDigit_digits hc
    · rw [Nat.ofDigitChars_append, Nat.ofDigitChars_append, Nat.ofDigitChars_replicate_zero]
      exact d.ofDigitChars_digits
    · rw [List.length_append, List.length_replicate]
      omega
  · -- no digits stand after the point
    have hzero : (d.dotPlace - d.digits.length).toNat = 0 := by omega
    refine ⟨d.digits, [], by rw [hzero]; simp, List.ne_nil_of_length_pos hpos,
      fun c => d.isDigit_digits, by simp, ?_, ?_⟩
    · rw [List.append_nil]
      exact d.ofDigitChars_digits
    · rw [List.length_nil]
      omega
  · -- the point stands among the digits
    refine ⟨d.digits.take d.dotPlace.toNat, d.digits.drop d.dotPlace.toNat, ?_, ?_, ?_, ?_, ?_, ?_⟩
    · rw [if_neg]
      intro h
      rw [List.drop_eq_nil_iff] at h
      omega
    · intro h
      have hlength := congrArg List.length h
      rw [List.length_take, List.length_nil] at hlength
      omega
    · exact fun c hc => d.isDigit_digits (List.mem_of_mem_take hc)
    · exact fun c hc => d.isDigit_digits (List.mem_of_mem_drop hc)
    · rw [List.take_append_drop]
      exact d.ofDigitChars_digits
    · rw [List.length_drop]
      omega

/-- A digit is one of ten characters. -/
theorem exists_hexDigit {c : Char} (hc : c.isDigit = true) : ∃ k, k < 10 ∧ c = hexDigit k := by
  have hrange : 48 ≤ c.toNat ∧ c.toNat ≤ 57 := Char.isDigit_iff_toNat.mp hc
  refine ⟨c.toNat - 48, by omega, ?_⟩
  have hsum : '0'.toNat + (c.toNat - 48) = c.toNat := by
    show 48 + (c.toNat - 48) = c.toNat
    omega
  rw [hexDigit, if_pos (by omega), hsum, Char.ofNat_toNat]

theorem exponentOf_exponentText (e : ℤ) : exponentOf (exponentText e) = some e := by
  have hdigits : (Nat.toDigits 10 e.natAbs).all Char.isDigit = true := by
    rw [List.all_eq_true]
    exact fun c hc => Nat.isDigit_of_mem_toDigits (b := 10) (by decide) (by decide) hc
  have hne : Nat.toDigits 10 e.natAbs ≠ [] := Nat.toDigits_ne_nil
  have hvalue : (Nat.ofDigitChars 10 (Nat.toDigits 10 e.natAbs) 0 : ℤ) = e.natAbs := by
    rw [Nat.ofDigitChars_ten_toDigits]
  rcases lt_or_ge e 0 with hneg | hpos
  · have hscan : scanSign ('-' :: Nat.toDigits 10 e.natAbs) =
        (['-'], Nat.toDigits 10 e.natAbs) := rfl
    rw [exponentText, if_pos hneg, exponentOf, hscan]
    refine (if_pos ⟨Or.inr rfl, hne, hdigits⟩).trans (congrArg some ?_)
    rw [if_pos rfl, hvalue]
    omega
  · have hscan : scanSign ('+' :: Nat.toDigits 10 e.natAbs) =
        (['+'], Nat.toDigits 10 e.natAbs) := rfl
    rw [exponentText, if_neg (by omega), exponentOf, hscan]
    refine (if_pos ⟨Or.inr rfl, hne, hdigits⟩).trans (congrArg some ?_)
    have hplus : ¬['+'] = ['-'] := by decide
    rw [if_neg hplus, hvalue]
    omega

/-- The exponent after the body, if there is one. -/
def suffix : List Char :=
  if d.leftDigits = d.dotPlace then [] else exponentText (d.leftDigits - d.dotPlace)

theorem exponentOf_suffix : exponentOf d.suffix = some (d.leftDigits - d.dotPlace) := by
  rw [suffix]
  split_ifs with heq
  · rw [heq, sub_self]
    rfl
  · exact exponentOf_exponentText _

/-- What comes after the digits begins with neither a digit nor a point. -/
theorem head_suffix {c : Char} (hc : d.suffix.head? = some c) : c = 'E' := by
  rw [suffix] at hc
  split_ifs at hc
  · cases hc
  · exact (Option.some.inj hc).symm

/-- **The unsigned part of a number is read back.** -/
theorem finiteOfText_body :
    finiteOfText d.negative (d.body ++ d.suffix) = some (.finite d) := by
  obtain ⟨int, frac, hbody, hne, hint, hfrac, hvalue, hlength⟩ := d.exists_body
  have hend : ∀ c, d.suffix.head? = some c → c.isDigit = false := by
    intro c hc
    rw [d.head_suffix hc]
    rfl
  have hscan : scanCoefficient (d.body ++ d.suffix) = (int, frac, d.suffix) := by
    rw [hbody, List.append_assoc]
    split_ifs with hnil
    · obtain ⟨htake, hdrop⟩ := takeWhile_digits hint hend
      have hdot : ¬d.suffix.head? = some '.' := by
        intro hc
        exact absurd (d.head_suffix hc) (by decide)
      rw [List.nil_append, scanCoefficient, htake, hdrop]
      exact (if_neg hdot).trans (by rw [hnil])
    · have hpoint : ∀ c, (('.' :: frac) ++ d.suffix).head? = some c → c.isDigit = false := by
        intro c hc
        obtain rfl : '.' = c := Option.some.inj hc
        rfl
      obtain ⟨htake, hdrop⟩ := takeWhile_digits hint hpoint
      obtain ⟨htake', hdrop'⟩ := takeWhile_digits hfrac hend
      rw [scanCoefficient, htake, hdrop]
      refine (if_pos rfl).trans ?_
      rw [List.cons_append, List.tail_cons, htake', hdrop']
  have hexp : d.leftDigits - d.dotPlace - frac.length = d.exponent := by
    rw [hlength, leftDigits]
    omega
  rw [finiteOfText, hscan]
  refine (if_neg fun h => hne (List.append_eq_nil_iff.mp h).1).trans ?_
  rw [d.exponentOf_suffix, Option.bind_some, hvalue, hexp]
  exact dif_pos d.inRange

/-- A body begins with a digit, so no word stands there. -/
theorem dropWord_body (word : String) {w : Char} {ws : List Char} (hword : word.toList = w :: ws)
    (hw : w.isDigit = false) : dropWord word (d.body ++ d.suffix) = none := by
  obtain ⟨int, frac, hbody, hne, hint, -⟩ := d.exists_body
  obtain ⟨c, cs, rfl⟩ := List.exists_cons_of_ne_nil hne
  have hc : c.isDigit = true := hint c List.mem_cons_self
  have hlower : c.toLower = c := by
    obtain ⟨k, hk, rfl⟩ := exists_hexDigit hc
    interval_cases k <;> rfl
  have hlength : word.length = ws.length + 1 := by
    rw [← String.length_toList, hword, List.length_cons]
  rw [dropWord, hbody, hword, hlength]
  refine if_neg fun h => ?_
  rw [List.cons_append, List.cons_append, List.take_succ_cons, List.map_cons, hlower] at h
  rw [(List.cons.inj h).1] at hc
  rw [hc] at hw
  cases hw

theorem text_eq : d.text = (if d.negative then ['-'] else []) ++ (d.body ++ d.suffix) := rfl

theorem scanSign_text :
    scanSign d.text = ((if d.negative then ['-'] else []), d.body ++ d.suffix) := by
  obtain ⟨int, frac, hbody, hne, hint, -⟩ := d.exists_body
  obtain ⟨c, cs, rfl⟩ := List.exists_cons_of_ne_nil hne
  have hc : ¬(c = '+' ∨ c = '-') := by
    have hdigit : c.isDigit = true := hint c List.mem_cons_self
    rintro (rfl | rfl)
    · exact absurd hdigit (by decide)
    · exact absurd hdigit (by decide)
  rw [text_eq]
  cases d.negative with
  | true => rfl
  | false =>
    rw [if_neg Bool.false_ne_true, List.nil_append, hbody, List.cons_append, List.cons_append,
      scanSign, if_neg hc]

end FiniteDecimal

/-- A character of a number. -/
def IsNumeric (c : Char) : Prop := c.isDigit = true ∨ c = '-' ∨ c = '+' ∨ c = '.' ∨ c = 'E'

theorem isNumeric_text (d : FiniteDecimal) {c : Char} (hc : c ∈ d.text) : IsNumeric c := by
  obtain ⟨int, frac, hbody, -, hint, hfrac, -⟩ := d.exists_body
  rw [FiniteDecimal.text_eq, hbody] at hc
  rcases List.mem_append.mp hc with hc | hc
  · cases hneg : d.negative with
    | true =>
      rw [hneg, if_pos rfl] at hc
      exact Or.inr (Or.inl (List.mem_singleton.mp hc))
    | false =>
      rw [hneg, if_neg Bool.false_ne_true] at hc
      cases hc
  rcases List.mem_append.mp hc with hc | hc
  · rcases List.mem_append.mp hc with hc | hc
    · exact Or.inl (hint c hc)
    · split_ifs at hc
      · cases hc
      · rcases List.mem_cons.mp hc with hc | hc
        · exact Or.inr (Or.inr (Or.inr (Or.inl hc)))
        · exact Or.inl (hfrac c hc)
  · rw [FiniteDecimal.suffix] at hc
    split_ifs at hc
    · cases hc
    · rw [FiniteDecimal.exponentText] at hc
      rcases List.mem_cons.mp hc with hc | hc
      · exact Or.inr (Or.inr (Or.inr (Or.inr hc)))
      rcases List.mem_cons.mp hc with hc | hc
      · split_ifs at hc
        · exact Or.inr (Or.inl hc)
        · exact Or.inr (Or.inr (Or.inl hc))
      · exact Or.inl (Nat.isDigit_of_mem_toDigits (b := 10) (by decide) (by decide) hc)

/-- Nothing is dropped from a number, and nothing in it is outside ASCII. -/
theorem IsNumeric.facts {c : Char} (h : IsNumeric c) (tables : UnicodeTables) :
    tables.isSpace c = false ∧ c ≠ '_' ∧ tables.toAscii c = some c := by
  have hrange : 43 ≤ c.toNat ∧ c.toNat < 70 := by
    rcases h with h | rfl | rfl | rfl | rfl
    · have hdigit : 48 ≤ c.toNat ∧ c.toNat ≤ 57 := Char.isDigit_iff_toNat.mp h
      omega
    · decide
    · decide
    · decide
    · decide
  have hascii : c.toNat < 128 := by omega
  refine ⟨?_, ?_, ?_⟩
  · rw [UnicodeTables.isSpace, if_pos hascii, decide_eq_false_iff_not]
    omega
  · rintro rfl
    exact absurd hrange (by decide)
  · rw [UnicodeTables.toAscii, if_pos hascii]

theorem mapM_eq_self {α : Type} {f : α → Option α} {as : List α} (h : ∀ a ∈ as, f a = some a) :
    as.mapM f = some as := by
  induction as with
  | nil => rfl
  | cons a as ih =>
    rw [List.mapM_cons, h a List.mem_cons_self, ih fun b hb => h b (List.mem_cons_of_mem _ hb)]
    rfl

/-- **A number is read back as it was written.** -/
theorem decimalOfText_text (tables : UnicodeTables) (d : FiniteDecimal) :
    decimalOfText tables (d.text.map .scalar) = some (.finite d) := by
  have hfacts : ∀ c ∈ d.text,
      tables.isSpace c = false ∧ c ≠ '_' ∧ tables.toAscii c = some c :=
    fun c hc => (isNumeric_text d hc).facts tables
  have hfilter : d.text.filter (· ≠ '_') = d.text := by
    rw [List.filter_eq_self]
    exact fun c hc => decide_eq_true (hfacts c hc).2.1
  have hsign : decide ((if d.negative then ['-'] else []) = ['-']) = d.negative := by
    cases d.negative <;> rfl
  rw [decimalOfText, Str.toText?_map_scalar]
  simp only [stripBy_eq_self fun c hc => (hfacts c hc).1, hfilter,
    mapM_eq_self fun c hc => (hfacts c hc).2.2, d.scanSign_text, hsign]
  rw [decimalOfUnsigned, d.dropWord_body "nan" rfl rfl,
    d.dropWord_body "snan" rfl rfl, d.dropWord_body "inf" rfl rfl]
  exact d.finiteOfText_body

/-! ### Floats that are decimal texts -/

/-- The numbers with a fraction or an exponent, as floats without rounding. -/
abbrev DecimalFloat := {n : Numeral // n.WellFormed ∧ (n.frac ≠ [] ∨ n.exp ≠ [])}

def DecimalFloat.exact (x : DecimalFloat) : FiniteDecimal :=
  match finiteOfText x.1.negative (x.1.int ++ (x.1.frac ++ x.1.exp)) with
  | some (.finite d) => d
  | _ => .zero

def DecimalFloat.parse (cs : List Char) : PyFloat DecimalFloat :=
  match scanNumeral cs with
  | some (n, _) => if h : n.WellFormed ∧ (n.frac ≠ [] ∨ n.exp ≠ []) then .finite ⟨n, h⟩ else .nan
  | none => .nan

/-- The format of these floats. -/
def decimalFloats : FloatFormat DecimalFloat where
  exact := DecimalFloat.exact
  parse := DecimalFloat.parse
  numeral := Subtype.val
  wellFormed x := x.2.1
  isFloat x := x.2.2
  parse_text x := by
    rw [DecimalFloat.parse, (wellFormed_iff_scanNumeral x.1).mpr x.2.1]
    exact dif_pos x.2

end TradingPlatform
