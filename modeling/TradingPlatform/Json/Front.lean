import TradingPlatform.Json.Scan

/-!
# What a scanner takes off the front of a text

What is read as a value is read so whatever else comes after it, unless it is a number and could
go on (`TradingPlatform.exists_scanValue`). So the number that bounds the nesting is no matter if
it is not less than the length of the text (`TradingPlatform.scanValue_bound`), and a text that is
an object and nothing else has no beginning that is a value
(`TradingPlatform.loads_take_eq_none`): a file that holds an object tells a reader when its end
is missing.
-/

namespace TradingPlatform

variable {F : Type} (ff : FloatFormat F)

/-! ### A string at the front of a text -/

/-- The text does not begin in a way that a number could go on. -/
def NumberEnd (cs : List Char) : Prop :=
  ∀ c, cs.head? = some c → c.isDigit = false ∧ c ≠ '.' ∧ c ≠ 'e' ∧ c ≠ 'E'

/-- The text does not begin with white space. -/
def NoSpace (cs : List Char) : Prop := ∀ c, cs.head? = some c → isJsonSpace c = false

section Pieces

variable {cs : List Char}

@[simp] theorem scanPieces_quote (cs : List Char) : scanPieces ('"' :: cs) = some ([], cs) := by
  rw [scanPieces.eq_def]
  simp

theorem scanPieces_unit {h₁ h₂ h₃ h₄ : Char} {d₁ d₂ d₃ d₄ : ℕ} (hd₁ : hexValue h₁ = some d₁)
    (hd₂ : hexValue h₂ = some d₂) (hd₃ : hexValue h₃ = some d₃) (hd₄ : hexValue h₄ = some d₄)
    (cs : List Char) :
    scanPieces ('\\' :: 'u' :: h₁ :: h₂ :: h₃ :: h₄ :: cs) = (scanPieces cs).map fun r =>
      (.unit (d₁ * 0x1000 + d₂ * 0x100 + d₃ * 0x10 + d₄) :: r.1, r.2) := by
  rw [scanPieces.eq_def]
  simp [hd₁, hd₂, hd₃, hd₄]

theorem scanPieces_escape {e c : Char} (he : e ≠ 'u') (hc : simpleEscape e = some c)
    (cs : List Char) :
    scanPieces ('\\' :: e :: cs) = (scanPieces cs).map fun r => (.char c :: r.1, r.2) := by
  rw [scanPieces.eq_def]
  simp [he, hc]

theorem scanPieces_char {c : Char} (hquote : c ≠ '"') (hslash : c ≠ '\\')
    (hcontrol : ¬c.toNat < 32) (cs : List Char) :
    scanPieces (c :: cs) = (scanPieces cs).map fun r => (.char c :: r.1, r.2) := by
  rw [scanPieces.eq_def]
  simp [hquote, hslash, hcontrol]

/-- **A string is read up to its quotation mark**, whatever comes after it. -/
theorem exists_scanPieces {rest : List Char} {pieces : List StringPiece}
    (h : scanPieces cs = some (pieces, rest)) :
    ∃ pre, pre ≠ [] ∧ cs = pre ++ rest ∧
      ∀ rest', scanPieces (pre ++ rest') = some (pieces, rest') := by
  fun_induction scanPieces cs generalizing pieces with
  | case1 => cases h
  | case2 cs =>
    obtain ⟨rfl, rfl⟩ := Prod.mk.inj (Option.some.inj h)
    exact ⟨['"'], by simp, rfl, scanPieces_quote⟩
  | case3 => cases h
  | case4 h₁ h₂ h₃ h₄ cs d₁ d₂ d₃ d₄ hd₄ hd₃ hd₂ hd₁ hc ih =>
    obtain ⟨r, hr, heq⟩ := Option.map_eq_some_iff.mp h
    obtain ⟨rfl, rfl⟩ := Prod.mk.inj heq
    obtain ⟨pre, -, rfl, hpre⟩ := ih hr
    refine ⟨'\\' :: 'u' :: h₁ :: h₂ :: h₃ :: h₄ :: pre, by simp, rfl, fun rest' => ?_⟩
    simp only [List.cons_append]
    rw [scanPieces_unit hd₁ hd₂ hd₃ hd₄, hpre, Option.map_some]
  | case5 => cases h
  | case6 => cases h
  | case7 e cs he c hc hq ih =>
    obtain ⟨r, hr, heq⟩ := Option.map_eq_some_iff.mp h
    obtain ⟨rfl, rfl⟩ := Prod.mk.inj heq
    obtain ⟨pre, -, rfl, hpre⟩ := ih hr
    refine ⟨'\\' :: e :: pre, by simp, rfl, fun rest' => ?_⟩
    simp only [List.cons_append]
    rw [scanPieces_escape he hc, hpre, Option.map_some]
  | case8 => cases h
  | case9 => cases h
  | case10 c cs hquote hslash hcontrol ih =>
    obtain ⟨r, hr, heq⟩ := Option.map_eq_some_iff.mp h
    obtain ⟨rfl, rfl⟩ := Prod.mk.inj heq
    obtain ⟨pre, -, rfl, hpre⟩ := ih hr
    refine ⟨c :: pre, by simp, rfl, fun rest' => ?_⟩
    rw [List.cons_append, scanPieces_char hquote hslash hcontrol, hpre, Option.map_some]

end Pieces

theorem exists_scanString {cs rest : List Char} {s : Str} (h : scanString cs = some (s, rest)) :
    ∃ pre, pre ≠ [] ∧ cs = pre ++ rest ∧ ∀ rest', scanString (pre ++ rest') = some (s, rest') := by
  obtain ⟨r, hr, heq⟩ := Option.map_eq_some_iff.mp h
  obtain ⟨rfl, rfl⟩ := Prod.mk.inj heq
  obtain ⟨pre, hne, rfl, hpre⟩ := exists_scanPieces hr
  refine ⟨pre, hne, rfl, fun rest' => ?_⟩
  rw [scanString, hpre, Option.map_some]

/-! ### A number at the front of a text -/

section Digits

variable {ds rest : List Char}

theorem takeWhile_digits (hds : ∀ d ∈ ds, d.isDigit = true)
    (hrest : ∀ c, rest.head? = some c → c.isDigit = false) :
    (ds ++ rest).takeWhile Char.isDigit = ds ∧ (ds ++ rest).dropWhile Char.isDigit = rest := by
  induction ds with
  | nil =>
    cases rest with
    | nil => exact ⟨rfl, rfl⟩
    | cons c rest =>
      have hc : c.isDigit = false := hrest c rfl
      simp [hc]
  | cons d ds ih =>
    have hd : d.isDigit = true := hds d List.mem_cons_self
    obtain ⟨htake, hdrop⟩ := ih fun d' hd' => hds d' (List.mem_cons_of_mem _ hd')
    simp [hd, htake, hdrop]

theorem digits_takeWhile (cs : List Char) : ∀ d ∈ cs.takeWhile Char.isDigit, d.isDigit = true :=
  fun _ hd => List.mem_takeWhile_imp hd

end Digits

/-- What is read as the digits before the point, and what is not. -/
theorem of_scanInt {cs int rest : List Char} (h : scanInt cs = some (int, rest)) :
    cs = int ++ rest ∧ (int = ['0'] ∨ ∃ c ds, int = c :: ds ∧ c ≠ '0' ∧ c.isDigit = true ∧
      ∀ d ∈ ds, d.isDigit = true) := by
  cases cs with
  | nil => cases h
  | cons c cs =>
    rw [scanInt] at h
    split_ifs at h with hzero hdigit
    · obtain ⟨rfl, rfl⟩ := Prod.mk.inj (Option.some.inj h)
      exact ⟨by rw [hzero]; rfl, Or.inl rfl⟩
    · obtain ⟨rfl, rfl⟩ := Prod.mk.inj (Option.some.inj h)
      refine ⟨by simp, Or.inr ⟨c, _, rfl, hzero, hdigit, digits_takeWhile cs⟩⟩

theorem scanFrac_append (cs : List Char) : (scanFrac cs).1 ++ (scanFrac cs).2 = cs ∧
    ((scanFrac cs).1 = [] ∨ ∃ ds, (scanFrac cs).1 = '.' :: ds ∧ ds ≠ [] ∧
      ∀ d ∈ ds, d.isDigit = true) := by
  cases cs with
  | nil => exact ⟨rfl, Or.inl rfl⟩
  | cons c cs =>
    rw [scanFrac]
    split_ifs with hpoint
    · exact ⟨by simp, Or.inr ⟨_, by rw [hpoint.1], hpoint.2, digits_takeWhile cs⟩⟩
    · exact ⟨rfl, Or.inl rfl⟩

theorem scanSign_append (cs : List Char) : (scanSign cs).1 ++ (scanSign cs).2 = cs ∧
    ((scanSign cs).1 = [] ∨ (scanSign cs).1 = ['+'] ∨ (scanSign cs).1 = ['-']) := by
  cases cs with
  | nil => exact ⟨rfl, Or.inl rfl⟩
  | cons c cs =>
    rw [scanSign]
    split_ifs with hsign
    · exact ⟨rfl, Or.inr (hsign.imp (by rintro rfl; rfl) (by rintro rfl; rfl))⟩
    · exact ⟨rfl, Or.inl rfl⟩

theorem scanExp_append (cs : List Char) : (scanExp cs).1 ++ (scanExp cs).2 = cs ∧
    ((scanExp cs).1 = [] ∨ ∃ c sign ds, (scanExp cs).1 = c :: (sign ++ ds) ∧ (c = 'e' ∨ c = 'E') ∧
      (sign = [] ∨ sign = ['+'] ∨ sign = ['-']) ∧ ds ≠ [] ∧ ∀ d ∈ ds, d.isDigit = true) := by
  cases cs with
  | nil => exact ⟨rfl, Or.inl rfl⟩
  | cons c cs =>
    obtain ⟨hsplit, hsign⟩ := scanSign_append cs
    rw [scanExp]
    split_ifs with hexp
    · refine ⟨?_, Or.inr ⟨c, _, _, rfl, hexp.1, hsign, hexp.2, digits_takeWhile _⟩⟩
      rw [List.cons_append, List.append_assoc, List.takeWhile_append_dropWhile, hsplit]
    · exact ⟨rfl, Or.inl rfl⟩

theorem of_scanUnsigned {negative : Bool} {cs rest : List Char} {n : Numeral}
    (h : scanUnsigned negative cs = some (n, rest)) :
    n.WellFormed ∧ n.negative = negative ∧ cs = n.int ++ (n.frac ++ n.exp) ++ rest := by
  obtain ⟨r, hr, heq⟩ := Option.map_eq_some_iff.mp h
  obtain ⟨rfl, rfl⟩ := Prod.mk.inj heq
  obtain ⟨hcs, hint⟩ := of_scanInt hr
  obtain ⟨hfrac, hfrac'⟩ := scanFrac_append r.2
  obtain ⟨hexp, hexp'⟩ := scanExp_append (scanFrac r.2).2
  refine ⟨⟨hint, hfrac', hexp'⟩, rfl, ?_⟩
  rw [hcs, List.append_assoc, List.append_assoc, hexp, hfrac]

/-- **What is read as a number is one.** -/
theorem of_scanNumeral {cs rest : List Char} {n : Numeral} (h : scanNumeral cs = some (n, rest)) :
    n.WellFormed ∧ cs = n.text ++ rest := by
  cases cs with
  | nil => cases h
  | cons c cs =>
    rw [scanNumeral] at h
    split_ifs at h with hminus
    · obtain ⟨hformed, hneg, hcs⟩ := of_scanUnsigned h
      refine ⟨hformed, ?_⟩
      rw [Numeral.text, hneg, if_pos rfl, hminus, hcs]
      rfl
    · obtain ⟨hformed, hneg, hcs⟩ := of_scanUnsigned h
      refine ⟨hformed, ?_⟩
      rw [Numeral.text, hneg, if_neg Bool.false_ne_true, hcs]
      rfl

/-- A text that no number could go on with begins with no digit. -/
theorem NumberEnd.head_digit {rest : List Char} (h : NumberEnd rest) :
    ∀ c, rest.head? = some c → c.isDigit = false := fun c hc => (h c hc).1

theorem scanExp_of_numberEnd {rest : List Char} (h : NumberEnd rest) :
    scanExp rest = ([], rest) := by
  cases rest with
  | nil => rfl
  | cons c rest =>
    obtain ⟨-, -, he, hE⟩ := h c rfl
    rw [scanExp]
    exact if_neg fun hc => hc.1.elim he hE

theorem scanFrac_of_head {rest : List Char} (h : ∀ c, rest.head? = some c → c ≠ '.') :
    scanFrac rest = ([], rest) := by
  cases rest with
  | nil => rfl
  | cons c rest =>
    rw [scanFrac]
    exact if_neg fun hc => h c rfl hc.1

theorem scanSign_append_of {sign : List Char} (hsign : sign = [] ∨ sign = ['+'] ∨ sign = ['-'])
    {ds rest : List Char} (hne : ds ≠ []) (hds : ∀ d ∈ ds, d.isDigit = true) :
    scanSign (sign ++ (ds ++ rest)) = (sign, ds ++ rest) := by
  obtain ⟨d, ds, rfl⟩ := List.exists_cons_of_ne_nil hne
  have hd : d.isDigit = true := hds d List.mem_cons_self
  rcases hsign with rfl | rfl | rfl
  · have hsigns : ¬(d = '+' ∨ d = '-') := by
      rintro (rfl | rfl)
      · exact absurd hd (by decide)
      · exact absurd hd (by decide)
    simp [scanSign, hsigns]
  · simp [scanSign]
  · simp [scanSign]

theorem scanExp_text {n : Numeral} (hn : n.WellFormed) {rest : List Char} (hrest : NumberEnd rest) :
    scanExp (n.exp ++ rest) = (n.exp, rest) := by
  rcases hn.exp with hexp | ⟨c, sign, ds, hexp, hc, hsign, hne, hds⟩
  · rw [hexp]
    exact scanExp_of_numberEnd hrest
  · obtain ⟨htake, hdrop⟩ := takeWhile_digits hds hrest.head_digit
    have hsigned : scanSign (sign ++ (ds ++ rest)) = (sign, ds ++ rest) :=
      scanSign_append_of hsign hne hds
    rw [hexp, List.cons_append, List.append_assoc, scanExp, hsigned]
    simp only [htake, hdrop]
    exact if_pos ⟨hc, hne⟩

/-- What comes after the digits before a point is no digit and, unless there is one, no point. -/
theorem head_exp_append {n : Numeral} (hn : n.WellFormed) {rest : List Char}
    (hrest : NumberEnd rest) :
    ∀ c, (n.exp ++ rest).head? = some c → c.isDigit = false ∧ c ≠ '.' := by
  intro c hc
  rcases hn.exp with hexp | ⟨e, sign, ds, hexp, he, -⟩
  · rw [hexp, List.nil_append] at hc
    exact ⟨(hrest c hc).1, (hrest c hc).2.1⟩
  · rw [hexp, List.cons_append, List.head?_cons, Option.some.injEq] at hc
    subst hc
    rcases he with rfl | rfl <;> decide

theorem scanFrac_text {n : Numeral} (hn : n.WellFormed) {rest : List Char}
    (hrest : NumberEnd rest) :
    scanFrac (n.frac ++ (n.exp ++ rest)) = (n.frac, n.exp ++ rest) := by
  have hhead := head_exp_append hn hrest
  rcases hn.frac with hfrac | ⟨ds, hfrac, hne, hds⟩
  · rw [hfrac]
    exact scanFrac_of_head fun c hc => (hhead c hc).2
  · obtain ⟨htake, hdrop⟩ := takeWhile_digits hds fun c hc => (hhead c hc).1
    rw [hfrac, List.cons_append, scanFrac, htake, hdrop]
    exact if_pos ⟨rfl, hne⟩

theorem scanInt_text {n : Numeral} (hn : n.WellFormed) {rest : List Char}
    (hrest : NumberEnd rest) :
    scanInt (n.int ++ (n.frac ++ (n.exp ++ rest))) = some (n.int, n.frac ++ (n.exp ++ rest)) := by
  rcases hn.int with hint | ⟨c, ds, hint, hzero, hc, hds⟩
  · rw [hint]
    rfl
  · have hhead : ∀ c, (n.frac ++ (n.exp ++ rest)).head? = some c → c.isDigit = false := by
      intro c hc
      rcases hn.frac with hfrac | ⟨ds, hfrac, -⟩
      · rw [hfrac, List.nil_append] at hc
        exact (head_exp_append hn hrest c hc).1
      · rw [hfrac, List.cons_append, List.head?_cons, Option.some.injEq] at hc
        subst hc
        decide
    obtain ⟨htake, hdrop⟩ := takeWhile_digits hds hhead
    rw [hint, List.cons_append, scanInt, if_neg hzero, if_pos hc, htake, hdrop]

/-- **A number is read** if nothing comes after it that it could go on with. -/
theorem scanNumeral_text {n : Numeral} (hn : n.WellFormed) {rest : List Char}
    (hrest : NumberEnd rest) : scanNumeral (n.text ++ rest) = some (n, rest) := by
  have hunsigned : ∀ negative, scanUnsigned negative (n.int ++ (n.frac ++ (n.exp ++ rest))) =
      some ({ n with negative := negative }, rest) := by
    intro negative
    rw [scanUnsigned, scanInt_text hn hrest, Option.map_some]
    simp only [scanFrac_text hn hrest, scanExp_text hn hrest]
  have htext : ∀ sign, sign ++ (n.int ++ (n.frac ++ n.exp)) ++ rest =
      sign ++ (n.int ++ (n.frac ++ (n.exp ++ rest))) := by
    intro sign
    simp
  rw [Numeral.text, htext]
  cases hneg : n.negative with
  | true =>
    rw [if_pos rfl, List.singleton_append, scanNumeral, if_pos rfl, hunsigned, ← hneg]
  | false =>
    rw [if_neg Bool.false_ne_true, List.nil_append]
    obtain ⟨c, cs, hcs⟩ : ∃ c cs, n.int ++ (n.frac ++ (n.exp ++ rest)) = c :: cs ∧ c ≠ '-' := by
      rcases hn.int with hint | ⟨c, ds, hint, -, hc, -⟩
      · exact ⟨'0', _, by rw [hint]; rfl, by decide⟩
      · refine ⟨c, _, by rw [hint]; rfl, ?_⟩
        rintro rfl
        exact absurd hc (by decide)
    have h := hunsigned false
    rw [hcs.1] at h ⊢
    rw [scanNumeral, if_neg hcs.2, h, ← hneg]

/-- The grammar is what the scanner reads. -/
theorem wellFormed_iff_scanNumeral (n : Numeral) :
    scanNumeral n.text = some (n, []) ↔ n.WellFormed := by
  have hend : NumberEnd [] := fun c hc => by cases hc
  constructor
  · intro h
    exact (of_scanNumeral h).1
  · intro h
    have hscan := scanNumeral_text h hend
    rwa [List.append_nil] at hscan

instance (n : Numeral) : Decidable n.WellFormed :=
  decidable_of_iff (scanNumeral n.text = some (n, [])) (wellFormed_iff_scanNumeral n)

/-! ### White space and delimiters -/

theorem skipSpace_append {ws rest : List Char} (hws : ∀ c ∈ ws, isJsonSpace c = true)
    (hrest : NoSpace rest) : skipSpace (ws ++ rest) = rest := by
  induction ws with
  | nil =>
    cases rest with
    | nil => rfl
    | cons c rest => exact List.dropWhile_cons_of_neg (by simp [hrest c rfl])
  | cons c ws ih =>
    refine (List.dropWhile_cons_of_pos (hws c List.mem_cons_self)).trans ?_
    exact ih fun c' hc' => hws c' (List.mem_cons_of_mem _ hc')

theorem exists_skipSpace (cs : List Char) :
    ∃ ws, (∀ c ∈ ws, isJsonSpace c = true) ∧ cs = ws ++ skipSpace cs :=
  ⟨cs.takeWhile isJsonSpace, fun _ hc => List.mem_takeWhile_imp hc,
    (List.takeWhile_append_dropWhile).symm⟩

theorem NoSpace.append {pre : List Char} (h : NoSpace pre) (hne : pre ≠ []) (rest : List Char) :
    NoSpace (pre ++ rest) := by
  intro c hc
  rw [List.head?_append_of_ne_nil _ hne] at hc
  exact h c hc

theorem NumberEnd.append {pre : List Char} (h : NumberEnd pre) (hne : pre ≠ [])
    (rest : List Char) : NumberEnd (pre ++ rest) := by
  intro c hc
  rw [List.head?_append_of_ne_nil _ hne] at hc
  exact h c hc

/-- White space and a character after it, as the front of a text. -/
theorem numberEnd_append_cons {ws cs : List Char} {c : Char} (hws : ∀ c ∈ ws, isJsonSpace c = true)
    (hc : c.isDigit = false ∧ c ≠ '.' ∧ c ≠ 'e' ∧ c ≠ 'E') : NumberEnd (ws ++ c :: cs) := by
  intro c' hc'
  rcases ws with _ | ⟨w, ws⟩
  · obtain rfl : c = c' := Option.some.inj hc'
    exact hc
  · obtain rfl : w = c' := Option.some.inj hc'
    have hw := hws w List.mem_cons_self
    simp only [isJsonSpace, Bool.or_eq_true, decide_eq_true_eq] at hw
    rcases hw with ((rfl | rfl) | rfl) | rfl <;> decide

/-- The characters that end a container. -/
def IsCloser (c : Char) : Prop := c = ']' ∨ c = '}'

instance (c : Char) : Decidable (IsCloser c) := inferInstanceAs (Decidable (_ ∨ _))

theorem IsCloser.notNumber {c : Char} (h : IsCloser c) :
    c.isDigit = false ∧ c ≠ '.' ∧ c ≠ 'e' ∧ c ≠ 'E' := by
  rcases h with rfl | rfl <;> decide

theorem IsCloser.noSpace {c : Char} (h : IsCloser c) (cs : List Char) : NoSpace (c :: cs) := by
  intro c' hc'
  obtain rfl : c = c' := Option.some.inj hc'
  rcases h with rfl | rfl <;> decide

theorem IsCloser.ne_comma {c : Char} (h : IsCloser c) : ',' ≠ c := by
  rcases h with rfl | rfl <;> decide

section Sequences

variable {α : Type} {close : Char} {cs rest : List Char}

/-- The end of a container is found after white space. -/
theorem scanDelimiter_close (hclose : IsCloser close) {ws : List Char}
    (hws : ∀ c ∈ ws, isJsonSpace c = true) (rest : List Char) :
    scanDelimiter close (ws ++ close :: rest) = some (false, rest) := by
  rw [scanDelimiter, skipSpace_append hws (hclose.noSpace rest)]
  exact if_pos rfl

/-- So is a comma, and white space after it. -/
theorem scanDelimiter_comma (hclose : IsCloser close) {ws ws' : List Char}
    (hws : ∀ c ∈ ws, isJsonSpace c = true) (hws' : ∀ c ∈ ws', isJsonSpace c = true)
    (hrest : NoSpace rest) :
    scanDelimiter close (ws ++ ',' :: (ws' ++ rest)) = some (true, rest) := by
  have hcomma : NoSpace (',' :: (ws' ++ rest)) := by
    intro c hc
    obtain rfl : ',' = c := Option.some.inj hc
    decide
  rw [scanDelimiter, skipSpace_append hws hcomma]
  refine (if_neg hclose.ne_comma).trans ((if_pos rfl).trans ?_)
  rw [skipSpace_append hws' hrest]

/-- A delimiter stands at the front of a text, whatever comes after it. -/
theorem exists_scanDelimiter (hclose : IsCloser close) {more : Bool}
    (h : scanDelimiter close cs = some (more, rest)) :
    ∃ pre, pre ≠ [] ∧ cs = pre ++ rest ∧ NumberEnd pre ∧
      ∀ rest', (more = true → NoSpace rest') →
        scanDelimiter close (pre ++ rest') = some (more, rest') := by
  obtain ⟨ws, hws, hcs⟩ := exists_skipSpace cs
  rw [scanDelimiter] at h
  split at h
  · cases h
  next c cs' heq =>
    rw [heq] at hcs
    split_ifs at h with hc hcomma
    · obtain ⟨rfl, rfl⟩ := Prod.mk.inj (Option.some.inj h)
      subst hc
      refine ⟨ws ++ [c], by simp, by rw [hcs, List.append_assoc]; rfl,
        numberEnd_append_cons hws hclose.notNumber, fun rest' _ => ?_⟩
      rw [List.append_assoc, List.singleton_append]
      exact scanDelimiter_close hclose hws rest'
    · obtain ⟨rfl, rfl⟩ := Prod.mk.inj (Option.some.inj h)
      subst hcomma
      obtain ⟨ws', hws', hcs'⟩ := exists_skipSpace cs'
      refine ⟨ws ++ ',' :: ws', by simp, ?_, numberEnd_append_cons hws (by decide),
        fun rest' hrest' => ?_⟩
      · rw [List.append_assoc, List.cons_append, ← hcs', hcs]
      · rw [List.append_assoc, List.cons_append]
        exact scanDelimiter_comma hclose hws hws' (hrest' rfl)

variable {item : List Char → Option (α × List Char)}
  {item' : ℕ → List Char → Option (α × List Char)}

/-- **What one scanner takes off the front of a text, another one does too** if its bound is not
less than the length of that, whatever comes after it that no number could go on with. -/
def Follows (item : List Char → Option (α × List Char))
    (item' : ℕ → List Char → Option (α × List Char)) : Prop :=
  ∀ cs a rest, item cs = some (a, rest) → ∃ pre, pre ≠ [] ∧ cs = pre ++ rest ∧ NoSpace pre ∧
    ∀ m rest', pre.length ≤ m → NumberEnd rest' → item' m (pre ++ rest') = some (a, rest')

theorem exists_scanSeq (hclose : IsCloser close) (hitem : Follows item item') {n : ℕ}
    {as : List α} (h : scanSeq item close n cs = some (as, rest)) :
    ∃ pre, pre ≠ [] ∧ cs = pre ++ rest ∧ NoSpace pre ∧ ∀ k m rest', pre.length ≤ k →
      pre.length ≤ m → scanSeq (item' k) close m (pre ++ rest') = some (as, rest') := by
  induction n generalizing cs as with
  | zero => cases h
  | succ n ih =>
    rw [scanSeq] at h
    split at h
    · cases h
    next a cs₁ hfirst =>
      obtain ⟨pre₁, hne₁, rfl, hspace₁, hpre₁⟩ := hitem cs a cs₁ hfirst
      have hlength : 0 < pre₁.length := List.length_pos_of_ne_nil hne₁
      split at h
      · cases h
      next cs₂ hdelim =>
        -- the last item
        obtain ⟨rfl, rfl⟩ := Prod.mk.inj (Option.some.inj h)
        obtain ⟨pre₂, hne₂, rfl, hend, hpre₂⟩ := exists_scanDelimiter hclose hdelim
        refine ⟨pre₁ ++ pre₂, by simp [hne₁], by rw [List.append_assoc],
          hspace₁.append hne₁ pre₂, fun k m rest' hk hm => ?_⟩
        rw [List.length_append] at hk hm
        obtain ⟨m, rfl⟩ : ∃ m', m = m' + 1 := Nat.exists_eq_succ_of_ne_zero (by omega)
        rw [List.append_assoc, scanSeq, hpre₁ k _ (by omega) (hend.append hne₂ rest')]
        simp only [hpre₂ rest' (fun hc => absurd hc Bool.false_ne_true)]
      next cs₂ hdelim =>
        -- another item follows
        obtain ⟨r, hr, heq⟩ := Option.map_eq_some_iff.mp h
        obtain ⟨rfl, rfl⟩ := Prod.mk.inj heq
        obtain ⟨pre₂, hne₂, rfl, hend, hpre₂⟩ := exists_scanDelimiter hclose hdelim
        obtain ⟨pre₃, hne₃, rfl, hspace₃, hpre₃⟩ := ih hr
        refine ⟨pre₁ ++ (pre₂ ++ pre₃), by simp [hne₁], by simp, hspace₁.append hne₁ _,
          fun k m rest' hk hm => ?_⟩
        rw [List.length_append, List.length_append] at hk hm
        obtain ⟨m, rfl⟩ : ∃ m', m = m' + 1 := Nat.exists_eq_succ_of_ne_zero (by omega)
        have hrest : scanSeq (item' k) close m (pre₃ ++ rest') = some (r.1, rest') :=
          hpre₃ k m rest' (by omega) (by omega)
        rw [List.append_assoc, List.append_assoc, scanSeq,
          hpre₁ k _ (by omega) (hend.append hne₂ _)]
        simp only [hpre₂ _ fun _ => hspace₃.append hne₃ rest', hrest, Option.map_some]

theorem exists_scanItems (hclose : IsCloser close) (hitem : Follows item item') {as : List α}
    (h : scanItems item close cs = some (as, rest)) :
    ∃ pre, cs = pre ++ rest ∧ ∀ k rest', pre.length ≤ k →
      scanItems (item' k) close (pre ++ rest') = some (as, rest') := by
  obtain ⟨ws, hws, hcs⟩ := exists_skipSpace cs
  rw [scanItems] at h
  split at h
  · cases h
  next c cs' heq =>
    rw [heq] at hcs
    split_ifs at h with hc
    · obtain ⟨rfl, rfl⟩ := Prod.mk.inj (Option.some.inj h)
      subst hc
      refine ⟨ws ++ [c], by rw [hcs, List.append_assoc]; rfl, fun k rest' _ => ?_⟩
      rw [List.append_assoc, List.singleton_append, scanItems,
        skipSpace_append hws (hclose.noSpace rest')]
      exact if_pos rfl
    · obtain ⟨pre, hne, hpre, hspace, hseq⟩ := exists_scanSeq hclose hitem h
      refine ⟨ws ++ pre, by rw [hcs, hpre, List.append_assoc], fun k rest' hk => ?_⟩
      obtain ⟨c', pre, rfl⟩ := List.exists_cons_of_ne_nil hne
      obtain ⟨rfl, -⟩ := List.cons.inj hpre
      rw [List.length_append] at hk
      have hfuel : (c :: pre).length ≤ (ws ++ (c :: pre) ++ rest').length + 1 := by
        simp only [List.length_append]
        omega
      have hscan := hseq k _ rest' (by omega) hfuel
      rw [List.append_assoc] at hscan ⊢
      rw [scanItems, skipSpace_append hws (hspace.append hne rest')]
      exact (if_neg hc).trans hscan

end Sequences

/-! ### A value at the front of a text -/

theorem exists_scanKey {cs rest : List Char} {key : Str} (h : scanKey cs = some (key, rest)) :
    ∃ pre, pre ≠ [] ∧ cs = pre ++ rest ∧ NoSpace pre ∧
      ∀ rest', NoSpace rest' → scanKey (pre ++ rest') = some (key, rest') := by
  cases cs with
  | nil => cases h
  | cons c cs =>
    rw [scanKey] at h
    split_ifs at h with hquote
    subst hquote
    split at h
    · cases h
    next key' cs₁ hstring =>
      obtain ⟨pre, -, rfl, hpre⟩ := exists_scanString hstring
      obtain ⟨ws, hws, hcs₁⟩ := exists_skipSpace cs₁
      split at h
      · cases h
      next c cs₂ heq =>
        rw [heq] at hcs₁
        split_ifs at h with hcolon
        subst hcolon
        obtain ⟨rfl, rfl⟩ := Prod.mk.inj (Option.some.inj h)
        obtain ⟨ws', hws', hcs₂⟩ := exists_skipSpace cs₂
        refine ⟨'"' :: (pre ++ (ws ++ ':' :: ws')), by simp, ?_, ?_, fun rest' hrest' => ?_⟩
        · simp only [List.cons_append, List.append_assoc]
          rw [← hcs₂, hcs₁]
        · intro c hc
          obtain rfl : '"' = c := Option.some.inj hc
          decide
        · have hsplit : '"' :: (pre ++ (ws ++ ':' :: ws')) ++ rest' =
              '"' :: (pre ++ (ws ++ ':' :: (ws' ++ rest'))) := by simp
          have hcolon : NoSpace (':' :: (ws' ++ rest')) := by
            intro c hc
            obtain rfl : ':' = c := Option.some.inj hc
            decide
          rw [hsplit, scanKey, if_pos rfl, hpre]
          simp only [skipSpace_append hws hcolon, if_pos, skipSpace_append hws' hrest']

theorem Follows.field {value : List Char → Option (JsonValue F × List Char)}
    {value' : ℕ → List Char → Option (JsonValue F × List Char)} (h : Follows value value') :
    Follows (scanField value) fun m => scanField (value' m) := by
  intro cs field rest hfield
  rw [scanField] at hfield
  split at hfield
  · cases hfield
  next key cs₁ hkey =>
    obtain ⟨r, hr, heq⟩ := Option.map_eq_some_iff.mp hfield
    obtain ⟨rfl, rfl⟩ := Prod.mk.inj heq
    obtain ⟨pre, hne, rfl, hspace, hpre⟩ := exists_scanKey hkey
    obtain ⟨pre', hne', rfl, hspace', hpre'⟩ := h cs₁ r.1 r.2 hr
    refine ⟨pre ++ pre', by simp [hne], by rw [List.append_assoc], hspace.append hne pre',
      fun m rest' hm hrest' => ?_⟩
    rw [List.length_append] at hm
    show scanField (value' m) _ = _
    rw [List.append_assoc, scanField, hpre _ (hspace'.append hne' rest')]
    simp only [hpre' m rest' (by omega) hrest', Option.map_some]

/-- A number begins with a digit, or with a minus and a digit. -/
theorem Numeral.WellFormed.head {n : Numeral} (hn : n.WellFormed) :
    ∃ d ds, d.isDigit = true ∧ n.text = (if n.negative then ['-'] else []) ++ d :: ds := by
  rcases hn.int with hint | ⟨c, ds, hint, -, hc, -⟩
  · exact ⟨'0', n.frac ++ n.exp, rfl, by rw [Numeral.text, hint]; rfl⟩
  · exact ⟨c, ds ++ (n.frac ++ n.exp), hc, by rw [Numeral.text, hint]; rfl⟩

theorem scanKeyword_keyword {kw : List Char × JsonValue F} (hkw : kw ∈ keywords)
    (rest : List Char) : scanKeyword (kw.1 ++ rest) = some (kw.2, rest) := by
  simp only [keywords, List.mem_cons, List.not_mem_nil, or_false] at hkw
  rcases hkw with rfl | rfl | rfl | rfl | rfl | rfl <;> rfl

/-- A number is no keyword. -/
theorem scanKeyword_text {n : Numeral} (hn : n.WellFormed) (rest : List Char) :
    scanKeyword (F := F) (n.text ++ rest) = none := by
  obtain ⟨d, ds, hd, htext⟩ := hn.head
  have hne : ∀ c : Char, c.isDigit = false → c ≠ d := by
    rintro c hc rfl
    exact absurd hd (by simp [hc])
  rw [htext, scanKeyword]
  cases n.negative with
  | true => simp [keywords, hne]
  | false => simp [keywords, hne]

/-- What a scalar does not begin with: a quotation mark, or a bracket that opens a container. -/
def NoOpener (cs : List Char) : Prop :=
  ∀ c, cs.head? = some c → c ≠ '"' ∧ c ≠ '[' ∧ c ≠ '{' ∧ isJsonSpace c = false

theorem noOpener_keyword {kw : List Char × JsonValue F} (hkw : kw ∈ keywords) :
    kw.1 ≠ [] ∧ NoOpener kw.1 := by
  simp only [keywords, List.mem_cons, List.not_mem_nil, or_false] at hkw
  rcases hkw with rfl | rfl | rfl | rfl | rfl | rfl <;> simp [NoOpener, isJsonSpace]

theorem isDigit_noOpener {c : Char} (hc : c.isDigit = true ∨ c = '-') :
    c ≠ '"' ∧ c ≠ '[' ∧ c ≠ '{' ∧ isJsonSpace c = false := by
  refine ⟨?_, ?_, ?_, ?_⟩
  · rintro rfl
    exact absurd hc (by decide)
  · rintro rfl
    exact absurd hc (by decide)
  · rintro rfl
    exact absurd hc (by decide)
  · by_contra hspace
    rw [Bool.not_eq_false] at hspace
    simp only [isJsonSpace, Bool.or_eq_true, decide_eq_true_eq] at hspace
    rcases hspace with ((rfl | rfl) | rfl) | rfl <;> exact absurd hc (by decide)

theorem Numeral.WellFormed.noOpener {n : Numeral} (hn : n.WellFormed) :
    n.text ≠ [] ∧ NoOpener n.text := by
  obtain ⟨d, ds, hd, htext⟩ := hn.head
  rw [htext]
  refine ⟨by simp, fun c hc => ?_⟩
  cases hneg : n.negative with
  | true =>
    rw [hneg, if_pos rfl] at hc
    obtain rfl : '-' = c := Option.some.inj hc
    exact isDigit_noOpener (Or.inr rfl)
  | false =>
    rw [hneg, if_neg Bool.false_ne_true] at hc
    obtain rfl : d = c := Option.some.inj hc
    exact isDigit_noOpener (Or.inl hd)

theorem Numeral.isNumber_value (n : Numeral) : (n.value ff).isNumber = true := by
  rw [Numeral.value]
  split_ifs <;> rfl

/-- **A number is a scalar.** -/
theorem scanScalar_text {n : Numeral} (hn : n.WellFormed) {rest : List Char}
    (hrest : NumberEnd rest) : scanScalar ff (n.text ++ rest) = some (n.value ff, rest) := by
  rw [scanScalar, scanKeyword_text hn, scanNumeral_text hn hrest]
  rfl

theorem exists_scanScalar {cs rest : List Char} {v : JsonValue F}
    (h : scanScalar ff cs = some (v, rest)) :
    ∃ pre, pre ≠ [] ∧ cs = pre ++ rest ∧ NoOpener pre ∧ ∀ rest',
      (v.isNumber = true → NumberEnd rest') → scanScalar ff (pre ++ rest') = some (v, rest') := by
  rw [scanScalar] at h
  split at h
  · next r hkeyword =>
    obtain rfl : r = (v, rest) := Option.some.inj h
    obtain ⟨kw, hfind, heq⟩ := Option.map_eq_some_iff.mp hkeyword
    obtain ⟨rfl, rfl⟩ := Prod.mk.inj heq
    have hkw : kw ∈ keywords := List.mem_of_find?_eq_some hfind
    have hpre : kw.1.IsPrefix cs := by
      have hpre := List.find?_some hfind
      exact List.isPrefixOf_iff_prefix.mp hpre
    obtain ⟨rest', rfl⟩ := hpre
    refine ⟨kw.1, (noOpener_keyword hkw).1, by rw [List.drop_left], (noOpener_keyword hkw).2,
      fun rest' _ => ?_⟩
    rw [scanScalar, scanKeyword_keyword hkw]
  · obtain ⟨r, hr, heq⟩ := Option.map_eq_some_iff.mp h
    obtain ⟨rfl, rfl⟩ := Prod.mk.inj heq
    obtain ⟨hn, hcs⟩ := of_scanNumeral hr
    refine ⟨r.1.text, hn.noOpener.1, hcs, hn.noOpener.2, fun rest' hrest' => ?_⟩
    exact scanScalar_text ff hn (hrest' (r.1.isNumber_value ff))

theorem scanValue_scalar {pre : List Char} (hne : pre ≠ []) (hpre : NoOpener pre)
    (n : ℕ) (rest : List Char) :
    scanValue ff (n + 1) (pre ++ rest) = scanScalar ff (pre ++ rest) := by
  obtain ⟨c, pre, rfl⟩ := List.exists_cons_of_ne_nil hne
  obtain ⟨hquote, harr, hobj, -⟩ := hpre c rfl
  rw [List.cons_append, scanValue, if_neg hquote, if_neg harr, if_neg hobj]

/-- **What is read as a value** is read so whatever else comes after it – unless it is a number
and could go on – and no bound that is not less than its length changes that. -/
theorem exists_scanValue {n : ℕ} {cs rest : List Char} {v : JsonValue F}
    (h : scanValue ff n cs = some (v, rest)) :
    ∃ pre, pre ≠ [] ∧ cs = pre ++ rest ∧ NoSpace pre ∧ ∀ m rest', pre.length ≤ m →
      (v.isNumber = true → NumberEnd rest' ∨ rest' = rest) →
        scanValue ff m (pre ++ rest') = some (v, rest') := by
  induction n generalizing cs rest v with
  | zero => cases h
  | succ n ih =>
    have hfollows : Follows (scanValue ff n) (scanValue ff) := by
      intro cs a rest ha
      obtain ⟨pre, hne, hcs, hspace, hpre⟩ := ih ha
      exact ⟨pre, hne, hcs, hspace, fun m rest' hm hrest' => hpre m rest' hm fun _ => Or.inl hrest'⟩
    have hcons : ∀ {c : Char} {pre : List Char}, isJsonSpace c = false → NoSpace (c :: pre) := by
      intro c pre hc c' hc'
      obtain rfl : c = c' := Option.some.inj hc'
      exact hc
    cases cs with
    | nil => cases h
    | cons c cs =>
      rw [scanValue] at h
      split_ifs at h with hquote harr hobj
      · obtain ⟨r, hr, heq⟩ := Option.map_eq_some_iff.mp h
        obtain ⟨rfl, rfl⟩ := Prod.mk.inj heq
        obtain ⟨pre, -, rfl, hpre⟩ := exists_scanString hr
        subst hquote
        refine ⟨'"' :: pre, by simp, rfl, hcons (by decide), fun m rest' hm _ => ?_⟩
        obtain ⟨m, rfl⟩ : ∃ m', m = m' + 1 := Nat.exists_eq_succ_of_ne_zero (by
          rw [List.length_cons] at hm
          omega)
        rw [List.cons_append, scanValue, if_pos rfl, hpre, Option.map_some]
      · obtain ⟨r, hr, heq⟩ := Option.map_eq_some_iff.mp h
        obtain ⟨rfl, rfl⟩ := Prod.mk.inj heq
        obtain ⟨pre, rfl, hpre⟩ := exists_scanItems (Or.inl rfl) hfollows hr
        subst harr
        refine ⟨'[' :: pre, by simp, rfl, hcons (by decide), fun m rest' hm _ => ?_⟩
        rw [List.length_cons] at hm
        obtain ⟨m, rfl⟩ : ∃ m', m = m' + 1 := Nat.exists_eq_succ_of_ne_zero (by omega)
        rw [List.cons_append, scanValue, if_neg hquote, if_pos rfl, hpre m rest' (by omega),
          Option.map_some]
      · obtain ⟨r, hr, heq⟩ := Option.map_eq_some_iff.mp h
        obtain ⟨rfl, rfl⟩ := Prod.mk.inj heq
        obtain ⟨pre, rfl, hpre⟩ := exists_scanItems (Or.inr rfl) hfollows.field hr
        subst hobj
        refine ⟨'{' :: pre, by simp, rfl, hcons (by decide), fun m rest' hm _ => ?_⟩
        rw [List.length_cons] at hm
        obtain ⟨m, rfl⟩ : ∃ m', m = m' + 1 := Nat.exists_eq_succ_of_ne_zero (by omega)
        rw [List.cons_append, scanValue, if_neg hquote, if_neg harr, if_pos rfl,
          hpre m rest' (by omega), Option.map_some]
      · obtain ⟨pre, hne, hcs, hopener, hpre⟩ := exists_scanScalar ff h
        refine ⟨pre, hne, hcs, fun c hc => (hopener c hc).2.2.2, fun m rest' hm hrest' => ?_⟩
        obtain ⟨m, rfl⟩ : ∃ m', m = m' + 1 := Nat.exists_eq_succ_of_ne_zero (by
          have hlength : 0 < pre.length := List.length_pos_of_ne_nil hne
          omega)
        rw [scanValue_scalar ff hne hopener]
        rcases eq_or_ne rest' rest with rfl | hother
        · rw [← hcs, h]
        · exact hpre rest' fun hnumber => (hrest' hnumber).resolve_right hother

/-- **The bound does not matter** if it is not less than the length of the text. -/
theorem scanValue_bound {cs : List Char} {n m : ℕ} (hn : cs.length ≤ n) (hm : cs.length ≤ m) :
    scanValue ff n cs = scanValue ff m cs := by
  have hmono : ∀ {n m : ℕ} {r : JsonValue F × List Char}, cs.length ≤ m →
      scanValue ff n cs = some r → scanValue ff m cs = some r := by
    intro n m r hm h
    obtain ⟨pre, -, hcs, -, hpre⟩ := exists_scanValue ff h
    rw [hcs, List.length_append] at hm
    rw [hcs]
    exact hpre m r.2 (by omega) fun _ => Or.inr rfl
  cases h : scanValue ff n cs with
  | some r => exact (hmono hm h).symm
  | none =>
    cases h' : scanValue ff m cs with
    | some r => exact absurd (hmono hn h') (by simp [h])
    | none => rfl

end TradingPlatform
