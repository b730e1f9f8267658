import TradingPlatform.Json.Front

/-!
# Writing JSON

The writer of a JSON text, in ASCII: what is not printable there is escaped, a character outside
the basic plane as the two halves of its surrogate pair. A layout
(`TradingPlatform.Layout`) says where the white space stands; a writer on one line and one that
indents differ in nothing else.

`TradingPlatform.loads_dumps` is the **round trip**: the text of a value denotes the value, if the
value is `TradingPlatform.JsonValue.Proper`.
-/

namespace TradingPlatform

/-! ### Strings -/

def hexDigit (d : ℕ) : Char := if d < 10 then Char.ofNat ('0'.toNat + d) else Char.ofNat (87 + d)

/-- The four hexadecimal digits of a code unit. -/
def hex4 (u : ℕ) : List Char :=
  [hexDigit (u / 0x1000 % 16), hexDigit (u / 0x100 % 16), hexDigit (u / 0x10 % 16),
    hexDigit (u % 16)]

/-- The code units that are written for a character that is not printable in ASCII. -/
def codeUnits (c : Char) : List ℕ :=
  if c.toNat < 0x10000 then [c.toNat]
  else [0xD800 + (c.toNat - 0x10000) / 1024, 0xDC00 + (c.toNat - 0x10000) % 1024]

/-- The letter after the backslash, for the characters that have one. -/
def escapeLetter (c : Char) : Option Char :=
  if c = '\\' then some '\\'
  else if c = '"' then some '"'
  else if c = '\x08' then some 'b'
  else if c = '\x0c' then some 'f'
  else if c = '\n' then some 'n'
  else if c = '\r' then some 'r'
  else if c = '\t' then some 't'
  else none

/-- A character that stands for itself in a string. -/
def isPlain (c : Char) : Prop := 32 ≤ c.toNat ∧ c.toNat < 127 ∧ c ≠ '\\' ∧ c ≠ '"'

instance (c : Char) : Decidable (isPlain c) := inferInstanceAs (Decidable (_ ∧ _ ∧ _ ∧ _))

/-- The pieces that a code point is written as. -/
def CodePoint.pieces : CodePoint → List StringPiece
  | .scalar c =>
    if isPlain c ∨ escapeLetter c ≠ none then [.char c] else (codeUnits c).map .unit
  | .high bits => [.unit (0xD800 + bits)]
  | .low bits => [.unit (0xDC00 + bits)]

def StringPiece.text : StringPiece → List Char
  | .char c =>
    match escapeLetter c with
    | some e => ['\\', e]
    | none => [c]
  | .unit u => '\\' :: 'u' :: hex4 u

/-- A string between its quotation marks. -/
def stringText (s : Str) : List Char :=
  '"' :: ((s.flatMap CodePoint.pieces).flatMap StringPiece.text ++ ['"'])

/-! ### Numbers -/

/-- The digits of an integer. -/
def intNumeral (n : ℤ) : Numeral := ⟨decide (n < 0), Nat.toDigits 10 n.natAbs, [], []⟩

variable {F : Type} (ff : FloatFormat F)

def floatText : PyFloat F → List Char
  | .finite x => (ff.numeral x).text
  | .infinity false => "Infinity".toList
  | .infinity true => "-Infinity".toList
  | .nan => "NaN".toList

/-! ### Values -/

/-- Where the white space of a text stands: at the beginning and the end of a container, and after
a comma, at some depth. -/
structure Layout where
  line : ℕ → List Char
  gap : ℕ → List Char
  line_space : ∀ depth, ∀ c ∈ line depth, isJsonSpace c = true
  gap_space : ∀ depth, ∀ c ∈ gap depth, isJsonSpace c = true

namespace Layout

/-- On one line. -/
def compact : Layout where
  line _ := []
  gap _ := [' ']
  line_space := by simp
  gap_space := by simp [isJsonSpace]

def lineAt (indent depth : ℕ) : List Char := '\n' :: List.replicate (indent * depth) ' '

theorem lineAt_space (indent depth : ℕ) : ∀ c ∈ lineAt indent depth, isJsonSpace c = true := by
  intro c hc
  rcases List.mem_cons.mp hc with rfl | hc
  · rfl
  · rw [List.eq_of_mem_replicate hc]
    rfl

/-- Every item on a line of its own. -/
def indented (indent : ℕ) : Layout where
  line := lineAt indent
  gap := lineAt indent
  line_space := lineAt_space indent
  gap_space := lineAt_space indent

end Layout

variable (lay : Layout)

/-- The items after the first one, each after a comma. -/
def restText (depth : ℕ) : List (List Char) → List Char
  | [] => []
  | t :: ts => ',' :: (lay.gap depth ++ (t ++ restText depth ts))

/-- A container at some depth, of the texts of its items. -/
def bracketText (depth : ℕ) (opening closing : Char) : List (List Char) → List Char
  | [] => [opening, closing]
  | t :: ts =>
    opening :: (lay.line (depth + 1) ++ (t ++ (restText lay (depth + 1) ts ++
      (lay.line depth ++ [closing]))))

mutual

/-- The text of a value at some depth. -/
def render : ℕ → JsonValue F → List Char
  | _, .null => "null".toList
  | _, .bool true => "true".toList
  | _, .bool false => "false".toList
  | _, .int n => (intNumeral n).text
  | _, .float x => floatText ff x
  | _, .str s => stringText s
  | depth, .arr items => bracketText lay depth '[' ']' (renderItems (depth + 1) items)
  | depth, .obj fields => bracketText lay depth '\x7b' '\x7d' (renderFields (depth + 1) fields)

def renderItems : ℕ → List (JsonValue F) → List (List Char)
  | _, [] => []
  | depth, v :: vs => render depth v :: renderItems depth vs

def renderFields : ℕ → List (Str × JsonValue F) → List (List Char)
  | _, [] => []
  | depth, field :: fields => renderField depth field :: renderFields depth fields

def renderField : ℕ → Str × JsonValue F → List Char
  | depth, (key, v) => stringText key ++ (':' :: ' ' :: render depth v)

end

/-- **The text of a value.** -/
def dumps (v : JsonValue F) : List Char := render ff lay 0 v

/-! ### Strings come back -/

theorem hexValue_hexDigit {d : ℕ} (hd : d < 16) : hexValue (hexDigit d) = some d := by
  interval_cases d <;> rfl

theorem scanPieces_hex4 {u : ℕ} (hu : u < 0x10000) (cs : List Char) :
    scanPieces ('\\' :: 'u' :: (hex4 u ++ cs)) =
      (scanPieces cs).map fun r => (.unit u :: r.1, r.2) := by
  have hval : u / 0x1000 % 16 * 0x1000 + u / 0x100 % 16 * 0x100 + u / 0x10 % 16 * 0x10 + u % 16 =
      u := by omega
  rw [hex4]
  simp only [List.cons_append, List.nil_append]
  rw [scanPieces_unit (hexValue_hexDigit (Nat.mod_lt _ (by decide)))
    (hexValue_hexDigit (Nat.mod_lt _ (by decide))) (hexValue_hexDigit (Nat.mod_lt _ (by decide)))
    (hexValue_hexDigit (Nat.mod_lt _ (by decide))), hval]

/-- A piece that a writer uses: a plain character, one that has a letter, or a code unit. -/
def StringPiece.Written : StringPiece → Prop
  | .char c => isPlain c ∨ escapeLetter c ≠ none
  | .unit u => u < 0x10000

theorem scanPieces_text {p : StringPiece} (hp : p.Written) (cs : List Char) :
    scanPieces (p.text ++ cs) = (scanPieces cs).map fun r => (p :: r.1, r.2) := by
  cases p with
  | unit u => exact scanPieces_hex4 hp cs
  | char c =>
    rw [StringPiece.text]
    cases he : escapeLetter c with
    | none =>
      obtain ⟨hlow, -, hslash, hquote⟩ : isPlain c := hp.resolve_right (by simp [he])
      exact scanPieces_char hquote hslash (by omega) cs
    | some e =>
      have hescape : e ≠ 'u' ∧ simpleEscape e = some c := by
        rw [escapeLetter] at he
        split_ifs at he with h₁ h₂ h₃ h₄ h₅ h₆ h₇
        all_goals
          obtain rfl := Option.some.inj he
          subst_vars
          decide
      exact scanPieces_escape hescape.1 hescape.2 cs

theorem scanPieces_texts {ps : List StringPiece} (hps : ∀ p ∈ ps, p.Written) (cs : List Char) :
    scanPieces (ps.flatMap StringPiece.text ++ '"' :: cs) = some (ps, cs) := by
  induction ps with
  | nil => exact scanPieces_quote cs
  | cons p ps ih =>
    rw [List.flatMap_cons, List.append_assoc, scanPieces_text (hps p List.mem_cons_self),
      ih fun q hq => hps q (List.mem_cons_of_mem _ hq), Option.map_some]

theorem ofUnit_high (bits : Fin 1024) : CodePoint.ofUnit (0xD800 + bits) = .high bits := by
  have hlt : 0xD800 ≤ 0xD800 + (bits : ℕ) ∧ 0xD800 + (bits : ℕ) < 0xDC00 := by omega
  rw [CodePoint.ofUnit, if_pos hlt, Nat.add_sub_cancel_left]
  congr 1
  exact Fin.ext (Nat.mod_eq_of_lt bits.isLt)

theorem ofUnit_low (bits : Fin 1024) : CodePoint.ofUnit (0xDC00 + bits) = .low bits := by
  have hhigh : ¬(0xD800 ≤ 0xDC00 + (bits : ℕ) ∧ 0xDC00 + (bits : ℕ) < 0xDC00) := by omega
  have hlow : 0xDC00 ≤ 0xDC00 + (bits : ℕ) ∧ 0xDC00 + (bits : ℕ) < 0xE000 := by omega
  rw [CodePoint.ofUnit, if_neg hhigh, if_pos hlow, Nat.add_sub_cancel_left]
  congr 1
  exact Fin.ext (Nat.mod_eq_of_lt bits.isLt)

theorem toNat_bounds (c : Char) :
    c.toNat < 0xD800 ∨ 0xDFFF < c.toNat ∧ c.toNat < 0x110000 := c.valid

theorem ofUnit_toNat (c : Char) : CodePoint.ofUnit c.toNat = .scalar c := by
  have hbounds := toNat_bounds c
  have hhigh : ¬(0xD800 ≤ c.toNat ∧ c.toNat < 0xDC00) := by omega
  have hlow : ¬(0xDC00 ≤ c.toNat ∧ c.toNat < 0xE000) := by omega
  rw [CodePoint.ofUnit, if_neg hhigh, if_neg hlow, Char.ofNat_toNat]

/-- A unit that is not the first half of a pair stands for itself. -/
theorem joinPieces_unit {u : ℕ} {ps : List StringPiece}
    (h : ∀ hi, CodePoint.ofUnit u = .high hi → ∀ u' ps', ps = .unit u' :: ps' →
      ∀ lo, CodePoint.ofUnit u' ≠ .low lo) :
    joinPieces (.unit u :: ps) = CodePoint.ofUnit u :: joinPieces ps := by
  cases ps with
  | nil => rfl
  | cons p ps =>
    cases p with
    | char c => rfl
    | unit u' =>
      rw [joinPieces]
      split
      · next hi lo hhi hlo => exact absurd hlo (h hi hhi u' ps rfl lo)
      · rfl

theorem joinPieces_pair {hi lo : Fin 1024} {u u' : ℕ} (hhi : CodePoint.ofUnit u = .high hi)
    (hlo : CodePoint.ofUnit u' = .low lo) (ps : List StringPiece) :
    joinPieces (.unit u :: .unit u' :: ps) = .scalar (joinSurrogates hi lo) :: joinPieces ps := by
  rw [joinPieces, hhi, hlo]

/-- A character outside the basic plane is what its two units make. -/
theorem joinPieces_codeUnits (c : Char) (ps : List StringPiece) :
    joinPieces ((codeUnits c).map .unit ++ ps) = .scalar c :: joinPieces ps := by
  rw [codeUnits]
  split_ifs with hbasic
  · have hunit := ofUnit_toNat c
    refine (joinPieces_unit fun hi hhi => ?_).trans (by rw [hunit]; rfl)
    rw [hunit] at hhi
    cases hhi
  · obtain ⟨hi, hhi⟩ : ∃ hi : Fin 1024, (hi : ℕ) = (c.toNat - 0x10000) / 1024 := by
      have hbounds := toNat_bounds c
      exact ⟨⟨(c.toNat - 0x10000) / 1024, by omega⟩, rfl⟩
    obtain ⟨lo, hlo⟩ : ∃ lo : Fin 1024, (lo : ℕ) = (c.toNat - 0x10000) % 1024 :=
      ⟨⟨(c.toNat - 0x10000) % 1024, by omega⟩, rfl⟩
    rw [← hhi, ← hlo]
    refine (joinPieces_pair (ofUnit_high hi) (ofUnit_low lo) ps).trans ?_
    have hjoin : 0x10000 + (hi : ℕ) * 1024 + lo = c.toNat := by omega
    rw [joinSurrogates, hjoin, Char.ofNat_toNat]

/-- What is not a second half does not begin with one. -/
theorem ofUnit_ne_low_of_pieces {q : CodePoint} (hq : ∀ lo, q ≠ .low lo) {u : ℕ}
    {ps ps' : List StringPiece} (h : q.pieces ++ ps = .unit u :: ps') (lo : Fin 1024) :
    CodePoint.ofUnit u ≠ .low lo := by
  cases q with
  | low bits => exact absurd rfl (hq bits)
  | high bits =>
    obtain ⟨hu, -⟩ := List.cons.inj h
    obtain rfl := StringPiece.unit.inj hu
    rw [ofUnit_high]
    rintro ⟨⟩
  | scalar c =>
    rw [CodePoint.pieces, codeUnits] at h
    have hbounds := toNat_bounds c
    split_ifs at h with hplain hbasic
    · cases h
    · obtain ⟨hu, -⟩ := List.cons.inj h
      obtain rfl := StringPiece.unit.inj hu
      rw [ofUnit_toNat]
      rintro ⟨⟩
    · obtain ⟨hu, -⟩ := List.cons.inj h
      obtain rfl := StringPiece.unit.inj hu
      rw [CodePoint.ofUnit, if_pos (by omega)]
      rintro ⟨⟩

/-- A string with every pair of surrogates joined, from left to right. -/
def Str.joined : Str → Str
  | .high hi :: .low lo :: s => .scalar (joinSurrogates hi lo) :: Str.joined s
  | p :: s => p :: Str.joined s
  | [] => []

/-- Two code points are no pair. -/
def NotPair (p q : CodePoint) : Prop := ∀ hi lo, p = .high hi → q ≠ .low lo

theorem Str.joined_pair (hi lo : Fin 1024) (s : Str) :
    Str.joined (.high hi :: .low lo :: s) = .scalar (joinSurrogates hi lo) :: s.joined := by
  rw [Str.joined]

theorem Str.joined_cons {p : CodePoint} {s : Str} (h : ∀ q, s.head? = some q → NotPair p q) :
    Str.joined (p :: s) = p :: s.joined := by
  rw [Str.joined.eq_def]
  split
  · next hi lo s' heq =>
    obtain ⟨rfl, rfl⟩ := List.cons.inj heq
    exact absurd rfl (h (.low lo) rfl hi lo rfl)
  · next p' s' _ heq =>
    obtain ⟨rfl, rfl⟩ := List.cons.inj heq
    rfl
  · next heq => cases heq

/-- A string begins with a pair, or its first code point is not the first half of one. -/
theorem Str.pair_or_not (p : CodePoint) (s : Str) :
    (∃ hi lo s', p = .high hi ∧ s = .low lo :: s') ∨ ∀ q, s.head? = some q → NotPair p q := by
  cases s with
  | nil => exact Or.inr fun q hq => by cases hq
  | cons q s =>
    by_cases hpair : NotPair p q
    · refine Or.inr fun q' hq' => ?_
      obtain rfl := Option.some.inj hq'
      exact hpair
    · simp only [NotPair, not_forall, ne_eq, not_not] at hpair
      obtain ⟨hi, lo, rfl, rfl⟩ := hpair
      exact Or.inl ⟨hi, lo, s, rfl, rfl⟩

/-- **Induction over a string**, pair by pair. -/
theorem Str.pairs_induction {motive : Str → Prop} (nil : motive [])
    (pair : ∀ hi lo s, motive s → motive (.high hi :: .low lo :: s))
    (cons : ∀ p s, (∀ q, s.head? = some q → NotPair p q) → motive s → motive (p :: s)) (s : Str) :
    motive s := by
  induction hlength : s.length using Nat.strong_induction_on generalizing s with
  | _ n ih =>
    cases s with
    | nil => exact nil
    | cons p s =>
      rw [List.length_cons] at hlength
      rcases Str.pair_or_not p s with ⟨hi, lo, s', rfl, rfl⟩ | hnot
      · rw [List.length_cons] at hlength
        exact pair hi lo s' (ih s'.length (by omega) s' rfl)
      · exact cons p s hnot (ih s.length (by omega) s rfl)

theorem Str.apart_cons_iff {p : CodePoint} {s : Str} :
    Str.Apart (p :: s) ↔ (∀ q, s.head? = some q → NotPair p q) ∧ s.Apart :=
  List.isChain_cons

theorem joinPieces_pieces {p : CodePoint} {s : Str} (h : ∀ q, s.head? = some q → NotPair p q) :
    joinPieces (p.pieces ++ s.flatMap CodePoint.pieces) =
      p :: joinPieces (s.flatMap CodePoint.pieces) := by
  cases p with
  | scalar c =>
    rw [CodePoint.pieces]
    split_ifs with hplain
    · rfl
    · exact joinPieces_codeUnits c _
  | low bits =>
    refine (joinPieces_unit fun hi hhi => ?_).trans (by rw [ofUnit_low]; rfl)
    rw [ofUnit_low] at hhi
    cases hhi
  | high bits =>
    refine (joinPieces_unit fun hi _ u' ps' hps lo => ?_).trans (by rw [ofUnit_high]; rfl)
    cases s with
    | nil => cases hps
    | cons q s => exact ofUnit_ne_low_of_pieces (fun lo => h q rfl bits lo rfl) hps lo

/-- The pieces of a string make the string with its pairs joined. -/
theorem joinPieces_flatMap (s : Str) : joinPieces (s.flatMap CodePoint.pieces) = s.joined := by
  induction s using Str.pairs_induction with
  | nil => rfl
  | pair hi lo s ih =>
    rw [Str.joined_pair, ← ih]
    exact joinPieces_pair (ofUnit_high hi) (ofUnit_low lo) _
  | cons p s hnot ih => rw [List.flatMap_cons, joinPieces_pieces hnot, ih, Str.joined_cons hnot]

/-- A string with its pairs joined has no pair. -/
theorem Str.apart_joined (s : Str) : s.joined.Apart := by
  have hhead : ∀ {p : CodePoint} {s : Str}, (∀ q, s.head? = some q → NotPair p q) →
      ∀ q, s.joined.head? = some q → NotPair p q := by
    intro p s h q hq
    cases s with
    | nil => cases hq
    | cons p' s =>
      rcases Str.pair_or_not p' s with ⟨hi, lo, s', rfl, rfl⟩ | hnot
      · rw [Str.joined_pair] at hq
        obtain rfl := Option.some.inj hq
        rintro hi' lo' - ⟨⟩
      · rw [Str.joined_cons hnot] at hq
        exact h q hq
  induction s using Str.pairs_induction with
  | nil => exact List.IsChain.nil
  | pair hi lo s ih =>
    rw [Str.joined_pair, Str.apart_cons_iff]
    refine ⟨fun q _ => ?_, ih⟩
    rintro hi' lo' ⟨⟩
  | cons p s hnot ih =>
    rw [Str.joined_cons hnot, Str.apart_cons_iff]
    exact ⟨hhead hnot, ih⟩

/-- **Joining changes a string that has a pair**, and no other. -/
theorem Str.joined_eq_self_iff (s : Str) : s.joined = s ↔ s.Apart := by
  constructor
  · intro h
    exact h ▸ Str.apart_joined s
  · intro h
    induction s with
    | nil => rfl
    | cons p s ih =>
      obtain ⟨hnot, hs⟩ := Str.apart_cons_iff.mp h
      rw [Str.joined_cons hnot, ih hs]

theorem toNat_joinSurrogates (hi lo : Fin 1024) :
    (joinSurrogates hi lo).toNat = 0x10000 + hi * 1024 + lo := by
  have hvalid : (0x10000 + (hi : ℕ) * 1024 + lo).isValidChar := by
    right
    omega
  rw [joinSurrogates, Char.toNat_ofNat, if_pos hvalid]

theorem pieces_joinSurrogates (hi lo : Fin 1024) :
    CodePoint.pieces (.scalar (joinSurrogates hi lo)) =
      [.unit (0xD800 + hi), .unit (0xDC00 + lo)] := by
  have hvalue := toNat_joinSurrogates hi lo
  generalize joinSurrogates hi lo = c at hvalue
  have hne : ∀ c' : Char, c'.toNat < 128 → c ≠ c' := by
    rintro c' hlt rfl
    omega
  have hescape : escapeLetter c = none := by
    rw [escapeLetter, if_neg (hne '\\' (by decide)), if_neg (hne '"' (by decide)),
      if_neg (hne '\x08' (by decide)), if_neg (hne '\x0c' (by decide)),
      if_neg (hne '\n' (by decide)), if_neg (hne '\r' (by decide)), if_neg (hne '\t' (by decide))]
  have hplain : ¬(isPlain c ∨ escapeLetter c ≠ none) := by
    rintro (⟨-, hlt, -⟩ | hne)
    · omega
    · exact hne hescape
  have hbasic : ¬c.toNat < 0x10000 := by omega
  have hhi : (c.toNat - 0x10000) / 1024 = hi := by omega
  have hlo : (c.toNat - 0x10000) % 1024 = lo := by omega
  rw [CodePoint.pieces, if_neg hplain, codeUnits, if_neg hbasic, hhi, hlo]
  rfl

/-- The text of a string does not tell a pair from the character that it makes. -/
theorem stringText_joined (s : Str) : stringText s.joined = stringText s := by
  have hpieces : s.joined.flatMap CodePoint.pieces = s.flatMap CodePoint.pieces := by
    induction s using Str.pairs_induction with
    | nil => rfl
    | pair hi lo s ih =>
      rw [Str.joined_pair, List.flatMap_cons, pieces_joinSurrogates, ih]
      rfl
    | cons p s hnot ih => rw [Str.joined_cons hnot, List.flatMap_cons, List.flatMap_cons, ih]
  rw [stringText, stringText, hpieces]

theorem written_of_mem_pieces {q : CodePoint} {p : StringPiece} (hp : p ∈ q.pieces) :
    p.Written := by
  cases q with
  | low bits =>
    obtain rfl := List.mem_singleton.mp hp
    show 0xDC00 + (bits : ℕ) < 0x10000
    omega
  | high bits =>
    obtain rfl := List.mem_singleton.mp hp
    show 0xD800 + (bits : ℕ) < 0x10000
    omega
  | scalar c =>
    have hbounds := toNat_bounds c
    rw [CodePoint.pieces] at hp
    split_ifs at hp with hplain
    · obtain rfl := List.mem_singleton.mp hp
      exact hplain
    · obtain ⟨u, hu, rfl⟩ := List.mem_map.mp hp
      show u < 0x10000
      rw [codeUnits] at hu
      split_ifs at hu with hbasic
      · obtain rfl := List.mem_singleton.mp hu
        exact hbasic
      · have hle : u ≤ 0xDFFF := by
          rcases List.mem_cons.mp hu with hu | hu
          · rw [hu]
            omega
          · rw [List.mem_singleton.mp hu]
            omega
        omega

/-- **A string comes back.** -/
theorem scanString_stringText (s : Str) (cs : List Char) :
    ∃ body, stringText s = '"' :: body ∧ scanString (body ++ cs) = some (s.joined, cs) := by
  refine ⟨_, rfl, ?_⟩
  have hwritten : ∀ p ∈ s.flatMap CodePoint.pieces, p.Written := by
    intro p hp
    obtain ⟨q, -, hp⟩ := List.mem_flatMap.mp hp
    exact written_of_mem_pieces hp
  rw [List.append_assoc, List.singleton_append, scanString, scanPieces_texts hwritten,
    Option.map_some, joinPieces_flatMap]

/-! ### Numbers come back -/

/-- The first digit of a positive number is not zero. -/
theorem exists_toDigits {n : ℕ} (hn : 0 < n) :
    ∃ c ds, Nat.toDigits 10 n = c :: ds ∧ c ≠ '0' ∧ c.isDigit = true := by
  induction n using Nat.strong_induction_on with
  | _ n ih =>
    rw [Nat.toDigits_eq_if (by decide)]
    split_ifs with hlt
    · refine ⟨n.digitChar, [], rfl, ?_⟩
      interval_cases n <;> decide
    · obtain ⟨c, ds, hds, hc⟩ := ih (n / 10) (by omega) (by omega)
      exact ⟨c, ds ++ [(n % 10).digitChar], by rw [hds]; rfl, hc⟩

theorem wellFormed_intNumeral (n : ℤ) : (intNumeral n).WellFormed := by
  refine ⟨?_, Or.inl rfl, Or.inl rfl⟩
  show Nat.toDigits 10 n.natAbs = ['0'] ∨ _
  rcases Nat.eq_zero_or_pos n.natAbs with hzero | hpos
  · exact Or.inl (by rw [hzero]; rfl)
  · obtain ⟨c, ds, hds, hc, hdigit⟩ := exists_toDigits hpos
    refine Or.inr ⟨c, ds, hds, hc, hdigit, fun d hd => ?_⟩
    have hmem : d ∈ Nat.toDigits 10 n.natAbs := hds ▸ List.mem_cons_of_mem c hd
    exact Nat.isDigit_of_mem_toDigits (b := 10) (by decide) (by decide) hmem

theorem value_intNumeral (n : ℤ) : (intNumeral n).value ff = .int n := by
  have hdigits : (Nat.ofDigitChars 10 (Nat.toDigits 10 n.natAbs) 0) = n.natAbs := by
    rw [Nat.ofDigitChars_ten_toDigits]
  rw [Numeral.value, if_pos ⟨rfl, rfl⟩]
  simp only [intNumeral, hdigits, decide_eq_true_eq]
  split_ifs with hneg <;> congr 1 <;> omega

/-! ### Containers come back -/

/-- A text that can stand for an item: it begins with a character of ASCII that is neither white
space nor a closing bracket. -/
def Opens (t : List Char) : Prop :=
  ∃ c cs, t = c :: cs ∧ isJsonSpace c = false ∧ ¬IsCloser c ∧ c.toNat < 128

theorem Opens.noSpace {t : List Char} (h : Opens t) (rest : List Char) : NoSpace (t ++ rest) := by
  obtain ⟨c, cs, rfl, hspace, -⟩ := h
  intro c' hc'
  obtain rfl : c = c' := Option.some.inj hc'
  exact hspace

section Containers

variable {α : Type} {item : List Char → Option (α × List Char)} {close : Char}

/-- A text denotes an item, whatever comes after it that no number could go on with. -/
structure Reads (item : List Char → Option (α × List Char)) (t : List Char) (a : α) : Prop where
  opens : Opens t
  reads : ∀ rest, NumberEnd rest → item (t ++ rest) = some (a, rest)

theorem numberEnd_restText (hclose : IsCloser close) (depth depth' : ℕ) (ts : List (List Char))
    (rest : List Char) :
    NumberEnd (restText lay depth ts ++ (lay.line depth' ++ close :: rest)) := by
  cases ts with
  | nil => exact numberEnd_append_cons (lay.line_space depth') hclose.notNumber
  | cons t ts =>
    intro c hc
    obtain rfl : ',' = c := Option.some.inj hc
    decide

theorem length_le_restText (depth : ℕ) (ts : List (List Char)) :
    ts.length ≤ (restText lay depth ts).length := by
  induction ts with
  | nil => exact Nat.zero_le _
  | cons t ts ih =>
    simp only [restText, List.length_cons, List.length_append]
    omega

theorem scanSeq_restText (hclose : IsCloser close) (depth depth' : ℕ) {t : List Char} {a : α}
    {ts : List (List Char)} {as : List α} (ht : Reads item t a)
    (hts : List.Forall₂ (Reads item) ts as) (rest : List Char) {n : ℕ} (hn : ts.length < n) :
    scanSeq item close n (t ++ (restText lay depth ts ++ (lay.line depth' ++ close :: rest))) =
      some (a :: as, rest) := by
  induction hts generalizing t a n with
  | nil =>
    obtain ⟨n, rfl⟩ : ∃ n', n = n' + 1 := Nat.exists_eq_succ_of_ne_zero (by omega)
    rw [scanSeq, ht.reads _ (numberEnd_restText lay hclose depth depth' [] rest)]
    simp only [restText, List.nil_append, scanDelimiter_close hclose (lay.line_space depth') rest]
  | @cons t' a' ts as ht' hts ih =>
    rw [List.length_cons] at hn
    obtain ⟨n, rfl⟩ : ∃ n', n = n' + 1 := Nat.exists_eq_succ_of_ne_zero (by omega)
    rw [scanSeq, ht.reads _ (numberEnd_restText lay hclose depth depth' (t' :: ts) rest)]
    have hdelim : scanDelimiter close
        (restText lay depth (t' :: ts) ++ (lay.line depth' ++ close :: rest)) =
        some (true, t' ++ (restText lay depth ts ++ (lay.line depth' ++ close :: rest))) := by
      have hnone : ∀ c ∈ ([] : List Char), isJsonSpace c = true := by simp
      have hcomma := scanDelimiter_comma hclose hnone (lay.gap_space depth)
        (ht'.opens.noSpace (restText lay depth ts ++ (lay.line depth' ++ close :: rest)))
      simpa only [restText, List.cons_append, List.append_assoc, List.nil_append] using hcomma
    have hlt : ts.length < n := by omega
    simp only [hdelim, ih ht' hlt, Option.map_some]

/-- **The items of a container come back.** -/
theorem scanItems_bracketText (hclose : IsCloser close) (depth : ℕ) (opening : Char)
    {ts : List (List Char)} {as : List α} (hts : List.Forall₂ (Reads item) ts as)
    (rest : List Char) :
    ∃ body, bracketText lay depth opening close ts = opening :: body ∧
      scanItems item close (body ++ rest) = some (as, rest) := by
  refine ⟨(bracketText lay depth opening close ts).tail, ?_, ?_⟩
  · cases ts <;> rfl
  · cases hts with
    | nil =>
      have hnone : ∀ c ∈ ([] : List Char), isJsonSpace c = true := by simp
      have hspace : skipSpace (close :: rest) = close :: rest :=
        skipSpace_append hnone (hclose.noSpace rest)
      show scanItems item close (close :: rest) = _
      rw [scanItems, hspace]
      exact if_pos rfl
    | @cons t a ts as ht hts =>
      obtain ⟨c, cs, rfl, -, hopen, -⟩ := id ht.opens
      have hne : c ≠ close := fun h => hopen (h ▸ hclose)
      have hbody : (bracketText lay depth opening close ((c :: cs) :: ts)).tail ++ rest =
          lay.line (depth + 1) ++ ((c :: cs) ++ (restText lay (depth + 1) ts ++
            (lay.line depth ++ close :: rest))) := by
        simp only [bracketText, List.tail_cons, List.append_assoc, List.cons_append,
          List.nil_append]
      have hfuel : ts.length < (lay.line (depth + 1) ++ ((c :: cs) ++
          (restText lay (depth + 1) ts ++ (lay.line depth ++ close :: rest)))).length + 1 := by
        have hlength := length_le_restText lay (depth + 1) ts
        simp only [List.length_append]
        omega
      have hseq := scanSeq_restText lay hclose (depth + 1) depth ht hts rest hfuel
      rw [hbody, scanItems, skipSpace_append (lay.line_space (depth + 1)) (ht.opens.noSpace _)]
      exact (if_neg hne).trans hseq

theorem length_lt_bracketText (depth : ℕ) (opening close : Char) {t : List Char}
    {ts : List (List Char)} (ht : t ∈ ts) :
    t.length < (bracketText lay depth opening close ts).length := by
  have hrest : ∀ {ts : List (List Char)}, t ∈ ts →
      t.length ≤ (restText lay (depth + 1) ts).length := by
    intro ts hmem
    induction ts with
    | nil => cases hmem
    | cons t' ts ih =>
      simp only [restText, List.length_cons, List.length_append]
      rcases List.mem_cons.mp hmem with rfl | hmem
      · omega
      · have hle := ih hmem
        omega
  cases ts with
  | nil => cases ht
  | cons t' ts =>
    simp only [bracketText, List.length_cons, List.length_append]
    rcases List.mem_cons.mp ht with rfl | ht
    · omega
    · have hle := hrest ht
      omega

end Containers

/-! ### Values come back -/

theorem renderItems_eq_map (depth : ℕ) (items : List (JsonValue F)) :
    renderItems ff lay depth items = items.map (render ff lay depth) := by
  induction items with
  | nil => rfl
  | cons v items ih => rw [renderItems, ih, List.map_cons]

theorem renderFields_eq_map (depth : ℕ) (fields : List (Str × JsonValue F)) :
    renderFields ff lay depth fields = fields.map (renderField ff lay depth) := by
  induction fields with
  | nil => rfl
  | cons field fields ih => rw [renderFields, ih, List.map_cons]

theorem opens_text {n : Numeral} (hn : n.WellFormed) : Opens n.text := by
  obtain ⟨d, ds, hd, htext⟩ := hn.head
  have hcloser : ¬IsCloser d ∧ d.toNat < 128 := by
    have hrange : 48 ≤ d.toNat ∧ d.toNat ≤ 57 := Char.isDigit_iff_toNat.mp hd
    refine ⟨?_, by omega⟩
    rintro (rfl | rfl)
    · exact absurd hrange (by decide)
    · exact absurd hrange (by decide)
  rw [htext]
  cases n.negative with
  | true =>
    exact ⟨'-', d :: ds, rfl, by decide, by decide, by decide⟩
  | false =>
    exact ⟨d, ds, rfl, (isDigit_noOpener (Or.inl hd)).2.2.2, hcloser⟩

theorem opens_floatText (x : PyFloat F) : Opens (floatText ff x) := by
  cases x with
  | finite x => exact opens_text (ff.wellFormed x)
  | infinity negative => cases negative <;> exact ⟨_, _, rfl, by decide, by decide, by decide⟩
  | nan => exact ⟨_, _, rfl, by decide, by decide, by decide⟩

theorem opens_bracketText (depth : ℕ) {opening : Char} (close : Char) (ts : List (List Char))
    (hopening : isJsonSpace opening = false ∧ ¬IsCloser opening ∧ opening.toNat < 128) :
    Opens (bracketText lay depth opening close ts) := by
  cases ts <;> exact ⟨opening, _, rfl, hopening⟩

theorem opens_stringText (s : Str) : Opens (stringText s) :=
  ⟨'"', _, rfl, by decide, by decide, by decide⟩

/-- The text of a value can stand for an item. -/
theorem opens_render (depth : ℕ) (v : JsonValue F) : Opens (render ff lay depth v) := by
  cases v with
  | null => exact ⟨_, _, rfl, by decide, by decide, by decide⟩
  | bool b => cases b <;> exact ⟨_, _, rfl, by decide, by decide, by decide⟩
  | int n => exact opens_text (wellFormed_intNumeral n)
  | float x => exact opens_floatText ff x
  | str s => exact opens_stringText s
  | arr items =>
    rw [render]
    exact opens_bracketText lay depth _ _ (by decide)
  | obj fields =>
    rw [render]
    exact opens_bracketText lay depth _ _ (by decide)

/-- A keyword, whatever comes after it. -/
theorem scanValue_keyword {kw : List Char × JsonValue F} (hkw : kw ∈ keywords) (n : ℕ)
    (rest : List Char) : scanValue ff (n + 1) (kw.1 ++ rest) = some (kw.2, rest) := by
  rw [scanValue_scalar ff (noOpener_keyword hkw).1 (noOpener_keyword hkw).2, scanScalar,
    scanKeyword_keyword hkw]

theorem scanValue_text {t : Numeral} (ht : t.WellFormed) (n : ℕ) {rest : List Char}
    (hrest : NumberEnd rest) :
    scanValue ff (n + 1) (t.text ++ rest) = some (t.value ff, rest) := by
  rw [scanValue_scalar ff ht.noOpener.1 ht.noOpener.2, scanScalar_text ff ht hrest]

/-- A finite float is the value of its numeral. -/
theorem value_numeral (x : F) : (ff.numeral x).value ff = .float (.finite x) := by
  have hfloat : ¬((ff.numeral x).frac = [] ∧ (ff.numeral x).exp = []) := by
    rintro ⟨hfrac, hexp⟩
    exact (ff.isFloat x).elim (fun h => h hfrac) (fun h => h hexp)
  rw [Numeral.value, if_neg hfloat, ff.parse_text]

theorem scanValue_floatText (x : PyFloat F) (n : ℕ) {rest : List Char} (hrest : NumberEnd rest) :
    scanValue ff (n + 1) (floatText ff x ++ rest) = some (.float x, rest) := by
  cases x with
  | finite x =>
    show scanValue ff (n + 1) ((ff.numeral x).text ++ rest) = _
    rw [scanValue_text ff (ff.wellFormed x) n hrest, value_numeral]
  | infinity negative =>
    cases negative with
    | false =>
      have hkw : (("Infinity".toList, .float (.infinity false)) : List Char × JsonValue F) ∈
          keywords := by simp [keywords]
      exact scanValue_keyword ff hkw n rest
    | true =>
      have hkw : (("-Infinity".toList, .float (.infinity true)) : List Char × JsonValue F) ∈
          keywords := by simp [keywords]
      exact scanValue_keyword ff hkw n rest
  | nan =>
    have hkw : (("NaN".toList, .float .nan) : List Char × JsonValue F) ∈ keywords := by
      simp [keywords]
    exact scanValue_keyword ff hkw n rest

theorem reads_render {depth n : ℕ} {v : JsonValue F}
    (h : ∀ rest, (v.isNumber = true → NumberEnd rest) →
      scanValue ff n (render ff lay depth v ++ rest) = some (v, rest)) :
    Reads (scanValue ff n) (render ff lay depth v) v :=
  ⟨opens_render ff lay depth v, fun rest hrest => h rest fun _ => hrest⟩

/-- The text of a field is that of its key, a colon and a space, and that of its value. -/
theorem reads_renderField {depth n : ℕ} {field : Str × JsonValue F} (hkey : field.1.Apart)
    (h : Reads (scanValue ff n) (render ff lay depth field.2) field.2) :
    Reads (scanField (scanValue ff n)) (renderField ff lay depth field) field := by
  obtain ⟨key, v⟩ := field
  refine ⟨⟨'"', _, rfl, by decide, by decide, by decide⟩, fun rest hrest => ?_⟩
  obtain ⟨body, hbody, hscan⟩ := scanString_stringText key
    (':' :: ' ' :: (render ff lay depth v ++ rest))
  rw [(Str.joined_eq_self_iff key).mpr hkey] at hscan
  have hspaces : ∀ c ∈ [' '], isJsonSpace c = true := by simp [isJsonSpace]
  have hcolon : ∀ cs, skipSpace (':' :: cs) = ':' :: cs := fun cs =>
    List.dropWhile_cons_of_neg (by decide)
  have hskip : skipSpace (' ' :: (render ff lay depth v ++ rest)) =
      render ff lay depth v ++ rest := skipSpace_append hspaces (h.opens.noSpace rest)
  have hfield : renderField ff lay depth (key, v) ++ rest =
      '"' :: (body ++ (':' :: ' ' :: (render ff lay depth v ++ rest))) := by
    rw [renderField, hbody]
    simp
  rw [hfield, scanField, scanKey, if_pos rfl, hscan]
  simp only [hcolon, if_pos, hskip, h.reads rest hrest, Option.map_some]

/-- **The text of a value denotes it**, whatever comes after it – unless it is a number and could
go on. The induction is over what makes the value proper, for all depths and bounds at once. -/
theorem scanValue_render {v : JsonValue F} (hv : v.Proper) : ∀ (depth n : ℕ) (rest : List Char),
    (render ff lay depth v).length ≤ n → (v.isNumber = true → NumberEnd rest) →
      scanValue ff n (render ff lay depth v ++ rest) = some (v, rest) := by
  have hfuel : ∀ {depth n : ℕ} {v : JsonValue F}, (render ff lay depth v).length ≤ n →
      ∃ n', n = n' + 1 := by
    intro depth n v hn
    obtain ⟨c, cs, hcs, -⟩ := opens_render ff lay depth v
    rw [hcs, List.length_cons] at hn
    exact Nat.exists_eq_succ_of_ne_zero (by omega)
  induction hv with
  | null =>
    intro depth n rest hn _
    obtain ⟨n, rfl⟩ := hfuel hn
    have hkw : (("null".toList, .null) : List Char × JsonValue F) ∈ keywords := by simp [keywords]
    exact scanValue_keyword ff hkw n rest
  | bool b =>
    intro depth n rest hn _
    obtain ⟨n, rfl⟩ := hfuel hn
    cases b with
    | false =>
      have hkw : (("false".toList, .bool false) : List Char × JsonValue F) ∈ keywords := by
        simp [keywords]
      exact scanValue_keyword ff hkw n rest
    | true =>
      have hkw : (("true".toList, .bool true) : List Char × JsonValue F) ∈ keywords := by
        simp [keywords]
      exact scanValue_keyword ff hkw n rest
  | int k =>
    intro depth n rest hn hrest
    obtain ⟨n, rfl⟩ := hfuel hn
    rw [render, scanValue_text ff (wellFormed_intNumeral k) n (hrest rfl), value_intNumeral]
  | float x =>
    intro depth n rest hn hrest
    obtain ⟨n, rfl⟩ := hfuel hn
    rw [render, scanValue_floatText ff x n (hrest rfl)]
  | @str s hs =>
    intro depth n rest hn _
    obtain ⟨n, rfl⟩ := hfuel hn
    obtain ⟨body, hbody, hscan⟩ := scanString_stringText s rest
    rw [render, hbody, List.cons_append, scanValue, if_pos rfl, hscan, Option.map_some,
      (Str.joined_eq_self_iff s).mpr hs]
  | @arr items _ ih =>
    intro depth n rest hn _
    obtain ⟨n, rfl⟩ := hfuel hn
    rw [render, renderItems_eq_map] at hn
    have hitems : List.Forall₂ (Reads (scanValue ff n)) (items.map (render ff lay (depth + 1)))
        items := by
      rw [List.forall₂_map_left_iff, List.forall₂_same]
      intro item hitem
      have hlt := length_lt_bracketText lay depth '[' ']'
        (List.mem_map_of_mem (f := render ff lay (depth + 1)) hitem)
      exact reads_render ff lay fun rest hrest => ih item hitem _ n rest (by omega) hrest
    obtain ⟨body, hbody, hscan⟩ := scanItems_bracketText lay (Or.inl rfl) depth '[' hitems rest
    rw [render, renderItems_eq_map, hbody, List.cons_append, scanValue, if_neg (by decide),
      if_pos rfl, hscan, Option.map_some]
  | @obj fields hkeys hapart _ ih =>
    intro depth n rest hn _
    obtain ⟨n, rfl⟩ := hfuel hn
    rw [render, renderFields_eq_map] at hn
    have hfields : List.Forall₂ (Reads (scanField (scanValue ff n)))
        (fields.map (renderField ff lay (depth + 1))) fields := by
      rw [List.forall₂_map_left_iff, List.forall₂_same]
      intro field hfield
      have hlt := length_lt_bracketText lay depth '\x7b' '\x7d'
        (List.mem_map_of_mem (f := renderField ff lay (depth + 1)) hfield)
      have hle : (render ff lay (depth + 1) field.2).length ≤
          (renderField ff lay (depth + 1) field).length := by
        rw [renderField, List.length_append, List.length_cons, List.length_cons]
        omega
      exact reads_renderField ff lay (hapart field hfield) (reads_render ff lay fun rest hrest =>
        ih field hfield _ n rest (by omega) hrest)
    obtain ⟨body, hbody, hscan⟩ :=
      scanItems_bracketText lay (Or.inr rfl) depth '\x7b' hfields rest
    rw [render, renderFields_eq_map, hbody, List.cons_append, scanValue, if_neg (by decide),
      if_neg (by decide), if_pos rfl, hscan, Option.map_some, dictOf_eq_self hkeys]

/-- **Round trip**: the text of a value denotes the value. -/
theorem loads_dumps {v : JsonValue F} (hv : v.Proper) : loads ff (dumps ff lay v) = some v := by
  obtain ⟨c, cs, hcs, hspace, -, hascii⟩ := opens_render ff lay 0 v
  have hmark : c ≠ '\uFEFF' := by
    rintro rfl
    exact absurd hascii (by decide)
  have hskip : skipSpace (c :: cs) = c :: cs := List.dropWhile_cons_of_neg (by simp [hspace])
  have hscan := scanValue_render ff lay hv 0 ((c :: cs).length + 1) []
    (by rw [hcs]; exact Nat.le_succ _) (fun _ c hc => by cases hc)
  rw [List.append_nil, hcs] at hscan
  rw [dumps, hcs, loads, if_neg (by simp [hmark]), hskip, hscan]
  exact if_pos rfl

/-- The text of a list of strings denotes them with every pair joined. -/
theorem loads_dumps_strs (ss : List Str) :
    loads ff (dumps ff lay (.arr (ss.map .str))) =
      some (.arr (ss.map fun s => .str s.joined)) := by
  have hreads : ∀ (n : ℕ) (s : Str),
      Reads (scanValue ff (n + 1)) (render ff lay 1 (.str s)) (.str s.joined) := by
    refine fun n s => ⟨opens_render ff lay 1 (.str s), fun rest _ => ?_⟩
    obtain ⟨body, hbody, hscan⟩ := scanString_stringText s rest
    rw [render, hbody, List.cons_append, scanValue, if_pos rfl, hscan, Option.map_some]
  have hitems : ∀ n : ℕ, List.Forall₂ (Reads (scanValue ff (n + 1)))
      ((ss.map .str).map (render ff lay 1)) (ss.map fun s => .str s.joined) := by
    intro n
    rw [List.map_map, List.forall₂_map_left_iff, List.forall₂_map_right_iff, List.forall₂_same]
    exact fun s _ => hreads n s
  obtain ⟨body, hbody, -⟩ := scanItems_bracketText lay (Or.inl rfl) 0 '[' (hitems 0) []
  obtain ⟨body', hbody', hscan⟩ :=
    scanItems_bracketText lay (Or.inl rfl) 0 '[' (hitems body.length) []
  obtain rfl : body = body' := (List.cons.inj (hbody.symm.trans hbody')).2
  have hdumps : dumps ff lay (.arr (ss.map .str)) = '[' :: body := by
    rw [dumps, render, renderItems_eq_map, hbody]
  have hskip : skipSpace ('[' :: body) = '[' :: body := List.dropWhile_cons_of_neg (by decide)
  rw [List.append_nil] at hscan
  rw [hdumps, loads, if_neg (by simp), hskip, List.length_cons, scanValue, if_neg (by decide),
    if_pos rfl, hscan]
  exact if_pos rfl

end TradingPlatform
