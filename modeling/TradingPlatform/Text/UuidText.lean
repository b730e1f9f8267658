import TradingPlatform.Text.Integer

/-!
# Texts of UUIDs

A UUID is a number of 128 bits, written as 32 hexadecimal digits with hyphens between some of
them. The reader takes other forms too: it drops the words of a URN, braces around the digits, and
hyphens wherever they stand.
-/

namespace TradingPlatform

structure Uuid where
  value : ℕ
  lt : value < 16 ^ 32
  deriving DecidableEq

namespace Uuid

def hex (u : Uuid) : List Char := fixedDigits 16 32 u.value

/-- The source's `str` of a UUID. -/
def text (u : Uuid) : List Char :=
  u.hex.take 8 ++ '-' :: ((u.hex.drop 8).take 4 ++ '-' :: ((u.hex.drop 12).take 4 ++
    '-' :: ((u.hex.drop 16).take 4 ++ '-' :: u.hex.drop 20)))

end Uuid

/-- A text without a word, wherever it stands; so many characters are still to be dropped. -/
def removeWord (word : List Char) : ℕ → List Char → List Char
  | _, [] => []
  | skip + 1, _ :: cs => removeWord word skip cs
  | 0, c :: cs =>
    if word.isPrefixOf (c :: cs) then removeWord word (word.length - 1) cs
    else c :: removeWord word 0 cs

/-- The digits of a UUID in a text. -/
def uuidDigits (cs : List Char) : List Char :=
  (stripBy (fun c => c = '\x7b' || c = '\x7d')
    (removeWord "uuid:".toList 0 (removeWord "urn:".toList 0 cs))).filter (· ≠ '-')

/-- **The UUID that a text denotes.** -/
def uuidOfText (tables : UnicodeTables) (s : Str) : Option Uuid :=
  match s.toText? with
  | none => none
  | some cs =>
    if (uuidDigits cs).length = 32 then
      (intOfText tables 16 ((uuidDigits cs).map .scalar)).bind fun n =>
        if h : 0 ≤ n ∧ n.toNat < 16 ^ 32 then some ⟨n.toNat, h.2⟩ else none
    else none

/-! ### What is written is read back -/

theorem removeWord_of_notMem {w : Char} {ws cs : List Char} (h : w ∉ cs) :
    removeWord (w :: ws) 0 cs = cs := by
  induction cs with
  | nil => rfl
  | cons c cs ih =>
    have hc : w ≠ c := fun heq => h (heq ▸ List.mem_cons_self)
    have hprefix : (w :: ws).isPrefixOf (c :: cs) = false := by
      rw [List.isPrefixOf, beq_false_of_ne hc, Bool.false_and]
    rw [removeWord, hprefix, ih fun hmem => h (List.mem_cons_of_mem _ hmem)]
    rfl

/-- What a hexadecimal digit is not. -/
theorem hexDigit_facts {d : ℕ} (hd : d < 16) : hexDigit d ≠ 'u' ∧ hexDigit d ≠ '-' ∧
    hexDigit d ≠ '\x7b' ∧ hexDigit d ≠ '\x7d' ∧ hexDigit d ≠ 'x' ∧ hexDigit d ≠ 'X' ∧
    hexDigit d ≠ '+' ∧ isIntSpace (hexDigit d) = false ∧ (hexDigit d).toNat < 128 := by
  interval_cases d <;> decide

namespace Uuid

variable (u : Uuid)

theorem exists_of_mem_hex {c : Char} (hc : c ∈ u.hex) : ∃ d, d < 16 ∧ c = hexDigit d :=
  exists_of_mem_fixedDigits (by decide) hc

theorem exists_of_mem_text {c : Char} (hc : c ∈ u.text) :
    c = '-' ∨ ∃ d, d < 16 ∧ c = hexDigit d := by
  have hpart : ∀ {cs : List Char}, cs.IsInfix u.hex → c ∈ cs →
      c = '-' ∨ ∃ d, d < 16 ∧ c = hexDigit d :=
    fun hcs hmem => Or.inr (u.exists_of_mem_hex (hcs.mem hmem))
  have hdrop : ∀ k l, ((u.hex.drop k).take l).IsInfix u.hex := fun k l =>
    (List.take_prefix l _).isInfix.trans (List.drop_suffix k _).isInfix
  rw [text] at hc
  simp only [List.mem_append, List.mem_cons] at hc
  rcases hc with hc | hc | hc | hc | hc | hc | hc | hc | hc
  · exact hpart (List.take_prefix 8 _).isInfix hc
  · exact Or.inl hc
  · exact hpart (hdrop 8 4) hc
  · exact Or.inl hc
  · exact hpart (hdrop 12 4) hc
  · exact Or.inl hc
  · exact hpart (hdrop 16 4) hc
  · exact Or.inl hc
  · exact hpart (List.drop_suffix 20 _).isInfix hc

theorem filter_text : u.text.filter (· ≠ '-') = u.hex := by
  have hself : ∀ {cs : List Char}, cs.IsInfix u.hex → cs.filter (· ≠ '-') = cs := by
    intro cs hcs
    rw [List.filter_eq_self]
    intro c hc
    obtain ⟨d, hd, rfl⟩ := u.exists_of_mem_hex (hcs.mem hc)
    exact decide_eq_true (hexDigit_facts hd).2.1
  have hdrop : ∀ k l, ((u.hex.drop k).take l).IsInfix u.hex := fun k l =>
    (List.take_prefix l _).isInfix.trans (List.drop_suffix k _).isInfix
  have hhyphen : ∀ cs : List Char, ('-' :: cs).filter (· ≠ '-') = cs.filter (· ≠ '-') := fun cs =>
    List.filter_cons_of_neg (by decide)
  rw [text]
  simp only [List.filter_append, hhyphen, hself (hdrop _ _),
    hself (List.take_prefix 8 u.hex).isInfix, hself (List.drop_suffix 20 u.hex).isInfix]
  have hsplit : ∀ k, (u.hex.drop k).take 4 ++ u.hex.drop (k + 4) = u.hex.drop k := by
    intro k
    rw [← List.drop_drop, List.take_append_drop]
  rw [hsplit 16, hsplit 12, hsplit 8, List.take_append_drop]

theorem uuidDigits_text : uuidDigits u.text = u.hex := by
  have hne : ∀ c ∈ u.text, c ≠ 'u' ∧ c ≠ '\x7b' ∧ c ≠ '\x7d' := by
    intro c hc
    rcases u.exists_of_mem_text hc with rfl | ⟨d, hd, rfl⟩
    · decide
    · obtain ⟨hu, -, hopen, hclose, -⟩ := hexDigit_facts hd
      exact ⟨hu, hopen, hclose⟩
  have hmem : 'u' ∉ u.text := fun h => (hne 'u' h).1 rfl
  have hstrip : stripBy (fun c => c = '\x7b' || c = '\x7d') u.text = u.text := by
    refine stripBy_eq_self fun c hc => ?_
    rw [Bool.or_eq_false_iff, decide_eq_false_iff_not, decide_eq_false_iff_not]
    exact (hne c hc).2
  have hurn : removeWord "urn:".toList 0 u.text = u.text := removeWord_of_notMem hmem
  have huuid : removeWord "uuid:".toList 0 u.text = u.text := removeWord_of_notMem hmem
  rw [uuidDigits, hurn, huuid, hstrip, filter_text]

/-- The digits have neither a sign nor a mark in front of them. -/
theorem exists_hex : ∃ a b cs, u.hex = a :: b :: cs ∧ ¬(a = '+' ∨ a = '-') ∧
    ¬(b = 'x' ∨ b = 'X') := by
  have hlength : u.hex.length = 32 := length_fixedDigits 16 32 u.value
  obtain ⟨a, b, cs, hhex⟩ : ∃ a b cs, u.hex = a :: b :: cs := by
    rcases hcs : u.hex with _ | ⟨a, _ | ⟨b, cs⟩⟩
    · rw [hcs] at hlength
      cases hlength
    · rw [hcs] at hlength
      cases hlength
    · exact ⟨a, b, cs, rfl⟩
  obtain ⟨d, hd, rfl⟩ := u.exists_of_mem_hex (by rw [hhex]; exact List.mem_cons_self : a ∈ u.hex)
  obtain ⟨e, he, rfl⟩ := u.exists_of_mem_hex
    (by rw [hhex]; exact List.mem_cons_of_mem _ List.mem_cons_self : b ∈ u.hex)
  obtain ⟨-, hminus, -, -, -, -, hplus, -⟩ := hexDigit_facts hd
  obtain ⟨-, -, -, -, hx, hX, -⟩ := hexDigit_facts he
  exact ⟨_, _, cs, hhex, fun h => h.elim hplus hminus, fun h => h.elim hx hX⟩

theorem intOfText_hex (tables : UnicodeTables) :
    intOfText tables 16 (u.hex.map .scalar) = some (u.value : ℤ) := by
  have hascii : u.hex.map (fun c => (tables.toAscii c).getD '?') = u.hex := by
    refine (List.map_congr_left fun c hc => ?_).trans (List.map_id u.hex)
    obtain ⟨d, hd, rfl⟩ := u.exists_of_mem_hex hc
    obtain ⟨-, -, -, -, -, -, -, -, hlt⟩ := hexDigit_facts hd
    rw [UnicodeTables.toAscii, if_pos hlt, Option.getD_some, id]
  have hstrip : stripBy isIntSpace u.hex = u.hex := by
    refine stripBy_eq_self fun c hc => ?_
    obtain ⟨d, hd, rfl⟩ := u.exists_of_mem_hex hc
    obtain ⟨-, -, -, -, -, -, -, hspace, -⟩ := hexDigit_facts hd
    exact hspace
  have hscan : scanDigits 16 false 0 u.hex = some u.value := by
    have h := scanDigits_fixedDigits (by decide) (by decide) u.lt (by decide) 0 false []
    rw [List.append_nil, Nat.zero_mul, Nat.zero_add] at h
    exact h
  obtain ⟨a, b, cs, hhex, ha, hb⟩ := u.exists_hex
  have hsign : scanSign u.hex = ([], u.hex) := by
    rw [hhex, scanSign, if_neg ha]
  have hmark : dropHexMark u.hex = u.hex := by
    rw [hhex, dropHexMark]
    exact if_neg fun h => hb h.2
  have hminus : ¬([] : List Char) = ['-'] := by decide
  rw [intOfText, Str.toText?_map_scalar]
  simp only [hascii, hstrip, hsign, if_true, hmark, hscan, Option.map_some, if_neg hminus]

/-- **A UUID is read back.** -/
theorem uuidOfText_text (tables : UnicodeTables) :
    uuidOfText tables (u.text.map .scalar) = some u := by
  have hlength : u.hex.length = 32 := length_fixedDigits 16 32 u.value
  rw [uuidOfText, Str.toText?_map_scalar]
  simp only [uuidDigits_text, hlength, if_true, intOfText_hex, Option.bind_some]
  have hvalue : 0 ≤ (u.value : ℤ) ∧ (u.value : ℤ).toNat < 16 ^ 32 := by
    rw [Int.toNat_natCast]
    exact ⟨Int.natCast_nonneg _, u.lt⟩
  exact dif_pos hvalue

end Uuid

end TradingPlatform
