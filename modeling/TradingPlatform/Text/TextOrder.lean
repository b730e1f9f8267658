import TradingPlatform.Json.Value
import TradingPlatform.Text.DateTimeText

/-!
# The order of texts

Two texts are compared code point by code point, and a text comes before what it is continued to.
Numbers that are written with the same width compare as they do as numbers, so the texts of two
dates compare as the dates do (`TradingPlatform.CivilDate.text_lt_text_iff`), and the text of no
date comes before all of them.
-/

namespace TradingPlatform

/-- The number of a code point. -/
def CodePoint.value : CodePoint → ℕ
  | .scalar c => c.toNat
  | .high bits => 0xD800 + bits
  | .low bits => 0xDC00 + bits

/-- What texts are compared by. -/
def Str.points (s : Str) : List ℕ := s.map CodePoint.value

/-- What differs in front decides. -/
theorem append_lt_append {κ : Type*} [LinearOrder κ] {l l' : List κ} (hlen : l.length = l'.length)
    (h : l < l') (m m' : List κ) : l ++ m < l' ++ m' := by
  induction l generalizing l' with
  | nil =>
    obtain rfl := List.length_eq_zero_iff.mp hlen.symm
    exact absurd h (lt_irrefl _)
  | cons a l ih =>
    rcases l' with _ | ⟨a', l'⟩
    · cases hlen
    rw [List.cons_append, List.cons_append, List.cons_lt_cons_iff]
    rcases List.cons_lt_cons_iff.mp h with hlt | ⟨rfl, hlt⟩
    · exact .inl hlt
    · exact .inr ⟨rfl, ih (Nat.succ.inj hlen) hlt⟩

/-- The characters of a text, as numbers. -/
def charPoints (cs : List Char) : List ℕ := cs.map Char.toNat

theorem charPoints_append (cs cs' : List Char) :
    charPoints (cs ++ cs') = charPoints cs ++ charPoints cs' := List.map_append

theorem toNat_hexDigit_lt {d d' : ℕ} (hd' : d' < 10) (h : d < d') :
    (hexDigit d).toNat < (hexDigit d').toNat := by
  interval_cases d' <;> interval_cases d <;> decide

/-- **Numbers of one width** compare as their texts do. -/
theorem fixedDigits_lt {width n n' : ℕ} (hn' : n' < 10 ^ width) (h : n < n') :
    charPoints (fixedDigits 10 width n) < charPoints (fixedDigits 10 width n') := by
  induction width generalizing n n' with
  | zero => omega
  | succ width ih =>
    rw [fixedDigits, fixedDigits, charPoints_append, charPoints_append]
    have hlast : n' % 10 < 10 := Nat.mod_lt _ (by omega)
    rcases lt_or_ge (n / 10) (n' / 10) with hlt | hge
    · refine append_lt_append (by simp [charPoints]) (ih ?_ hlt) _ _
      rw [pow_succ] at hn'
      omega
    · -- the numbers differ in the last digit
      have heq : n / 10 = n' / 10 := by omega
      rw [heq]
      refine List.append_left_lt ?_
      exact List.cons_lt_cons_iff.mpr (.inl (toNat_hexDigit_lt hlast (by omega)))

/-- The text of a year, a month and a day, whether or not there is such a date. -/
def dateText (year month day : ℕ) : List Char :=
  fixedDigits 10 4 year ++ '-' :: (fixedDigits 10 2 month ++ '-' :: fixedDigits 10 2 day)

theorem CivilDate.text_eq (d : CivilDate) : d.text = dateText d.year d.month d.day := rfl

section DateText

variable {year year' month month' day day' : ℕ}

theorem dateText_lt_of_year_lt (hyear' : year' < 10000) (h : year < year') :
    charPoints (dateText year month day) < charPoints (dateText year' month' day') := by
  rw [dateText, dateText, charPoints_append, charPoints_append]
  exact append_lt_append (by simp [charPoints]) (fixedDigits_lt hyear' h) _ _

theorem dateText_lt_of_month_lt (hmonth' : month' < 100) (h : month < month') :
    charPoints (dateText year month day) < charPoints (dateText year month' day') := by
  rw [dateText, dateText, charPoints_append, charPoints_append]
  refine List.append_left_lt (List.cons_lt_cons_iff.mpr (.inr ⟨rfl, ?_⟩))
  change charPoints (_ ++ _) < charPoints (_ ++ _)
  rw [charPoints_append, charPoints_append]
  exact append_lt_append (by simp [charPoints]) (fixedDigits_lt hmonth' h) _ _

theorem dateText_lt_of_day_lt (hday' : day' < 100) (h : day < day') :
    charPoints (dateText year month day) < charPoints (dateText year month day') := by
  rw [dateText, dateText, charPoints_append, charPoints_append]
  refine List.append_left_lt (List.cons_lt_cons_iff.mpr (.inr ⟨rfl, ?_⟩))
  change charPoints (_ ++ _) < charPoints (_ ++ _)
  rw [charPoints_append, charPoints_append]
  refine List.append_left_lt (List.cons_lt_cons_iff.mpr (.inr ⟨rfl, ?_⟩))
  exact fixedDigits_lt hday' h

end DateText

namespace CivilDate

variable {d d' : CivilDate}

theorem text_lt_of_date_lt (h : d.date < d'.date) : charPoints d.text < charPoints d'.text := by
  obtain ⟨⟨-, hyear⟩, ⟨-, hmonth⟩, -, hday⟩ := d'.valid
  have hmax : daysInMonth d'.year d'.month ≤ 31 := daysInMonth_le _ _
  rw [text_eq, text_eq]
  rcases lt_trichotomy d.year d'.year with hlt | heq | hgt
  · exact dateText_lt_of_year_lt (by omega) hlt
  · rw [heq]
    rcases lt_trichotomy d.month d'.month with hlt | heq' | hgt
    · exact dateText_lt_of_month_lt (by omega) hlt
    · rw [heq']
      refine dateText_lt_of_day_lt (by omega) ?_
      have hsum : daysBeforeYear d.year + daysBeforeMonth d.year d.month + d.day - epochOrdinal <
          daysBeforeYear d'.year + daysBeforeMonth d'.year d'.month + d'.day - epochOrdinal := h
      rw [heq, heq'] at hsum
      omega
    · exact absurd h (not_lt.mpr (date_lt_of_month_lt heq.symm hgt).le)
  · exact absurd h (not_lt.mpr (date_lt_of_year_lt hgt).le)

/-- **The texts of dates compare as the dates do.** -/
theorem text_lt_text_iff : charPoints d.text < charPoints d'.text ↔ d.date < d'.date := by
  refine ⟨fun h => ?_, text_lt_of_date_lt⟩
  rcases lt_trichotomy d.date d'.date with hlt | heq | hgt
  · exact hlt
  · rw [date_injective heq] at h
    exact absurd h (lt_irrefl _)
  · exact absurd h (text_lt_of_date_lt hgt).asymm

end CivilDate

end TradingPlatform
