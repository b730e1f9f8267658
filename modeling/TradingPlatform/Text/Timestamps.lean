import TradingPlatform.Text.TextOrder

/-!
# Timestamps

A time in UTC as it is written into a table, and the texts a query compares it with. A timestamp
compares with another as the times do (`TradingPlatform.UtcTime.text_lt_text_iff`): one without
microseconds goes on with a plus, which comes before the point of one that has some.

The database writes a time with a blank between its date and its time of day, where a timestamp has
a letter. A timestamp of the same day is therefore never before it, whatever the time of day, and
what is asked is whether the day is earlier (`TradingPlatform.UtcTime.text_lt_daysBackText_iff`).
-/

namespace TradingPlatform

/-! ### Parts of a text -/

/-- A number in front decides, and then what follows. -/
theorem fixedDigits_append_lt {width n n' : ℕ} (hn' : n' < 10 ^ width) {cs cs' : List Char}
    (h : n < n' ∨ n = n' ∧ charPoints cs < charPoints cs') :
    charPoints (fixedDigits 10 width n ++ cs) < charPoints (fixedDigits 10 width n' ++ cs') := by
  rw [charPoints_append, charPoints_append]
  rcases h with hlt | ⟨rfl, hlt⟩
  · exact append_lt_append (by simp [charPoints]) (fixedDigits_lt hn' hlt) _ _
  · exact List.append_left_lt hlt

theorem charPoints_cons_lt {c : Char} {cs cs' : List Char} (h : charPoints cs < charPoints cs') :
    charPoints (c :: cs) < charPoints (c :: cs') :=
  List.cons_lt_cons_iff.mpr (.inr ⟨rfl, h⟩)

theorem fixedDigits_injective {width n n' : ℕ} (hn : n < 10 ^ width) (hn' : n' < 10 ^ width)
    (h : fixedDigits 10 width n = fixedDigits 10 width n') : n = n' := by
  rcases lt_trichotomy n n' with hlt | heq | hgt
  · exact absurd (congrArg charPoints h) (fixedDigits_lt hn' hlt).ne
  · exact heq
  · exact absurd (congrArg charPoints h) (fixedDigits_lt hn hgt).ne'

/-! ### Days back -/

namespace CivilDate

theorem text_injective : Function.Injective CivilDate.text := by
  intro d d' h
  rcases lt_trichotomy d.date d'.date with hlt | heq | hgt
  · exact absurd (congrArg charPoints h) (text_lt_of_date_lt hlt).ne
  · exact date_injective heq
  · exact absurd (congrArg charPoints h) (text_lt_of_date_lt hgt).ne'

@[simp] theorem length_text (d : CivilDate) : d.text.length = 10 := by simp [text]

theorem one_le_daysInMonth (year : ℕ) {month : ℕ} (hpos : 1 ≤ month) (hle : month ≤ 12) :
    1 ≤ daysInMonth year month := by
  rw [daysInMonth]
  interval_cases month <;> simp
  split_ifs <;> omega

/-- The first date there is. -/
def first : CivilDate := ⟨1, 1, 1, by decide⟩

/-- The day before. There is none before the first. -/
def prev (d : CivilDate) : CivilDate :=
  have hvalid := d.valid
  if hday : 1 < d.day then
    ⟨d.year, d.month, d.day - 1, hvalid.1, hvalid.2.1, by omega, by have := hvalid.2.2; omega⟩
  else if hmonth : 1 < d.month then
    ⟨d.year, d.month - 1, daysInMonth d.year (d.month - 1), hvalid.1,
      ⟨by omega, by have := hvalid.2.1; omega⟩,
      one_le_daysInMonth _ (by omega) (by have := hvalid.2.1; omega), le_rfl⟩
  else if hyear : 1 < d.year then
    ⟨d.year - 1, 12, 31, ⟨by omega, by have := hvalid.1; omega⟩, by omega, by omega, by
      simp [daysInMonth]⟩
  else d

theorem first_le_date (d : CivilDate) : first.date ≤ d.date := by
  obtain ⟨⟨hyear, -⟩, ⟨hmonth, -⟩, hday, -⟩ := d.valid
  rcases hyear.lt_or_eq with hlt | hyear
  · exact (date_lt_of_year_lt (show first.year < d.year from hlt)).le
  rcases hmonth.lt_or_eq with hlt | hmonth
  · exact (date_lt_of_month_lt (show first.year = d.year from hyear) hlt).le
  show daysBeforeYear (1 : ℕ) + daysBeforeMonth (1 : ℕ) 1 + (1 : ℕ) - epochOrdinal ≤
    daysBeforeYear d.year + daysBeforeMonth d.year d.month + d.day - epochOrdinal
  rw [← hyear, ← hmonth]
  omega

/-- The last day of a year comes before the first of the next. -/
theorem daysBeforeYear_succ (year : ℕ) :
    daysBeforeYear (year + 1 : ℕ) = daysBeforeYear year + daysBeforeMonth year 12 + 31 := by
  simp only [daysBeforeYear, daysBeforeMonth, isLeap]
  norm_num
  split_ifs <;> omega

theorem date_prev_of_one_lt (d : CivilDate)
    (h : 1 < d.day ∨ 1 < d.month ∨ 1 < d.year) : d.prev.date = d.date - 1 := by
  obtain ⟨-, ⟨hpos, hmonth'⟩, hday', -⟩ := d.valid
  show daysBeforeYear d.prev.year + daysBeforeMonth d.prev.year d.prev.month + d.prev.day -
      epochOrdinal =
    daysBeforeYear d.year + daysBeforeMonth d.year d.month + d.day - epochOrdinal - 1
  rw [prev]
  split_ifs with hday hmonth hyear
  · simp only
    omega
  · -- the last day of the month before
    obtain ⟨month, hm⟩ : ∃ month, d.month = month + 1 := ⟨d.month - 1, by omega⟩
    have hstep := daysBeforeMonth_succ d.year (by omega : 1 ≤ month) (by omega)
    simp only [hm, Nat.add_sub_cancel]
    omega
  · -- the last day of the year before
    obtain ⟨year, hy⟩ : ∃ year, d.year = year + 1 := ⟨d.year - 1, by omega⟩
    have hstep := daysBeforeYear_succ year
    have hfirst : daysBeforeMonth (year + 1 : ℕ) 1 = 0 := by simp [daysBeforeMonth]
    have hm : d.month = 1 := by omega
    simp only [hy, hm, Nat.add_sub_cancel, hfirst]
    omega
  · omega

theorem date_prev (d : CivilDate) : d.prev.date = max (d.date - 1) first.date := by
  by_cases h : 1 < d.day ∨ 1 < d.month ∨ 1 < d.year
  · have hle := first_le_date d.prev
    rw [date_prev_of_one_lt d h] at hle ⊢
    exact (max_eq_left hle).symm
  · obtain ⟨⟨hyear, -⟩, ⟨hmonth, -⟩, hday, -⟩ := d.valid
    have hfirst : d = first := by
      obtain ⟨year, month, day, hvalid⟩ := d
      obtain rfl : year = 1 := by simp only at *; omega
      obtain rfl : month = 1 := by simp only at *; omega
      obtain rfl : day = 1 := by simp only at *; omega
      rfl
    rw [hfirst]
    exact (max_eq_right (by decide)).symm

/-- The date so many days back. -/
def daysBack (n : ℕ) (d : CivilDate) : CivilDate := prev^[n] d

theorem date_daysBack (n : ℕ) (d : CivilDate) :
    (d.daysBack n).date = max (d.date - n) first.date := by
  induction n generalizing d with
  | zero => simpa [daysBack] using first_le_date d
  | succ n ih =>
    have hmax : ∀ day limit : ℤ, max (max (day - 1) limit - n) limit =
        max (day - (n + 1 : ℕ)) limit := by omega
    show (d.prev.daysBack n).date = _
    rw [ih, date_prev]
    exact hmax _ _

end CivilDate

/-! ### Times in UTC -/

/-- A time in UTC. -/
structure UtcTime where
  date : CivilDate
  time : ClockTime
  deriving DecidableEq

namespace UtcTime

variable (t t' : UtcTime)

def dateTime : DateTime := .utc t.date t.time

def instant : Time := t.dateTime.instant

/-- The source's `isoformat` of a time in UTC. -/
def text : List Char := t.dateTime.isoformat

theorem instant_eq : t.instant = t.date.date * microsPerDay + t.time.micros := by
  simp [instant, DateTime.instant, dateTime, DateTime.utc]

theorem text_eq : t.text = t.date.text ++ 'T' :: (t.time.text true ++ "+00:00".toList) := by
  have hzero : t.dateTime.offsetTime = .ofMicros 0 (by omega) := rfl
  have htext : (ClockTime.ofMicros 0 (by omega)).text false = "00:00".toList := by decide
  rw [text, DateTime.isoformat, hzero, htext]
  rfl

variable {t t'}

/-- **Times of day compare as their texts do**, when a plus follows. -/
theorem time_text_lt {c c' : ClockTime} (h : c.micros < c'.micros) (cs : List Char) :
    charPoints (c.text true ++ '+' :: cs) < charPoints (c'.text true ++ '+' :: cs) := by
  obtain ⟨⟨hhour, hminute⟩, hsecond, hmicro⟩ := c.valid
  obtain ⟨⟨hhour', hminute'⟩, hsecond', hmicro'⟩ := c'.valid
  simp only [ClockTime.micros] at h
  simp only [ClockTime.text, true_or, if_true, ClockTime.secondsText, List.append_assoc,
    List.cons_append]
  refine fixedDigits_append_lt (by omega) ?_
  rcases lt_trichotomy c.hour c'.hour with hlt | heq | hgt
  · exact .inl hlt
  swap
  · omega
  refine .inr ⟨heq, charPoints_cons_lt (fixedDigits_append_lt (by omega) ?_)⟩
  rcases lt_trichotomy c.minute c'.minute with hlt | heq | hgt
  · exact .inl hlt
  swap
  · omega
  refine .inr ⟨heq, charPoints_cons_lt (fixedDigits_append_lt (by omega) ?_)⟩
  rcases lt_trichotomy c.second c'.second with hlt | heq | hgt
  · exact .inl hlt
  swap
  · omega
  refine .inr ⟨heq, ?_⟩
  have hlt : c.microsecond < c'.microsecond := by omega
  rw [ClockTime.microsText, ClockTime.microsText, if_neg (show ¬c'.microsecond = 0 by omega)]
  split_ifs with hzero
  · -- the plus comes before the point
    exact List.cons_lt_cons_iff.mpr (.inl (by decide))
  · rw [List.cons_append, List.cons_append]
    exact charPoints_cons_lt (fixedDigits_append_lt (by omega) (.inl hlt))

theorem micros_lt (c : ClockTime) : (c.micros : ℤ) < microsPerDay := by
  obtain ⟨⟨hhour, hminute⟩, hsecond, hmicro⟩ := c.valid
  simp only [ClockTime.micros, microsPerDay, microsPerSecond]
  omega

theorem date_instant : t.instant.date = t.date.date := by
  have hpos : (0 : ℤ) < microsPerDay := by decide
  have hlt := micros_lt t.time
  rw [Time.date, instant_eq, add_comm, Int.add_mul_ediv_right _ _ hpos.ne',
    Int.ediv_eq_zero_of_lt (by omega) hlt, zero_add]

theorem text_lt_of_instant_lt (h : t.instant < t'.instant) :
    charPoints t.text < charPoints t'.text := by
  rw [text_eq, text_eq, charPoints_append, charPoints_append]
  rcases lt_trichotomy t.date.date t'.date.date with hlt | heq | hgt
  · exact append_lt_append (by simp [charPoints]) (CivilDate.text_lt_of_date_lt hlt) _ _
  · rw [CivilDate.date_injective heq]
    refine List.append_left_lt (charPoints_cons_lt (time_text_lt ?_ _))
    rw [instant_eq, instant_eq, heq, add_lt_add_iff_left] at h
    exact_mod_cast h
  · have hle := Time.date_mono h.le
    rw [date_instant, date_instant] at hle
    exact absurd hgt hle.not_gt

theorem instant_injective : Function.Injective instant := by
  intro t t' h
  have hdate : t.date.date = t'.date.date := by
    rw [← date_instant, ← date_instant, h]
  have hmicros : t.time.micros = t'.time.micros := by
    rw [instant_eq, instant_eq, hdate, add_right_inj] at h
    exact_mod_cast h
  obtain ⟨date, hour, minute, second, micro, hvalid⟩ := t
  obtain ⟨date', hour', minute', second', micro', hvalid'⟩ := t'
  obtain rfl := CivilDate.date_injective hdate
  simp only [ClockTime.micros] at hmicros
  obtain rfl : hour = hour' := by omega
  obtain rfl : minute = minute' := by omega
  obtain rfl : second = second' := by omega
  obtain rfl : micro = micro' := by omega
  rfl

/-- **Timestamps compare as the times do.** -/
theorem text_lt_text_iff : charPoints t.text < charPoints t'.text ↔ t.instant < t'.instant := by
  refine ⟨fun h => ?_, text_lt_of_instant_lt⟩
  rcases lt_trichotomy t.instant t'.instant with hlt | heq | hgt
  · exact hlt
  · rw [instant_injective heq] at h
    exact absurd h (lt_irrefl _)
  · exact absurd h (text_lt_of_instant_lt hgt).asymm

/-! ### What a query compares timestamps with -/

/-- The time of day as the database writes it. -/
def clockText (c : ClockTime) : List Char :=
  fixedDigits 10 2 c.hour ++ ':' :: (fixedDigits 10 2 c.minute ++ ':' :: fixedDigits 10 2 c.second)

/-- What the database's `datetime` answers for the time so many days back. -/
def daysBackText (n : ℕ) (now : UtcTime) : List Char :=
  (now.date.daysBack n).text ++ ' ' :: clockText now.time

/-- **A timestamp is before the time so many days back if its day is.** -/
theorem text_lt_daysBackText_iff {n : ℕ} {now : UtcTime} :
    charPoints t.text < charPoints (daysBackText n now) ↔
      t.instant.date < now.instant.date - n := by
  rw [date_instant, date_instant, text_eq, daysBackText, charPoints_append, charPoints_append]
  have hdate := CivilDate.date_daysBack n now.date
  have hfirst := CivilDate.first_le_date t.date
  -- no day comes before the first one
  have hback : t.date.date < (now.date.daysBack n).date ↔ t.date.date < now.date.date - n := by
    rw [hdate, lt_max_iff, or_iff_left hfirst.not_gt]
  rw [← hback]
  rcases lt_trichotomy t.date.date (now.date.daysBack n).date with hlt | heq | hgt
  · refine iff_of_true ?_ hlt
    exact append_lt_append (by simp [charPoints]) (CivilDate.text_lt_of_date_lt hlt) _ _
  · -- the letter comes after the blank
    refine iff_of_false ?_ heq.not_lt
    rw [CivilDate.date_injective heq]
    exact (List.append_left_lt (List.cons_lt_cons_iff.mpr (.inl (by decide)))).asymm
  · refine iff_of_false ?_ hgt.asymm
    exact (append_lt_append (by simp [charPoints]) (CivilDate.text_lt_of_date_lt hgt) _ _).asymm

/-- The hour of a timestamp, and the five minutes of it that it is in. -/
def bucketText (t : UtcTime) : List Char :=
  t.date.text ++ 'T' :: (fixedDigits 10 2 t.time.hour ++
    ':' :: fixedDigits 10 2 (t.time.minute / 5 * 5))

/-- Five minutes, in microseconds. -/
def fiveMinutes : ℤ := 300 * microsPerSecond

theorem fiveMinutes_instant (t : UtcTime) :
    t.instant / fiveMinutes = 288 * t.date.date + (12 * t.time.hour + t.time.minute / 5 : ℕ) := by
  obtain ⟨⟨hhour, hminute⟩, hsecond, hmicro⟩ := t.time.valid
  have hmicros : (t.time.micros : ℤ) / fiveMinutes =
      (12 * t.time.hour + t.time.minute / 5 : ℕ) := by
    simp only [ClockTime.micros, fiveMinutes, microsPerSecond]
    omega
  have hday : t.date.date * microsPerDay = 288 * t.date.date * fiveMinutes := by
    simp only [microsPerDay, fiveMinutes]
    ring
  rw [instant_eq, hday, add_comm, Int.add_mul_ediv_right _ _ (by decide), hmicros, add_comm]

/-- **Two timestamps are in one bucket if they are in the same five minutes.** -/
theorem bucketText_eq_iff :
    bucketText t = bucketText t' ↔ t.instant / fiveMinutes = t'.instant / fiveMinutes := by
  obtain ⟨⟨hhour, hminute⟩, -⟩ := t.time.valid
  obtain ⟨⟨hhour', hminute'⟩, -⟩ := t'.time.valid
  rw [fiveMinutes_instant, fiveMinutes_instant]
  constructor
  · intro h
    obtain ⟨hdate, hclock⟩ := List.append_inj h (by simp)
    obtain ⟨hh, hm⟩ := List.append_inj (List.cons.inj hclock).2 (by simp)
    have hhours := fixedDigits_injective (by omega) (by omega) hh
    have hminutes := fixedDigits_injective (by omega) (by omega) (List.cons.inj hm).2
    have hfive : t.time.minute / 5 = t'.time.minute / 5 := by omega
    rw [CivilDate.text_injective hdate, hhours, hfive]
  · intro h
    -- there are 288 such buckets in a day
    have hsplit : ∀ (day day' : ℤ) (k k' : ℕ), k < 288 → k' < 288 →
        288 * day + k = 288 * day' + k' → day = day' ∧ k = k' := by omega
    obtain ⟨hdate, hclock⟩ := hsplit _ _ _ _ (by omega) (by omega) h
    have hhours : t.time.hour = t'.time.hour := by omega
    have hfive : t.time.minute / 5 = t'.time.minute / 5 := by omega
    rw [bucketText, bucketText, CivilDate.date_injective hdate, hhours, hfive]

end UtcTime

end TradingPlatform
