import TradingPlatform.Agents.SleeveAgents
import TradingPlatform.Core.Clock
import TradingPlatform.StableSort

/-!
# The backtest

A backtest walks the trading days of a benchmark. Each day it marks the portfolio from the day
before, name by name, and on the first day of a month it asks the strategy for new weights, with
the bars up to that day (`TradingPlatform.Backtest.Walk.step`,
`TradingPlatform.Backtest.runBacktest`).

The arithmetic is exact here; the program computes with floating-point numbers. The figures of the
result that take a root of a number (growth rates a year, volatility, the Sharpe ratio) are left
out.

What a run reads of the bars of a symbol are the closes at single days
(`TradingPlatform.Backtest.closeAt`), and the close of a day depends on the bars of that day alone
(`TradingPlatform.Backtest.closeAt_congr`).
-/

namespace TradingPlatform

/-- The month of a day, 1 to 12: the day's place in its cycles of 400, 100, 4 and 1 years, and from
the day of the year a first guess at the month, which is at most one too high. -/
def Date.month (d : Date) : ℕ :=
  let n := d + epochOrdinal - 1
  let n400 := n / 146097
  let n100 := n % 146097 / 36524
  let n4 := n % 146097 % 36524 / 1461
  let n1 := n % 146097 % 36524 % 1461 / 365
  let rest := n % 146097 % 36524 % 1461 % 365
  if n1 = 4 ∨ n100 = 4 then 12
  else
    let year := n400 * 400 + n100 * 100 + n4 * 4 + n1 + 1
    let guess := ((rest + 50) / 32).toNat
    if rest < daysBeforeMonth year guess then guess - 1 else guess

example : ((Date.ofYmd 2024 2 29).month, (Date.ofYmd 2023 3 1).month,
    (Date.ofYmd 2000 12 31).month, (Date.ofYmd 2026 1 1).month) = (2, 3, 12, 1) := by decide

namespace Backtest

/-- The bars of each symbol, in any order. -/
abbrev BarSet := Dict String (List Bar)

/-- A strategy: the weights it wants, from the bars it is shown. -/
abbrev WeightFn := BarSet → Dict String Decimal

/-- What a backtest raises. -/
inductive BacktestError
  /-- The benchmark has no bars. -/
  | noBars (benchmark : String)
  /-- There are fewer than two benchmark bars. -/
  | tooFewBars
  | zeroDivision
  deriving DecidableEq

/-- Equity curves, and what is said of them. -/
structure BacktestResult where
  dates : List Date
  /-- The strategy's curve. It starts at 1. -/
  equity : List Decimal
  /-- The benchmark held throughout. It starts at 1. -/
  benchmarkEquity : List Decimal
  totalReturn : Decimal
  maxDrawdown : Decimal
  nRebalances : ℕ
  deriving DecidableEq

/-! ### Bars -/

/-- The bars of a symbol, none for a symbol that is not there. -/
def barsOf (barsBySymbol : BarSet) (sym : String) : List Bar := (barsBySymbol.get? sym).getD []

/-- The close of each day. Of the bars of one day, the last counts. -/
def closeMap (bars : List Bar) : Dict Date Decimal :=
  (bars.mergeSort fun a b => a.timestamp ≤ b.timestamp).foldl
    (fun m b => m.set b.date b.close) .empty

def closeMaps (barsBySymbol : BarSet) : Dict String (Dict Date Decimal) :=
  barsBySymbol.mapValues closeMap

/-- The bars at or before a day. Symbols that have none so far stay, without bars. -/
def sliceAsof (barsBySymbol : BarSet) (asof : Date) : BarSet :=
  barsBySymbol.mapValues fun bars => bars.filter fun b => b.date ≤ asof

/-- The close of a symbol at a day. -/
def closeIn (closes : Dict String (Dict Date Decimal)) (sym : String) (day : Date) :
    Option Decimal :=
  (closes.get? sym).bind (·.get? day)

/-- The close of a symbol at a day, from the bars. -/
def closeAt (barsBySymbol : BarSet) : String → Date → Option Decimal :=
  closeIn (closeMaps barsBySymbol)

/-- The days on which the benchmark has a bar. -/
def calendar (closes : Dict Date Decimal) : List Date := closes.keys.mergeSort fun a b => a ≤ b

/-- The benchmark's calendar. -/
def benchmarkCalendar (barsBySymbol : BarSet) (benchmark : String) : List Date :=
  calendar (closeMap (barsOf barsBySymbol benchmark))

/-! ### The walk -/

/-- What the loop over the days carries along. -/
structure Walk where
  equity : Decimal
  weights : Dict String Decimal
  nRebalances : ℕ
  prevDay : Date
  eqCurve : List Decimal
  benchCurve : List Decimal
  dailyReturns : List Decimal

/-- The return of a name over a step, if it has a close at both ends. A close of 0 is as good as
none. -/
def move (closes : Dict String (Dict Date Decimal)) (sym : String) (prevDay day : Date) :
    Decimal :=
  match closeIn closes sym prevDay, closeIn closes sym day with
  | some cPrev, some cNow => if cPrev ≠ 0 ∧ cNow ≠ 0 ∧ 0 < cPrev then cNow / cPrev - 1 else 0
  | _, _ => 0

def turnover (old new : Dict String Decimal) : Decimal :=
  ((old.keys ∪ new.keys).map fun s => |(new.get? s).getD 0 - (old.get? s).getD 0|).sum

/-- One day: mark the portfolio over the step to it, then rebalance at the boundary of a month,
with the bars as of the day. -/
def Walk.step (barsBySymbol : BarSet) (closes : Dict String (Dict Date Decimal))
    (weightFn : WeightFn) (benchmark : String) (costRate bench0 : Decimal) (walk : Walk)
    (day : Date) : Walk :=
  let portRet :=
    (walk.weights.entries.map fun e => e.2 * move closes e.1 walk.prevDay day).sum
  let marked := walk.equity * (1 + portRet)
  let newWeights := weightFn (sliceAsof barsBySymbol day)
  let rebalance : Bool := day.month ≠ walk.prevDay.month
  let equity :=
    if rebalance then marked * (1 - turnover walk.weights newWeights * costRate) else marked
  { equity
    weights := if rebalance then newWeights else walk.weights
    nRebalances := if rebalance then walk.nRebalances + 1 else walk.nRebalances
    prevDay := day
    eqCurve := walk.eqCurve ++ [equity]
    benchCurve :=
      walk.benchCurve ++ [(closeIn closes benchmark day).getD 0 / bench0]
    dailyReturns := walk.dailyReturns ++ [portRet] }

/-- The walk before its first step, with weights from the first day. -/
def Walk.seed (barsBySymbol : BarSet) (weightFn : WeightFn) (first : Date) : Walk where
  equity := 1
  weights := weightFn (sliceAsof barsBySymbol first)
  nRebalances := 1
  prevDay := first
  eqCurve := [1]
  benchCurve := [1]
  dailyReturns := []

/-- The deepest fall from the peak so far, and that peak. -/
def drawdownStep (acc : Option Decimal × Decimal) (v : Decimal) : Option Decimal × Decimal :=
  let peak := (acc.1.map (max · v)).getD v
  (some peak, if 0 < peak then min acc.2 (v / peak - 1) else acc.2)

def summarize (dates : List Date) (walk : Walk) : BacktestResult where
  dates
  equity := walk.eqCurve
  benchmarkEquity := walk.benchCurve
  totalReturn := walk.eqCurve.getLastD 1 - 1
  maxDrawdown := (walk.eqCurve.foldl drawdownStep (none, 0)).2
  nRebalances := walk.nRebalances

/-- Walk the benchmark's trading calendar. `costBps` is charged on the turnover of each
rebalancing. -/
def runBacktest (barsBySymbol : BarSet) (weightFn : WeightFn) (benchmark : String)
    (costBps : Decimal) : Except BacktestError BacktestResult :=
  let closes := closeMaps barsBySymbol
  match closes.get? benchmark with
  | none => .error (.noBars benchmark)
  | some benchCloses =>
    match calendar benchCloses with
    | [] => .error (.noBars benchmark)
    | [_] => .error .tooFewBars
    | first :: days =>
      let bench0 := (benchCloses.get? first).getD 0
      -- the first day of the loop divides by it
      if bench0 = 0 then .error .zeroDivision
      else
        .ok (summarize (first :: days) (run
          (Walk.step barsBySymbol closes weightFn benchmark (costBps / 10000) bench0)
          (Walk.seed barsBySymbol weightFn first) days))

/-! ### What a run reads of the bars -/

theorem get?_closeMap (bars : List Bar) (day : Date) :
    (closeMap bars).get? day =
      (((bars.filter (·.date = day)).mergeSort fun a b => a.timestamp ≤ b.timestamp).getLast?.map
        Bar.close) := by
  rw [← filter_mergeSort_comm, closeMap]
  induction bars.mergeSort fun a b => a.timestamp ≤ b.timestamp using List.reverseRecOn with
  | nil => rfl
  | append_singleton bars b ih =>
    rw [List.foldl_append, List.foldl_cons, List.foldl_nil, Dict.get?_set, List.filter_append]
    by_cases hday : day = b.date
    · simp [hday]
    · have hne : b.date ≠ day := fun h => hday h.symm
      simp [hday, hne, ih]

theorem closeMap_nil : closeMap [] = .empty := by simp [closeMap]

theorem closeAt_eq (barsBySymbol : BarSet) (sym : String) (day : Date) :
    closeAt barsBySymbol sym day = (closeMap (barsOf barsBySymbol sym)).get? day := by
  rw [closeAt, closeIn, closeMaps, Dict.get?_mapValues, barsOf]
  cases barsBySymbol.get? sym with
  | none =>
    rw [Option.getD_none, closeMap_nil]
    rfl
  | some bars => rfl

/-- **The close of a day** depends on the bars of the day alone. -/
theorem closeAt_congr {barsBySymbol bars' : BarSet} {sym : String} {day : Date}
    (h : (barsOf barsBySymbol sym).filter (·.date = day) =
      (barsOf bars' sym).filter (·.date = day)) :
    closeAt barsBySymbol sym day = closeAt bars' sym day := by
  rw [closeAt_eq, closeAt_eq, get?_closeMap, get?_closeMap, h]

theorem mem_keys_closeMap {bars : List Bar} {day : Date} :
    day ∈ (closeMap bars).keys ↔ ∃ b ∈ bars, b.date = day := by
  have hnil : ((bars.filter (·.date = day)).mergeSort fun a b => a.timestamp ≤ b.timestamp) = [] ↔
      bars.filter (·.date = day) = [] := by
    rw [← List.length_eq_zero_iff, List.length_mergeSort, List.length_eq_zero_iff]
  rw [← not_iff_not, ← Dict.get?_eq_none_iff, get?_closeMap, Option.map_eq_none_iff,
    List.getLast?_eq_none_iff, hnil]
  simp

theorem mem_calendar {bars : List Bar} {day : Date} :
    day ∈ calendar (closeMap bars) ↔ ∃ b ∈ bars, b.date = day := by
  rw [calendar, List.mem_mergeSort, mem_keys_closeMap]

/-- The days of a calendar come one after the other. -/
theorem pairwise_calendar (closes : Dict Date Decimal) : (calendar closes).Pairwise (· < ·) := by
  have hne : closes.keys.Pairwise fun a b => id a ≠ id b := closes.nodup_keys
  exact pairwise_lt_mergeSort hne

/-- The calendar of some of the days is that part of the calendar. -/
theorem calendar_filter (bars : List Bar) (p : Date → Bool) :
    calendar (closeMap (bars.filter fun b => p b.date)) =
      (calendar (closeMap bars)).filter fun day => p day := by
  refine List.Pairwise.eq_of_mem_iff (pairwise_calendar _)
    ((pairwise_calendar _).filter _) fun day => ?_
  rw [mem_calendar, List.mem_filter, mem_calendar]
  constructor
  · rintro ⟨b, hb, rfl⟩
    obtain ⟨hmem, hp⟩ := List.mem_filter.mp hb
    exact ⟨⟨b, hmem, rfl⟩, hp⟩
  · rintro ⟨⟨b, hb, rfl⟩, hp⟩
    exact ⟨b, List.mem_filter.mpr ⟨hb, hp⟩, rfl⟩

/-! ### Bars by the day -/

/-- A table of closes, as bars at midnight. -/
def daily (table : Dict String (Dict Date Decimal)) : BarSet where
  entries := table.entries.map fun e =>
    (e.1, e.2.entries.map fun c => ⟨e.1, midnight c.1, c.2, c.2, c.2, c.2, 0, none⟩)
  nodup := by
    rw [List.map_map]
    exact table.nodup

/-- The days of each symbol come one after the other. -/
def InOrder (table : Dict String (Dict Date Decimal)) : Prop :=
  ∀ e ∈ table.entries, e.2.keys.Pairwise (· < ·)

instance (table : Dict String (Dict Date Decimal)) : Decidable (InOrder table) :=
  inferInstanceAs (Decidable (∀ e ∈ table.entries, e.2.keys.Pairwise (· < ·)))

theorem date_midnight (day : Date) : (midnight day).date = day := by
  rw [midnight, Time.date, Int.mul_ediv_cancel day (by decide)]

theorem closeMap_daily (sym : String) {closes : Dict Date Decimal}
    (h : closes.keys.Pairwise (· < ·)) : closeMap (closes.entries.map fun c =>
      ⟨sym, midnight c.1, c.2, c.2, c.2, c.2, 0, none⟩) = closes := by
  have hsorted : (closes.entries.map fun c : Date × Decimal =>
      (⟨sym, midnight c.1, c.2, c.2, c.2, c.2, 0, none⟩ : Bar)).Pairwise
        fun a b => decide (a.timestamp ≤ b.timestamp) = true := by
    refine List.pairwise_map.mpr ((List.pairwise_map.mp h).imp fun hlt => ?_)
    have hpos : (0 : ℤ) < microsPerDay := by decide
    exact decide_eq_true (Int.mul_le_mul_of_nonneg_right hlt.le hpos.le)
  have hentries := Dict.entries_foldl_set (f := fun c : Date × Decimal => (midnight c.1).date)
    (g := Prod.snd) (l := closes.entries) (d := .empty) (fun _ _ => List.not_mem_nil)
    (by simpa only [date_midnight] using closes.nodup)
  rw [closeMap, List.mergeSort_of_pairwise hsorted, List.foldl_map]
  refine Dict.eq_of_entries_eq (hentries.trans ?_)
  simp [Dict.empty, date_midnight]

/-- **The closes of a table's bars** are the table. -/
theorem closeMaps_daily {table : Dict String (Dict Date Decimal)} (h : InOrder table) :
    closeMaps (daily table) = table := by
  refine Dict.eq_of_entries_eq ?_
  change (table.entries.map _).map _ = table.entries
  rw [List.map_map]
  refine (List.map_congr_left fun e he => ?_).trans (List.map_id _)
  exact congrArg (Prod.mk e.1) (closeMap_daily e.1 (h e he))

/-- The calendar of a table's bars. -/
theorem benchmarkCalendar_daily {table : Dict String (Dict Date Decimal)} (h : InOrder table)
    {benchmark : String} {closes : Dict Date Decimal} (hget : table.get? benchmark = some closes) :
    benchmarkCalendar (daily table) benchmark = closes.keys := by
  have hmap : closeMap (barsOf (daily table) benchmark) = closes := by
    rw [← closeMaps_daily h, closeMaps, Dict.get?_mapValues] at hget
    obtain ⟨bars, hbars, hclose⟩ := Option.map_eq_some_iff.mp hget
    rw [barsOf, hbars, Option.getD_some, hclose]
  have hin : closes.keys.Pairwise (· < ·) :=
    h (benchmark, closes) (Dict.get?_eq_some_iff.mp hget)
  rw [benchmarkCalendar, hmap, calendar,
    List.mergeSort_of_pairwise (hin.imp fun hlt => decide_eq_true hlt.le)]

/-- The closes of a table's bars, one by one. -/
theorem closeAt_daily {table : Dict String (Dict Date Decimal)} (h : InOrder table) :
    closeAt (daily table) = closeIn table := by
  rw [closeAt, closeMaps_daily h]

/-! ### Curves -/

/-- A run adds a point a day to each curve. -/
theorem exists_run_curves {barsBySymbol : BarSet} {closes : Dict String (Dict Date Decimal)}
    {weightFn : WeightFn} {benchmark : String} {costRate bench0 : Decimal}
    {step : Walk → Date → Walk}
    (hstep : step = Walk.step barsBySymbol closes weightFn benchmark costRate bench0)
    (walk : Walk) (days : List Date) :
    ∃ eq bench : List Decimal, eq.length = days.length ∧ bench.length = days.length ∧
      (run step walk days).eqCurve = walk.eqCurve ++ eq ∧
      (run step walk days).benchCurve = walk.benchCurve ++ bench := by
  induction days generalizing walk with
  | nil => exact ⟨[], [], rfl, rfl, by simp, by simp⟩
  | cons day days ih =>
    obtain ⟨eq, bench, heq, hbench, hrun, hrun'⟩ := ih (step walk day)
    subst hstep
    refine ⟨(walk.step barsBySymbol closes weightFn benchmark costRate bench0 day).equity :: eq,
      (closeIn closes benchmark day).getD 0 / bench0 :: bench, by simp [heq], by simp [hbench],
      ?_, ?_⟩
    · rw [run_cons, hrun, Walk.step, List.append_assoc]
      rfl
    · rw [run_cons, hrun', Walk.step, List.append_assoc]
      rfl

section Returns

variable {barsBySymbol : BarSet} {weightFn : WeightFn} {benchmark : String} {costBps : Decimal}

theorem exists_closeAt {sym : String} {day : Date}
    (h : day ∈ benchmarkCalendar barsBySymbol sym) :
    ∃ c, closeAt barsBySymbol sym day = some c := by
  rw [closeAt_eq]
  exact Dict.mem_keys_iff.mp (List.mem_mergeSort.mp h)

/-- What a backtest does, by the benchmark's calendar. -/
theorem runBacktest_of_calendar {first : Date} {days : List Date} {bench0 : Decimal}
    (hcal : benchmarkCalendar barsBySymbol benchmark = first :: days) (hdays : days ≠ [])
    (hclose : closeAt barsBySymbol benchmark first = some bench0) (hzero : bench0 ≠ 0) :
    runBacktest barsBySymbol weightFn benchmark costBps = .ok (summarize (first :: days) (run
      (Walk.step barsBySymbol (closeMaps barsBySymbol) weightFn benchmark (costBps / 10000) bench0)
      (Walk.seed barsBySymbol weightFn first) days)) := by
  obtain ⟨day, days, rfl⟩ := List.exists_cons_of_ne_nil hdays
  rw [closeAt_eq] at hclose
  rw [runBacktest]
  cases hbars : barsBySymbol.get? benchmark with
  | none =>
    rw [barsOf, hbars, Option.getD_none, closeMap_nil] at hclose
    cases hclose
  | some bars =>
    rw [barsOf, hbars, Option.getD_some] at hclose
    rw [benchmarkCalendar, barsOf, hbars, Option.getD_some] at hcal
    have hget : (closeMaps barsBySymbol).get? benchmark = some (closeMap bars) := by
      rw [closeMaps, Dict.get?_mapValues, hbars, Option.map_some]
    simp only [hget, hcal, hclose, Option.getD_some, if_neg hzero]

/-- What a backtest that returns has done. -/
theorem runBacktest_eq_ok {r : BacktestResult}
    (h : runBacktest barsBySymbol weightFn benchmark costBps = .ok r) :
    ∃ first days bench0, days ≠ [] ∧ bench0 ≠ 0 ∧
      benchmarkCalendar barsBySymbol benchmark = first :: days ∧
      closeAt barsBySymbol benchmark first = some bench0 ∧
      r = summarize (first :: days) (run (Walk.step barsBySymbol (closeMaps barsBySymbol) weightFn
        benchmark (costBps / 10000) bench0) (Walk.seed barsBySymbol weightFn first) days) := by
  rw [runBacktest] at h
  cases hbars : barsBySymbol.get? benchmark with
  | none => simp [closeMaps, hbars] at h
  | some bars =>
    have hof : barsOf barsBySymbol benchmark = bars := by rw [barsOf, hbars, Option.getD_some]
    have hget : (closeMaps barsBySymbol).get? benchmark = some (closeMap bars) := by
      rw [closeMaps, Dict.get?_mapValues, hbars, Option.map_some]
    simp only [hget] at h
    rcases hcal : calendar (closeMap bars) with _ | ⟨first, _ | ⟨day, days⟩⟩
    · simp [hcal] at h
    · simp [hcal] at h
    · simp only [hcal] at h
      have hmem : first ∈ benchmarkCalendar barsBySymbol benchmark := by
        rw [benchmarkCalendar, hof, hcal]
        exact List.mem_cons_self
      obtain ⟨bench0, hclose⟩ := exists_closeAt hmem
      have hbench : (closeMap bars).get? first = some bench0 := by
        rw [← hof, ← closeAt_eq, hclose]
      simp only [hbench, Option.getD_some] at h
      split_ifs at h with hzero
      refine ⟨first, day :: days, bench0, by simp, hzero, ?_, hclose, (Except.ok.inj h).symm⟩
      rw [benchmarkCalendar, hof, hcal]

/-- **When a backtest returns**: the benchmark has two days, and a close other than 0 on the
first. -/
theorem exists_runBacktest_iff :
    (∃ r, runBacktest barsBySymbol weightFn benchmark costBps = .ok r) ↔
      ∃ first days, days ≠ [] ∧ benchmarkCalendar barsBySymbol benchmark = first :: days ∧
        closeAt barsBySymbol benchmark first ≠ some 0 := by
  constructor
  · rintro ⟨r, h⟩
    obtain ⟨first, days, bench0, hdays, hzero, hcal, hclose, -⟩ := runBacktest_eq_ok h
    refine ⟨first, days, hdays, hcal, ?_⟩
    rw [hclose]
    exact fun hc => hzero (Option.some.inj hc)
  · rintro ⟨first, days, hdays, hcal, hclose⟩
    have hmem : first ∈ benchmarkCalendar barsBySymbol benchmark := by
      rw [hcal]
      exact List.mem_cons_self
    obtain ⟨bench0, hbench⟩ := exists_closeAt hmem
    have hzero : bench0 ≠ 0 := fun h0 => hclose (hbench.trans (congrArg some h0))
    exact ⟨_, runBacktest_of_calendar hcal hdays hbench hzero⟩

/-- What a backtest of a table does. -/
theorem runBacktest_daily {table : Dict String (Dict Date Decimal)} (h : InOrder table)
    {benchCloses : Dict Date Decimal} (hget : table.get? benchmark = some benchCloses)
    {first : Date} {days : List Date} (hkeys : benchCloses.keys = first :: days) (hdays : days ≠ [])
    {bench0 : Decimal} (hclose : benchCloses.get? first = some bench0) (hzero : bench0 ≠ 0) :
    runBacktest (daily table) weightFn benchmark costBps = .ok (summarize (first :: days) (run
      (Walk.step (daily table) table weightFn benchmark (costBps / 10000) bench0)
      (Walk.seed (daily table) weightFn first) days)) := by
  obtain ⟨day, days, rfl⟩ := List.exists_cons_of_ne_nil hdays
  have hin : benchCloses.keys.Pairwise (· < ·) :=
    h (benchmark, benchCloses) (Dict.get?_eq_some_iff.mp hget)
  have hcal : calendar benchCloses = first :: day :: days := by
    rw [calendar, List.mergeSort_of_pairwise (hin.imp fun hlt => decide_eq_true hlt.le), hkeys]
  rw [runBacktest, closeMaps_daily h]
  simp only [hget, hcal, hclose, Option.getD_some, if_neg hzero]

end Returns

end Backtest

end TradingPlatform
