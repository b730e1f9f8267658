import TradingPlatform.Adjacent
import TradingPlatform.Dict
import TradingPlatform.Execution.Risk

/-!
# The statistics of the equity history

The dashboard and the manager look back over four weeks of equity snapshots and report how the
sleeves do: the Sharpe and the Sortino ratio, the compound return, how often the portfolio beats the
market. All of them speak of daily returns, and the ratios are scaled by the 252 trading days of a
year.

The dashboard and the manager's table take the change from every row to the next for a day's
return. The growth metrics take the change from the last row of a day to the first row of the next.

A float is an exact number here, and the square root of the floats is left open: nothing depends on
what it is.
-/

namespace TradingPlatform

/-! ### The rows -/

/-- A row of the equity table, as it is read back. A column is empty where nothing was known, or
where its text is not a number. -/
structure EquityRow where
  ts : Time
  totalNav : Option Decimal
  equity : AgentId → Option Decimal

/-- The rows since some time, oldest first. -/
def queryEquityHistory (rows : List EquityRow) (since : Time) : List EquityRow :=
  rows.filter fun row => since ≤ row.ts

/-- A value counts if it is there and positive. -/
def counted (v : Option Decimal) : Option Decimal := v.filter fun v => 0 < v

/-- The values of a sleeve that count. -/
def equitySeries (history : List EquityRow) (agentId : AgentId) : List Decimal :=
  history.filterMap fun row => counted (row.equity agentId)

/-- The days and the values of the account that count. -/
def navRow (row : EquityRow) : Option (Date × Decimal) :=
  (counted row.totalNav).map fun nav => (row.ts.date, nav)

def navRows (history : List EquityRow) : List (Date × Decimal) := history.filterMap navRow

/-! ### The dashboard -/

def mean (xs : List Decimal) : Decimal := xs.sum / xs.length

/-- The deepest fall below the peak so far, as a negative fraction. -/
def maxDrawdown (series : List Decimal) : Decimal :=
  if series.length < 2 then 0
  else
    (series.foldl (fun (acc : Decimal × Decimal) v =>
      let peak := max acc.1 v
      (peak, min acc.2 ((v - peak) / peak))) (series.headD 0, 0)).2

/-- A bucket of the calibration table: how many trades it has, and how many of them win. -/
structure CalibrationBucket where
  n : ℤ
  winRate : Option Decimal

structure AgentPerformance where
  sharpe4w : Option Decimal
  sortino4w : Option Decimal
  maxDd4w : Decimal
  winRate : Option Decimal
  lossRate : Option Decimal
  nClosed : ℤ

/-- The risk-free rate of a day. -/
def rfDaily : Decimal := 45 / 1000 / 252

/-- The change from one value to the next, unless the first one is not positive. -/
def pointReturn (v v' : Decimal) : Option Decimal := if 0 < v then some ((v' - v) / v) else none

/-- The returns that the dashboard takes for daily. -/
def pointReturns (rows : List EquityRow) (cutoff : Time) (agentId : AgentId) : List Decimal :=
  adjacent pointReturn (equitySeries (queryEquityHistory rows cutoff) agentId)

/-- The Sharpe ratio of the dashboard. -/
def sharpeRatio (sqrt : Decimal → Decimal) (rets : List Decimal) : Option Decimal :=
  if rets.length < 5 then none
  else
    let sd := sqrt (mean (rets.map fun r => (r - mean rets) ^ 2))
    if 0 < sd then some (mean (rets.map (· - rfDaily)) / sd * sqrt 252) else none

/-- The Sortino ratio of the dashboard. -/
def sortinoRatio (sqrt : Decimal → Decimal) (rets : List Decimal) : Option Decimal :=
  if rets.length < 5 then none
  else
    let downside := (rets.map (· - rfDaily)).filter (· < 0)
    if downside.length < 3 then none
    else
      let ddev := sqrt (mean (downside.map fun r => r * r))
      if 0 < ddev then some (mean (rets.map (· - rfDaily)) / ddev * sqrt 252) else none

def agentPerformance (sqrt : Decimal → Decimal) (calibration : List CalibrationBucket)
    (rows : List EquityRow) (now : Time) (agentId : AgentId) : AgentPerformance :=
  let cutoff := now - 28 * microsPerDay
  let rets := pointReturns rows cutoff agentId
  let n := (calibration.map (·.n)).sum
  let wins := (calibration.map fun bucket =>
    if bucket.n = 0 then 0 else bucket.winRate.elim 0 fun w => roundHalfEven (w * bucket.n)).sum
  let rate (k : ℤ) : Option Decimal := if n = 0 then none else some (k / n)
  { sharpe4w := sharpeRatio sqrt rets
    sortino4w := sortinoRatio sqrt rets
    maxDd4w := maxDrawdown (equitySeries (queryEquityHistory rows cutoff) agentId)
    winRate := rate wins
    lossRate := rate (n - wins)
    nClosed := n }

/-! ### The manager's table -/

/-- The returns that the manager takes for daily. -/
def dailyReturns (history : List EquityRow) (agentId : AgentId) : List Decimal :=
  adjacent (fun v v' => some ((v' - v) / v)) (equitySeries history agentId)

def sortino (sqrt : Decimal → Decimal) (returns : List Decimal) : Option Decimal :=
  if returns.length < 5 then none
  else
    let downside := returns.filter (· < 0)
    if downside = [] then none
    else
      let downsideDev := sqrt (mean (downside.map fun r => r * r))
      if downsideDev = 0 then none else some (mean returns / downsideDev * sqrt 252)

/-- A line of the table of four weeks. -/
structure SleeveLine where
  start : Decimal
  stop : Decimal
  retPct : Decimal
  sortino : Option Decimal
  maxDd : Decimal

/-- The line of a sleeve, if it has two values. -/
def sleeveLine (sqrt : Decimal → Decimal) (history : List EquityRow) (agentId : AgentId) :
    Option SleeveLine :=
  let clean := equitySeries history agentId
  if clean.length < 2 then none
  else
    let start := clean.headD 0
    let stop := clean.getLastD 0
    some
      { start := start
        stop := stop
        retPct := (stop - start) / start * 100
        sortino := sortino sqrt (dailyReturns history agentId)
        maxDd := maxDrawdown clean }

/-! ### The growth metrics -/

/-- The return of a day: its value over that of the row before, if that is of another day. -/
def overnight (prev curr : Date × Decimal) : Option (Date × Decimal) :=
  if prev.1 = curr.1 then none else some (curr.1, (curr.2 - prev.2) / prev.2)

/-- The returns of the portfolio, by day. There are none from fewer than two rows. -/
def portDaily (history : List EquityRow) : Option (Dict Date Decimal) :=
  if (navRows history).length < 2 then none
  else some ((adjacent overnight (navRows history)).foldl (fun d e => d.set e.1 e.2) .empty)

/-- What a hundred becomes over the last days, less the hundred. -/
def compoundPct (days : ℕ) (daily : Dict Date Decimal) : Decimal :=
  (((daily.values.rtake days).map (1 + ·)).prod - 1) * 100

/-- How the portfolio does against the market. -/
inductive HitRate
  | notWired
  | feedError (exc : String)
  | coldStart
  | noOverlap
  | over (hitRate : Decimal) (days : ℕ) (avgExcess : Decimal)
  deriving DecidableEq

/-- The returns of the market, by day. -/
def spyDaily (closes : List (Date × Decimal)) : Dict Date Decimal :=
  (closes.zip closes.tail).foldl
    (fun d e => if 0 < e.1.2 then d.set e.2.1 ((e.2.2 - e.1.2) / e.1.2) else d) .empty

/-- Compare the days on which both have a return. -/
def hitRate (spyProvider : Option (Except String (List (Date × Decimal))))
    (daily : Dict Date Decimal) : HitRate :=
  match spyProvider with
  | none => .notWired
  | some (.error exc) => .feedError exc
  | some (.ok closes) =>
    if closes.length < 2 then .coldStart
    else
      let paired := daily.entries.filterMap fun (d, p) =>
        ((spyDaily closes).get? d).map fun s => (p, s)
      if paired = [] then .noOverlap
      else .over ((paired.countP fun e => e.2 < e.1) / paired.length * 100) paired.length
        (mean (paired.map fun e => e.1 - e.2) * 100)

structure GrowthMetrics where
  days20 : ℕ
  compound20dPct : Decimal
  compound21dPct : Decimal
  spy : HitRate
  deriving DecidableEq

/-- The growth metrics, if there is enough history. -/
def buildGrowthMetricsV2 (history : List EquityRow)
    (spyProvider : Option (Except String (List (Date × Decimal)))) : Option GrowthMetrics :=
  (portDaily history).map fun daily =>
    { days20 := (daily.values.rtake 20).length
      compound20dPct := compoundPct 20 daily
      compound21dPct := compoundPct 21 daily
      spy := hitRate spyProvider daily }

end TradingPlatform
