import TradingPlatform.Backtest.Engine

/-!
# The past of a backtest

Two sets of bars that agree up to a day give a backtest the same past: the curves agree up to that
day, whatever comes later (`TradingPlatform.Backtest.upTo_eq_of_agreeUpTo`).

There is one thing about later bars that a strategy can see. The slice it gets on a day keeps every
symbol of the run, with no bars if the symbol is not listed yet, so a strategy that looks at the
symbols themselves knows which names will come
(`TradingPlatform.Backtest.not_forall_upTo_eq_of_agreeUpTo`). So either the two sets are over the
same symbols, or the strategy takes a symbol without bars for one that is not there.
-/

namespace TradingPlatform

namespace Backtest

/-- The two sets have the same bars of every symbol, up to a day. -/
def AgreeUpTo (d : Date) (barsBySymbol bars' : BarSet) : Prop :=
  ∀ sym, (barsOf barsBySymbol sym).filter (·.date ≤ d) = (barsOf bars' sym).filter (·.date ≤ d)

/-- The strategy takes a symbol without bars for one that is not there. -/
def LooksUp (weightFn : WeightFn) : Prop :=
  ∀ barsBySymbol bars' : BarSet, (∀ sym, barsOf barsBySymbol sym = barsOf bars' sym) →
    weightFn barsBySymbol = weightFn bars'

/-- The dates and the two curves, up to a day. -/
def BacktestResult.upTo (r : BacktestResult) (d : Date) : List (Date × Decimal × Decimal) :=
  (r.dates.zip (r.equity.zip r.benchmarkEquity)).filter fun p => p.1 ≤ d

section Agree

variable {d day : Date} {barsBySymbol bars' : BarSet} {weightFn : WeightFn} {sym : String}

/-- The bars up to the day that a test picks out. -/
theorem AgreeUpTo.filter_eq (h : AgreeUpTo d barsBySymbol bars') {p : Bar → Bool}
    (hp : ∀ b, p b = true → b.date ≤ d) (sym : String) :
    (barsOf barsBySymbol sym).filter p = (barsOf bars' sym).filter p := by
  have hcut : ∀ bars : List Bar, bars.filter p = (bars.filter (·.date ≤ d)).filter p := by
    intro bars
    rw [List.filter_filter]
    refine List.filter_congr fun b _ => ?_
    cases hb : p b with
    | false => rfl
    | true => simpa using hp b hb
  rw [hcut, hcut (barsOf bars' sym), h sym]

/-- What agrees up to a day agrees up to every day before it. -/
theorem AgreeUpTo.of_le (h : AgreeUpTo d barsBySymbol bars') (hday : day ≤ d) :
    AgreeUpTo day barsBySymbol bars' := by
  intro sym
  exact h.filter_eq (fun b hb => (of_decide_eq_true hb).trans hday) sym

theorem AgreeUpTo.closeAt_eq (h : AgreeUpTo d barsBySymbol bars') (hday : day ≤ d) (sym : String) :
    closeAt barsBySymbol sym day = closeAt bars' sym day := by
  refine closeAt_congr ?_
  exact h.filter_eq (fun b hb => (of_decide_eq_true hb).le.trans hday) sym

theorem barsOf_sliceAsof (barsBySymbol : BarSet) (asof : Date) (sym : String) :
    barsOf (sliceAsof barsBySymbol asof) sym =
      (barsOf barsBySymbol sym).filter fun b => b.date ≤ asof := by
  rw [barsOf, sliceAsof, Dict.get?_mapValues, barsOf]
  cases barsBySymbol.get? sym <;> rfl

theorem keys_sliceAsof (barsBySymbol : BarSet) (asof : Date) :
    (sliceAsof barsBySymbol asof).keys = barsBySymbol.keys := by
  rw [sliceAsof, Dict.keys, Dict.mapValues, List.map_map]
  rfl

/-- **A strategy asked on a day** at which the bars agree wants the same. -/
theorem AgreeUpTo.weightFn_eq (h : AgreeUpTo d barsBySymbol bars')
    (hsymbols : barsBySymbol.keys = bars'.keys ∨ LooksUp weightFn) (hday : day ≤ d) :
    weightFn (sliceAsof barsBySymbol day) = weightFn (sliceAsof bars' day) := by
  have hsame : ∀ sym,
      barsOf (sliceAsof barsBySymbol day) sym = barsOf (sliceAsof bars' day) sym := by
    intro sym
    rw [barsOf_sliceAsof, barsOf_sliceAsof]
    exact h.of_le hday sym
  rcases hsymbols with hkeys | hlooks
  · have hkeys' : (sliceAsof barsBySymbol day).keys = (sliceAsof bars' day).keys := by
      rw [keys_sliceAsof, keys_sliceAsof, hkeys]
    refine congrArg weightFn (Dict.ext_get? hkeys' fun sym => ?_)
    by_cases hsym : sym ∈ (sliceAsof barsBySymbol day).keys
    · obtain ⟨bars, hbars⟩ := Dict.mem_keys_iff.mp hsym
      obtain ⟨cut, hcut⟩ := Dict.mem_keys_iff.mp (hkeys' ▸ hsym)
      have heq := hsame sym
      rw [barsOf, barsOf, hbars, hcut] at heq
      rw [hbars, hcut]
      exact congrArg some heq
    · rw [Dict.get?_eq_none_iff.mpr hsym, Dict.get?_eq_none_iff.mpr (hkeys' ▸ hsym)]
  · exact hlooks _ _ hsame

/-- The calendars agree up to the day. -/
theorem AgreeUpTo.calendar_eq (h : AgreeUpTo d barsBySymbol bars') (benchmark : String) :
    (benchmarkCalendar barsBySymbol benchmark).filter (· ≤ d) =
      (benchmarkCalendar bars' benchmark).filter (· ≤ d) := by
  rw [benchmarkCalendar, benchmarkCalendar, ← calendar_filter, ← calendar_filter]
  exact congrArg (fun bars => calendar (closeMap bars)) (h benchmark)

variable {benchmark : String} {costRate bench0 : Decimal}

/-- A step to a day at which the bars agree. -/
theorem AgreeUpTo.step_eq (h : AgreeUpTo d barsBySymbol bars')
    (hsymbols : barsBySymbol.keys = bars'.keys ∨ LooksUp weightFn) {walk : Walk}
    (hprev : walk.prevDay ≤ d) (hday : day ≤ d) :
    walk.step barsBySymbol (closeMaps barsBySymbol) weightFn benchmark costRate bench0 day =
      walk.step bars' (closeMaps bars') weightFn benchmark costRate bench0 day := by
  have hmove : ∀ sym, move (closeMaps barsBySymbol) sym walk.prevDay day =
      move (closeMaps bars') sym walk.prevDay day := by
    intro sym
    have hcPrev := h.closeAt_eq hprev sym
    have hcNow := h.closeAt_eq hday sym
    unfold closeAt at hcPrev hcNow
    rw [move, move, hcPrev, hcNow]
  have hclose := h.closeAt_eq hday benchmark
  unfold closeAt at hclose
  simp only [Walk.step, hmove, hclose, h.weightFn_eq hsymbols hday]

/-- A walk through days at which the bars agree: the day it has come to is one of them. -/
theorem AgreeUpTo.run_eq (h : AgreeUpTo d barsBySymbol bars')
    (hsymbols : barsBySymbol.keys = bars'.keys ∨ LooksUp weightFn) {walk : Walk}
    (hprev : walk.prevDay ≤ d) {days : List Date} (hdays : ∀ day ∈ days, day ≤ d) :
    run (Walk.step barsBySymbol (closeMaps barsBySymbol) weightFn benchmark costRate bench0) walk
        days =
      run (Walk.step bars' (closeMaps bars') weightFn benchmark costRate bench0) walk days := by
  induction days generalizing walk with
  | nil => rfl
  | cons day days ih =>
    have hday : day ≤ d := hdays day List.mem_cons_self
    rw [run_cons, run_cons, h.step_eq hsymbols hprev hday]
    exact ih hday fun day' hmem => hdays day' (List.mem_cons_of_mem day hmem)

end Agree

/-- A list in order is what is at most `d`, and what is later. -/
theorem filter_append_of_pairwise {days : List Date} (h : days.Pairwise (· < ·)) (d : Date) :
    ∃ later, days = days.filter (· ≤ d) ++ later ∧ ∀ day ∈ later, d < day := by
  induction days with
  | nil => exact ⟨[], rfl, by simp⟩
  | cons day days ih =>
    rw [List.pairwise_cons] at h
    obtain ⟨later, heq, hlater⟩ := ih h.2
    by_cases hday : day ≤ d
    · refine ⟨later, ?_, hlater⟩
      rw [List.filter_cons_of_pos (by simpa using hday), List.cons_append, ← heq]
    · -- a day that is later has only later ones after it
      refine ⟨day :: days, ?_, ?_⟩
      · have hnone : days.filter (· ≤ d) = [] := by
          refine List.filter_eq_nil_iff.mpr fun day' hmem => ?_
          have hlt := h.1 day' hmem
          simp only [decide_eq_true_eq, not_le]
          exact (not_le.mp hday).trans hlt
        rw [List.filter_cons_of_neg (by simpa using hday), hnone, List.nil_append]
      · intro day' hmem
        rcases List.mem_cons.mp hmem with rfl | hmem
        · exact not_le.mp hday
        · exact (not_le.mp hday).trans (h.1 day' hmem)

/-- The part of two curves that belongs to the dates up to a day. -/
theorem BacktestResult.upTo_eq_zip {r : BacktestResult} {d : Date} {before later : List Date}
    {eq eq' bench bench' : List Decimal} (hdates : r.dates = before ++ later)
    (hequity : r.equity = eq ++ eq') (hbenchmark : r.benchmarkEquity = bench ++ bench')
    (heq : eq.length = before.length) (hbench : bench.length = before.length)
    (hbefore : ∀ day ∈ before, day ≤ d) (hlater : ∀ day ∈ later, d < day) :
    r.upTo d = before.zip (eq.zip bench) := by
  have hlen : eq.length = bench.length := by omega
  have hzip : before.length = (eq.zip bench).length := by
    rw [List.length_zip]
    omega
  rw [BacktestResult.upTo, hdates, hequity, hbenchmark, List.zip_append hlen,
    List.zip_append hzip, List.filter_append]
  have hall : (before.zip (eq.zip bench)).filter (fun p => p.1 ≤ d) =
      before.zip (eq.zip bench) := by
    refine List.filter_eq_self.mpr fun p hp => ?_
    simpa using hbefore p.1 (List.of_mem_zip hp).1
  have hnone : (later.zip (eq'.zip bench')).filter (fun p => p.1 ≤ d) = [] := by
    refine List.filter_eq_nil_iff.mpr fun p hp => ?_
    simpa using hlater p.1 (List.of_mem_zip hp).1
  rw [hall, hnone, List.append_nil]

theorem BacktestResult.upTo_eq_nil {r : BacktestResult} {d : Date}
    (h : ∀ day ∈ r.dates, d < day) : r.upTo d = [] := by
  refine List.filter_eq_nil_iff.mpr fun p hp => ?_
  simpa using h p.1 (List.of_mem_zip hp).1

/-- **The past of a result** is what the walk had when it came to the days that are later. -/
theorem upTo_summarize {barsBySymbol : BarSet} {closes : Dict String (Dict Date Decimal)}
    {weightFn : WeightFn} {benchmark : String} {costRate bench0 : Decimal} {d : Date}
    {before later : List Date} {step : Walk → Date → Walk} {walk : Walk}
    (hstep : step = Walk.step barsBySymbol closes weightFn benchmark costRate bench0)
    (hequity : walk.eqCurve.length = before.length)
    (hbench : walk.benchCurve.length = before.length)
    (hbefore : ∀ day ∈ before, day ≤ d) (hlater : ∀ day ∈ later, d < day) :
    (summarize (before ++ later) (run step walk later)).upTo d =
      before.zip (walk.eqCurve.zip walk.benchCurve) := by
  obtain ⟨eq, bench, -, -, hrun, hrun'⟩ := exists_run_curves hstep walk later
  exact BacktestResult.upTo_eq_zip rfl hrun hrun' hequity hbench hbefore hlater

/-- The walk through the days of the past, and the curves it has then. -/
theorem length_curves_run {barsBySymbol : BarSet} {closes : Dict String (Dict Date Decimal)}
    {weightFn : WeightFn} {benchmark : String} {costRate bench0 : Decimal}
    {step : Walk → Date → Walk}
    (hstep : step = Walk.step barsBySymbol closes weightFn benchmark costRate bench0)
    (first : Date) (days : List Date) :
    (run step (Walk.seed barsBySymbol weightFn first) days).eqCurve.length =
        (first :: days).length ∧
      (run step (Walk.seed barsBySymbol weightFn first) days).benchCurve.length =
        (first :: days).length := by
  obtain ⟨eq, bench, heq, hbench, hrun, hrun'⟩ :=
    exists_run_curves hstep (Walk.seed barsBySymbol weightFn first) days
  rw [hrun, hrun', List.length_append, List.length_append, heq, hbench, List.length_cons]
  exact ⟨Nat.add_comm 1 _, Nat.add_comm 1 _⟩

/-- **Two runs have the same past**: bars that agree up to a day give the same curves up to that
day, over the same symbols, or for a strategy that takes a symbol without bars for one that is not
there. -/
theorem upTo_eq_of_agreeUpTo {barsBySymbol bars' : BarSet} {weightFn : WeightFn}
    {benchmark : String} {costBps : Decimal} {d : Date} {r r' : BacktestResult}
    (hagree : AgreeUpTo d barsBySymbol bars')
    (hsymbols : barsBySymbol.keys = bars'.keys ∨ LooksUp weightFn)
    (hr : runBacktest barsBySymbol weightFn benchmark costBps = .ok r)
    (hr' : runBacktest bars' weightFn benchmark costBps = .ok r') : r.upTo d = r'.upTo d := by
  obtain ⟨first, days, bench0, -, -, hcal, hclose, rfl⟩ := runBacktest_eq_ok hr
  obtain ⟨first', days', bench0', -, -, hcal', hclose', rfl⟩ := runBacktest_eq_ok hr'
  have hpast := hagree.calendar_eq benchmark
  have hpw : (first :: days).Pairwise (· < ·) := hcal ▸ pairwise_calendar _
  have hpw' : (first' :: days').Pairwise (· < ·) := hcal' ▸ pairwise_calendar _
  obtain ⟨later, hsplit, hlater⟩ := filter_append_of_pairwise hpw d
  obtain ⟨later', hsplit', hlater'⟩ := filter_append_of_pairwise hpw' d
  rw [hcal, hcal'] at hpast
  rw [← hpast] at hsplit'
  have hbefore : ∀ day ∈ (first :: days).filter (· ≤ d), day ≤ d := by
    intro day hmem
    simpa using (List.mem_filter.mp hmem).2
  -- the past may be empty: then there is nothing to compare
  generalize (first :: days).filter (· ≤ d) = past at hsplit hsplit' hbefore
  cases past with
  | nil =>
    rw [List.nil_append] at hsplit hsplit'
    rw [BacktestResult.upTo_eq_nil (hsplit ▸ hlater : ∀ day ∈ first :: days, d < day),
      BacktestResult.upTo_eq_nil (hsplit' ▸ hlater' : ∀ day ∈ first' :: days', d < day)]
  | cons head before =>
    rw [List.cons_append] at hsplit hsplit'
    obtain ⟨hhead, rfl⟩ := List.cons.inj hsplit
    obtain ⟨hhead', rfl⟩ := List.cons.inj hsplit'
    subst first first'
    have hle : head ≤ d := hbefore head List.mem_cons_self
    have hbench : bench0 = bench0' := by
      rw [hagree.closeAt_eq hle benchmark, hclose'] at hclose
      exact (Option.some.inj hclose).symm
    subst hbench
    have hseed : Walk.seed barsBySymbol weightFn head = Walk.seed bars' weightFn head := by
      rw [Walk.seed, Walk.seed, hagree.weightFn_eq hsymbols hle]
    have hwalk : run (Walk.step barsBySymbol (closeMaps barsBySymbol) weightFn benchmark
          (costBps / 10000) bench0) (Walk.seed barsBySymbol weightFn head) before =
        run (Walk.step bars' (closeMaps bars') weightFn benchmark (costBps / 10000) bench0)
          (Walk.seed bars' weightFn head) before := by
      rw [← hseed]
      exact hagree.run_eq hsymbols hle fun day hmem =>
        hbefore day (List.mem_cons_of_mem head hmem)
    obtain ⟨hequity, hbench⟩ := length_curves_run (rfl : Walk.step bars' (closeMaps bars')
      weightFn benchmark (costBps / 10000) bench0 = _) head before
    rw [run_append, run_append, ← List.cons_append, ← List.cons_append, hwalk]
    rw [upTo_summarize rfl hequity hbench hbefore hlater,
      upTo_summarize rfl hequity hbench hbefore hlater']

/-- Equal weights for all the symbols there are. -/
def equalWeights : WeightFn := fun bars => bars.mapValues fun _ => 1 / bars.keys.length

/-- Three days of a benchmark. -/
def benchmarkAlone : Dict String (Dict Date Decimal) :=
  ⟨[("SPY", ⟨[(0, 100), (1, 110), (2, 121)], by decide⟩)], by decide⟩

/-- The same, with another third day. -/
def benchmarkFalls : Dict String (Dict Date Decimal) :=
  ⟨[("SPY", ⟨[(0, 100), (1, 110), (2, 55)], by decide⟩)], by decide⟩

theorem upTo_eq_of_agreeUpTo_falls :
    ∃ r r', runBacktest (daily benchmarkAlone) equalWeights "SPY" 5 = .ok r ∧
      runBacktest (daily benchmarkFalls) equalWeights "SPY" 5 = .ok r' ∧
      r.equity ≠ r'.equity ∧ r.upTo 1 = r'.upTo 1 := by
  have halone : runBacktest (daily benchmarkAlone) equalWeights "SPY" 5 = .ok _ :=
    runBacktest_daily (by decide) rfl rfl (by decide) rfl (by decide)
  have hfalls : runBacktest (daily benchmarkFalls) equalWeights "SPY" 5 = .ok _ :=
    runBacktest_daily (by decide) rfl rfl (by decide) rfl (by decide)
  have hagree : AgreeUpTo 1 (daily benchmarkAlone) (daily benchmarkFalls) := by
    intro sym
    by_cases hspy : sym = "SPY"
    · subst hspy
      rfl
    simp [barsOf, daily, benchmarkAlone, benchmarkFalls, Dict.get?, List.lookup_cons,
      beq_eq_false_iff_ne.mpr hspy]
  refine ⟨_, _, halone, hfalls, by decide +kernel, ?_⟩
  exact upTo_eq_of_agreeUpTo hagree (Or.inl rfl) halone hfalls

/-! ### Symbols that come later -/

/-- The same, and a symbol that is listed on the third day. -/
def withLateListing : Dict String (Dict Date Decimal) :=
  ⟨[("SPY", ⟨[(0, 100), (1, 110), (2, 121)], by decide⟩), ("NEW", ⟨[(2, 7)], by decide⟩)],
    by decide⟩

theorem agreeUpTo_withLateListing : AgreeUpTo 1 (daily benchmarkAlone) (daily withLateListing) := by
  intro sym
  by_cases hspy : sym = "SPY"
  · subst hspy
    rfl
  by_cases hnew : sym = "NEW"
  · subst hnew
    rfl
  simp [barsOf, daily, benchmarkAlone, withLateListing, Dict.get?, List.lookup_cons,
    beq_eq_false_iff_ne.mpr hspy, beq_eq_false_iff_ne.mpr hnew]

/-- **A strategy that looks at the symbols sees what will be listed.** -/
theorem not_forall_upTo_eq_of_agreeUpTo :
    ¬∀ (weightFn : WeightFn) (barsBySymbol bars' : BarSet) (benchmark : String)
      (costBps : Decimal) (d : Date) (r r' : BacktestResult),
      d ∈ benchmarkCalendar barsBySymbol benchmark → AgreeUpTo d barsBySymbol bars' →
        runBacktest barsBySymbol weightFn benchmark costBps = .ok r →
          runBacktest bars' weightFn benchmark costBps = .ok r' → r.upTo d = r'.upTo d := by
  intro h
  have halone : runBacktest (daily benchmarkAlone) equalWeights "SPY" 0 = .ok _ :=
    runBacktest_daily (by decide) rfl rfl (by decide) rfl (by decide)
  have hlate : runBacktest (daily withLateListing) equalWeights "SPY" 0 = .ok _ :=
    runBacktest_daily (by decide) rfl rfl (by decide) rfl (by decide)
  have hday : (1 : Date) ∈ benchmarkCalendar (daily benchmarkAlone) "SPY" :=
    mem_calendar.mpr ⟨⟨"SPY", midnight 1, 110, 110, 110, 110, 0, none⟩, by decide, by decide⟩
  have hsame := h _ _ _ _ _ 1 _ _ hday agreeUpTo_withLateListing halone hlate
  exact absurd hsame (by decide +kernel)

end Backtest

end TradingPlatform
