import TradingPlatform.Backtest.Engine

/-!
# A name held through its gaps

A name that is held with weight 1 should bring what its price brings, from the first day to the
last. The walk marks the step between two adjacent days, if there is a close at both, so the move
over a gap – from the last close before missing days to the first one after them – is marked by no
step.

What the steps mark and what they drop make up the whole move
(`TradingPlatform.Backtest.equity_run_mul_prod_dropped`). So the end of the curve is the last
close over the first one exactly if the moves that are dropped multiply to 1
(`TradingPlatform.Backtest.equity_eq_iff`).
-/

namespace TradingPlatform

namespace Backtest

/-! ### The moves that are dropped -/

/-- The moves from close to close that are not between adjacent days, or that start from a
negative close. `last` is the last close seen, and `fresh` tells whether it is of the day before. -/
def dropped (closeOf : Date → Option Decimal) : Decimal → Bool → List Date → List Decimal
  | _, _, [] => []
  | last, fresh, day :: days =>
    match closeOf day with
    | none => dropped closeOf last false days
    | some c =>
      if fresh ∧ 0 < last then dropped closeOf c true days
      else c / last :: dropped closeOf c true days

/-- The last close seen. -/
def lastSeen (closeOf : Date → Option Decimal) (last : Decimal) (days : List Date) : Decimal :=
  days.foldl (fun last day => (closeOf day).getD last) last

/-- The close of a day, if it is not 0. -/
def seenIn (closes : Dict String (Dict Date Decimal)) (sym : String) (day : Date) :
    Option Decimal :=
  (closeIn closes sym day).filter (· ≠ 0)

/-- The moves of a symbol that a walk through a calendar drops. -/
def droppedMoves (barsBySymbol : BarSet) (sym : String) : List Date → List Decimal
  | [] => []
  | first :: days =>
    dropped (seenIn (closeMaps barsBySymbol) sym)
      ((closeAt barsBySymbol sym first).getD 0) true days

/-! ### Holding one name -/

/-- All in one name. -/
def allIn (sym : String) : Dict String Decimal := ⟨[(sym, 1)], by simp⟩

/-- The strategy that always holds one name. -/
def hold (sym : String) : WeightFn := fun _ => allIn sym

theorem turnover_self (weights : Dict String Decimal) : turnover weights weights = 0 := by
  refine List.sum_eq_zero fun x hx => ?_
  obtain ⟨s, -, rfl⟩ := List.mem_map.mp hx
  rw [sub_self, abs_zero]

theorem move_eq (closes : Dict String (Dict Date Decimal)) (sym : String) (prevDay day : Date) :
    move closes sym prevDay day =
      match seenIn closes sym prevDay, seenIn closes sym day with
      | some cPrev, some cNow => if 0 < cPrev then cNow / cPrev - 1 else 0
      | _, _ => 0 := by
  unfold move seenIn
  cases closeIn closes sym prevDay with
  | none => rfl
  | some cPrev =>
    cases closeIn closes sym day with
    | none => by_cases hprev : cPrev = 0 <;> simp [hprev]
    | some cNow => by_cases hprev : cPrev = 0 <;> by_cases hnow : cNow = 0 <;>
      simp [Option.filter, hprev, hnow]

section Hold

variable {barsBySymbol : BarSet} {closes : Dict String (Dict Date Decimal)} {sym benchmark : String}
  {costRate bench0 : Decimal} {step : Walk → Date → Walk}

/-- A step of the strategy that holds one name. Nothing is traded, so there are no costs. -/
theorem step_hold
    (hstep : step = Walk.step barsBySymbol closes (hold sym) benchmark costRate bench0)
    {walk : Walk} (hweights : walk.weights = allIn sym) (day : Date) :
    (step walk day).weights = allIn sym ∧ (step walk day).prevDay = day ∧
      (step walk day).equity = walk.equity * (1 + move closes sym walk.prevDay day) := by
  subst hstep
  refine ⟨?_, rfl, ?_⟩
  · simp [Walk.step, hold, hweights]
  · simp [Walk.step, hold, hweights, turnover_self, allIn]

/-- **What is marked and what is dropped** make up the move from the last close seen before a walk
to the last one seen in it. -/
theorem equity_run_mul_prod_dropped
    (hstep : step = Walk.step barsBySymbol closes (hold sym) benchmark costRate bench0)
    {walk : Walk} (hweights : walk.weights = allIn sym) {last : Decimal} (hlast : last ≠ 0)
    {fresh : Bool} (hfresh : seenIn closes sym walk.prevDay = if fresh then some last else none)
    (days : List Date) :
    (run step walk days).equity * (dropped (seenIn closes sym) last fresh days).prod * last =
      walk.equity * lastSeen (seenIn closes sym) last days := by
  induction days generalizing walk last fresh with
  | nil => simp [dropped, lastSeen]
  | cons day days ih =>
    obtain ⟨hweights', hprev', hequity'⟩ := step_hold hstep hweights day
    rw [move_eq, hfresh] at hequity'
    rw [run_cons, dropped, lastSeen, List.foldl_cons, ← lastSeen]
    cases hday : seenIn closes sym day with
    | none =>
      -- nothing is marked, and the last close seen is no longer fresh
      have hstale : seenIn closes sym (step walk day).prevDay =
          if false then some last else none := by rw [hprev', hday]; rfl
      have hsame : (step walk day).equity = walk.equity := by
        rw [hequity', hday]
        cases fresh <;> simp
      rw [Option.getD_none, ih hweights' hlast hstale, hsame]
    | some c =>
      have hc : c ≠ 0 := by
        have hmem := (Option.filter_eq_some_iff.mp hday).2
        simpa using hmem
      have hnow : seenIn closes sym (step walk day).prevDay =
          if true then some c else none := by rw [hprev', hday]; rfl
      have hih := ih hweights' hc hnow
      rw [Option.getD_some]
      dsimp only
      rw [hday] at hequity'
      by_cases hmark : fresh = true ∧ 0 < last
      · -- the step marks the move
        have hmarked : (step walk day).equity = walk.equity * (c / last) := by
          rw [hequity', hmark.1]
          simp [hmark.2]
        rw [if_pos hmark]
        rw [hmarked] at hih
        refine mul_right_cancel₀ hc ?_
        calc _ = (run step (step walk day) days).equity *
              (dropped (seenIn closes sym) c true days).prod * c * last := by ring
          _ = walk.equity * (c / last) * lastSeen (seenIn closes sym) c days * last := by rw [hih]
          _ = _ := by field_simp
      · -- the step leaves the equity as it is
        have hsame : (step walk day).equity = walk.equity := by
          rw [hequity']
          by_cases hold : fresh = true
          · have hneg : ¬0 < last := fun hpos => hmark ⟨hold, hpos⟩
            simp [hold, hneg]
          · simp [hold]
        rw [if_neg hmark, List.prod_cons, ← hsame, ← hih]
        field_simp

end Hold

/-- The curve ends where the walk is. -/
theorem getLast?_eqCurve {barsBySymbol : BarSet} {closes : Dict String (Dict Date Decimal)}
    {weightFn : WeightFn} {benchmark : String} {costRate bench0 : Decimal}
    {step : Walk → Date → Walk}
    (hstep : step = Walk.step barsBySymbol closes weightFn benchmark costRate bench0)
    (first : Date) (days : List Date) :
    (run step (Walk.seed barsBySymbol weightFn first) days).eqCurve.getLast? =
      some (run step (Walk.seed barsBySymbol weightFn first) days).equity := by
  induction days using List.reverseRecOn with
  | nil => rfl
  | append_singleton days day ih =>
    subst hstep
    rw [run_concat, Walk.step, List.getLast?_concat]

theorem lastSeen_of_getLast? {closeOf : Date → Option Decimal} {last c : Decimal} {day : Date}
    {days : List Date} (hday : days.getLast? = some day) (hc : closeOf day = some c) :
    lastSeen closeOf last days = c := by
  obtain ⟨before, rfl⟩ := List.getLast?_eq_some_iff.mp hday
  rw [lastSeen, List.foldl_append, List.foldl_cons, List.foldl_nil, hc, Option.getD_some]

/-- The end of the walk from the first day, where both closes are there. -/
theorem equity_seed_iff {barsBySymbol : BarSet} {closes : Dict String (Dict Date Decimal)}
    {sym benchmark : String} {costRate bench0 : Decimal} {step : Walk → Date → Walk}
    (hstep : step = Walk.step barsBySymbol closes (hold sym) benchmark costRate bench0)
    {first last : Date} {days : List Date} {cFirst cLast : Decimal}
    (hlast : days.getLast? = some last) (hcFirst : seenIn closes sym first = some cFirst)
    (hcLast : seenIn closes sym last = some cLast) (hpFirst : 0 < cFirst) (hpLast : 0 < cLast) :
    (run step (Walk.seed barsBySymbol (hold sym) first) days).equity = cLast / cFirst ↔
      (dropped (seenIn closes sym) cFirst true days).prod = 1 := by
  have hwhole : (run step (Walk.seed barsBySymbol (hold sym) first) days).equity *
      (dropped (seenIn closes sym) cFirst true days).prod * cFirst =
        1 * lastSeen (seenIn closes sym) cFirst days :=
    equity_run_mul_prod_dropped hstep rfl hpFirst.ne' hcFirst days
  rw [lastSeen_of_getLast? hlast hcLast, one_mul] at hwhole
  rw [eq_div_iff hpFirst.ne']
  constructor
  · intro hend
    have hprod : cLast * (dropped (seenIn closes sym) cFirst true days).prod = cLast * 1 := by
      rw [← hend, mul_right_comm, hwhole, mul_one, hend]
    exact mul_left_cancel₀ hpLast.ne' hprod
  · intro hprod
    rw [← hwhole, hprod, mul_one]

/-- **When a name brings what its price brings**: the benchmark has two days and a close to start
from, and the moves that the walk drops multiply to 1. -/
theorem equity_eq_iff {barsBySymbol : BarSet} {sym benchmark : String} {costBps : Decimal}
    {first last : Date} {cFirst cLast : Decimal}
    (hfirst : (benchmarkCalendar barsBySymbol benchmark).head? = some first)
    (hlast : (benchmarkCalendar barsBySymbol benchmark).getLast? = some last)
    (hcFirst : closeAt barsBySymbol sym first = some cFirst)
    (hcLast : closeAt barsBySymbol sym last = some cLast) (hpFirst : 0 < cFirst)
    (hpLast : 0 < cLast) :
    (∃ r, runBacktest barsBySymbol (hold sym) benchmark costBps = .ok r ∧
        r.equity.getLast? = some (cLast / cFirst)) ↔
      2 ≤ (benchmarkCalendar barsBySymbol benchmark).length ∧
        closeAt barsBySymbol benchmark first ≠ some 0 ∧
        (droppedMoves barsBySymbol sym (benchmarkCalendar barsBySymbol benchmark)).prod = 1 := by
  have hseenFirst : seenIn (closeMaps barsBySymbol) sym first = some cFirst := by
    rw [seenIn, ← closeAt, hcFirst]
    simp [Option.filter, hpFirst.ne']
  have hseenLast : seenIn (closeMaps barsBySymbol) sym last = some cLast := by
    rw [seenIn, ← closeAt, hcLast]
    simp [Option.filter, hpLast.ne']
  obtain ⟨days, hcal⟩ := List.head?_eq_some_iff.mp hfirst
  have hmoves : droppedMoves barsBySymbol sym (first :: days) =
      dropped (seenIn (closeMaps barsBySymbol) sym) cFirst true days := by
    rw [droppedMoves, hcFirst, Option.getD_some]
  have htail : days ≠ [] → days.getLast? = some last := by
    intro hdays
    rwa [hcal, List.getLast?_cons_of_ne_nil hdays] at hlast
  rw [hcal, hmoves]
  constructor
  · rintro ⟨r, hr, hend⟩
    obtain ⟨first', days', bench0, hdays, hzero, hcal', hclose, rfl⟩ := runBacktest_eq_ok hr
    obtain ⟨rfl, rfl⟩ := List.cons.inj (hcal.symm.trans hcal')
    refine ⟨?_, ?_, ?_⟩
    · have hpos := List.length_pos_of_ne_nil hdays
      rw [List.length_cons]
      omega
    · rw [hclose]
      exact fun hc => hzero (Option.some.inj hc)
    · rw [summarize, getLast?_eqCurve rfl, Option.some_inj] at hend
      exact (equity_seed_iff rfl (htail hdays) hseenFirst hseenLast hpFirst hpLast).mp hend
  · rintro ⟨hlen, hbench, hprod⟩
    have hdays : days ≠ [] := by
      rintro rfl
      simp at hlen
    obtain ⟨r, hr⟩ := exists_runBacktest_iff.mpr ⟨first, days, hdays, hcal, hbench⟩
    refine ⟨r, hr, ?_⟩
    obtain ⟨first', days', bench0, -, -, hcal', -, rfl⟩ := runBacktest_eq_ok hr
    obtain ⟨rfl, rfl⟩ := List.cons.inj (hcal.symm.trans hcal')
    rw [summarize, getLast?_eqCurve rfl, Option.some_inj]
    exact (equity_seed_iff rfl (htail hdays) hseenFirst hseenLast hpFirst hpLast).mpr hprod

/-- A name that misses no day has no gap. -/
theorem dropped_eq_nil {closeOf : Date → Option Decimal} {last : Decimal} (hlast : 0 < last)
    {days : List Date} (h : ∀ day ∈ days, ∃ c, closeOf day = some c ∧ 0 < c) :
    dropped closeOf last true days = [] := by
  induction days generalizing last with
  | nil => rfl
  | cons day days ih =>
    obtain ⟨c, hc, hpos⟩ := h day List.mem_cons_self
    rw [dropped, hc]
    dsimp only
    rw [if_pos ⟨rfl, hlast⟩]
    exact ih hpos fun day' hmem => h day' (List.mem_cons_of_mem day hmem)

theorem nodup_threeDays :
    (([(0, 100), (1, 110), (2, 121)] : List (Date × Decimal)).map Prod.fst).Nodup := by decide

/-- A name with a close on every day of the benchmark, and one that misses a day. -/
def withGap : Dict String (Dict Date Decimal) :=
  ⟨[("SPY", ⟨[(0, 100), (1, 110), (2, 121)], nodup_threeDays⟩),
    ("GLD", ⟨[(0, 50), (2, 60)], by decide⟩)], by decide⟩

theorem inOrder_withGap : InOrder withGap := by decide

theorem benchmarkCalendar_withGap : benchmarkCalendar (daily withGap) "SPY" = [0, 1, 2] := by
  rw [benchmarkCalendar_daily inOrder_withGap rfl]
  rfl

/-- The benchmark itself has no gap. -/
theorem equity_eq_iff_withGap :
    ∃ r, runBacktest (daily withGap) (hold "SPY") "SPY" 0 = .ok r ∧
      r.equity.getLast? = some (121 / 100) := by
  have hfirst : (benchmarkCalendar (daily withGap) "SPY").head? = some 0 := by
    rw [benchmarkCalendar_withGap]
    rfl
  have hlast : (benchmarkCalendar (daily withGap) "SPY").getLast? = some 2 := by
    rw [benchmarkCalendar_withGap]
    rfl
  have hcFirst : closeAt (daily withGap) "SPY" 0 = some 100 := by
    rw [closeAt_daily inOrder_withGap]
    rfl
  have hcLast : closeAt (daily withGap) "SPY" 2 = some 121 := by
    rw [closeAt_daily inOrder_withGap]
    rfl
  refine (equity_eq_iff hfirst hlast hcFirst hcLast (by norm_num) (by norm_num)).mpr ⟨?_, ?_, ?_⟩
  · rw [benchmarkCalendar_withGap]
    decide
  · rw [hcFirst]
    decide
  · rw [benchmarkCalendar_withGap, droppedMoves, hcFirst, closeMaps_daily inOrder_withGap]
    decide +kernel

/-- **A move over a gap is lost**: the name gains a fifth, and the curve stays at 1. -/
theorem not_forall_equity_eq :
    ¬∀ (barsBySymbol : BarSet) (sym benchmark : String) (first last : Date)
      (cFirst cLast : Decimal),
      (benchmarkCalendar barsBySymbol benchmark).head? = some first →
      (benchmarkCalendar barsBySymbol benchmark).getLast? = some last →
      closeAt barsBySymbol sym first = some cFirst → closeAt barsBySymbol sym last = some cLast →
      0 < cFirst → 0 < cLast →
        ∃ r, runBacktest barsBySymbol (hold sym) benchmark 0 = .ok r ∧
          r.equity.getLast? = some (cLast / cFirst) := by
  intro h
  have hcal := benchmarkCalendar_withGap
  have hclose : closeAt (daily withGap) = closeIn withGap := closeAt_daily inOrder_withGap
  obtain ⟨r, hr, hend⟩ := h (daily withGap) "GLD" "SPY" 0 2 50 60 (by rw [hcal]; rfl)
    (by rw [hcal]; rfl) (by rw [hclose]; decide) (by rw [hclose]; decide) (by norm_num)
    (by norm_num)
  have hrun : runBacktest (daily withGap) (hold "GLD") "SPY" 0 = .ok _ :=
    runBacktest_daily inOrder_withGap rfl rfl (by decide) rfl (by decide)
  obtain rfl := Except.ok.inj (hrun.symm.trans hr)
  exact absurd hend (by decide +kernel)

end Backtest

end TradingPlatform
