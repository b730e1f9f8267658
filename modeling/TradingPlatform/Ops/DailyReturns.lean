import TradingPlatform.Ops.PerformanceStatistics
import TradingPlatform.StableSort

/-!
# Rows within a day

A snapshot is written every minute, so a day has many rows, and its return should be that of its
last row over the last row of the day before: a row within a day should make no difference.

It makes one to every statistic. `TradingPlatform.returns_insert_iff` says when a row leaves the
returns alone that the statistics are made from: for a sleeve only if its value does not count or is
the only one, and for the account if it is hidden between the rows next to it
(`TradingPlatform.Hidden`).
-/

namespace TradingPlatform

/-- The rows that the dashboard and the manager look back to. -/
def fourWeeks (rows : List EquityRow) (now : Time) : List EquityRow :=
  queryEquityHistory rows (now - 28 * microsPerDay)

/-! ### Sleeves -/

section Sleeves

variable {a b : List EquityRow} {x : EquityRow} {now : Time}

/-- A row that is too old is not seen. -/
theorem fourWeeks_insert_of_lt (h : x.ts < now - 28 * microsPerDay) :
    fourWeeks (a ++ x :: b) now = fourWeeks (a ++ b) now := by
  have hold : ¬decide (now - 28 * microsPerDay ≤ x.ts) = true := by
    rw [decide_eq_true_eq]
    exact not_le.mpr h
  rw [fourWeeks, queryEquityHistory, List.filter_append, List.filter_cons, if_neg hold,
    ← List.filter_append]
  rfl

theorem fourWeeks_insert (h : now - 28 * microsPerDay ≤ x.ts) :
    fourWeeks (a ++ x :: b) now = fourWeeks a now ++ x :: fourWeeks b now := by
  rw [fourWeeks, queryEquityHistory, List.filter_append, List.filter_cons,
    if_pos (decide_eq_true h)]
  rfl

theorem fourWeeks_append : fourWeeks (a ++ b) now = fourWeeks a now ++ fourWeeks b now :=
  List.filter_append a b

theorem equitySeries_append (agentId : AgentId) :
    equitySeries (a ++ b) agentId = equitySeries a agentId ++ equitySeries b agentId :=
  List.filterMap_append

/-- A row makes no difference to a sleeve: it is too old, its value does not count, or no other
value does. -/
def EquityUnseen (now : Time) (a : List EquityRow) (x : EquityRow) (b : List EquityRow)
    (agentId : AgentId) : Prop :=
  x.ts < now - 28 * microsPerDay ∨ counted (x.equity agentId) = none ∨
    equitySeries (fourWeeks (a ++ b) now) agentId = []

/-- Where every pair of values gives a return, a value more is a return more. -/
theorem adjacent_insert_iff_nil {f : Decimal → Decimal → Option Decimal} {l l' : List Decimal}
    {v : Decimal} (hf : ∀ p ∈ l ++ v :: l', ∀ q, (f p q).isSome) :
    adjacent f (l ++ v :: l') = adjacent f (l ++ l') ↔ l ++ l' = [] := by
  have hlen : ∀ p ∈ l ++ v :: l', ∀ q, ((f p q).toList).length = 1 := by
    intro p hp q
    obtain ⟨r, hr⟩ := Option.isSome_iff_exists.mp (hf p hp q)
    rw [hr, Option.toList_some, List.length_singleton]
  have hv : v ∈ l ++ v :: l' := by simp
  rw [adjacent_insert_iff]
  rcases hlast : l.getLast? with _ | p
  · rw [List.getLast?_eq_none_iff.mp hlast]
    cases l' with
    | nil => simp
    | cons q l' =>
      have hvq := hlen v hv q
      refine iff_of_false (fun hc => ?_) (List.cons_ne_nil q l')
      rw [List.head?_cons, none_between, none_between, List.nil_append, between_some] at hc
      rw [hc, List.length_nil] at hvq
      omega
  · have hp : p ∈ l := List.mem_of_getLast? hlast
    have hpv := hlen p (List.mem_append_left _ hp) v
    refine iff_of_false (fun hc => ?_) fun hc => ?_
    · have hsum := congrArg List.length hc
      cases l' with
      | nil =>
        rw [List.head?_nil, between_none, between_none, List.append_nil, between_some, hpv,
          List.length_nil] at hsum
        omega
      | cons q l' =>
        rw [List.head?_cons, between_some, between_some, between_some, List.length_append, hpv,
          hlen v hv q, hlen p (List.mem_append_left _ hp) q] at hsum
        omega
    · rw [(List.append_eq_nil_iff.mp hc).1] at hp
      exact absurd hp List.not_mem_nil

theorem pos_of_mem_equitySeries {history : List EquityRow} {agentId : AgentId} {v : Decimal}
    (h : v ∈ equitySeries history agentId) : 0 < v := by
  obtain ⟨row, -, hrow⟩ := List.mem_filterMap.mp h
  simpa using (Option.filter_eq_some_iff.mp hrow).2

/-- The dashboard and the manager take the same returns. -/
theorem pointReturns_eq_dailyReturns (rows : List EquityRow) (now : Time) (agentId : AgentId) :
    pointReturns rows (now - 28 * microsPerDay) agentId =
      dailyReturns (fourWeeks rows now) agentId :=
  adjacent_congr fun _ hv _ => if_pos (pos_of_mem_equitySeries hv)

/-- **When a row leaves the returns of a sleeve alone.** -/
theorem dailyReturns_insert_iff (agentId : AgentId) :
    dailyReturns (fourWeeks (a ++ x :: b) now) agentId =
        dailyReturns (fourWeeks (a ++ b) now) agentId ↔ EquityUnseen now a x b agentId := by
  rcases lt_or_ge x.ts (now - 28 * microsPerDay) with hold | hnew
  · rw [fourWeeks_insert_of_lt hold]
    exact iff_of_true rfl (.inl hold)
  · have hseries : equitySeries (fourWeeks (a ++ x :: b) now) agentId =
        equitySeries (fourWeeks a now) agentId ++ ((counted (x.equity agentId)).toList ++
          equitySeries (fourWeeks b now) agentId) := by
      rw [fourWeeks_insert hnew, equitySeries_append]
      cases hx : counted (x.equity agentId) <;> simp [equitySeries, hx]
    have hwithout : equitySeries (fourWeeks (a ++ b) now) agentId =
        equitySeries (fourWeeks a now) agentId ++ equitySeries (fourWeeks b now) agentId := by
      rw [fourWeeks_append, equitySeries_append]
    rw [EquityUnseen, or_iff_right (not_lt.mpr hnew), dailyReturns, dailyReturns, hseries,
      hwithout]
    cases hx : counted (x.equity agentId) with
    | none => simp
    | some v =>
      rw [Option.toList_some, List.singleton_append, adjacent_insert_iff_nil fun _ _ _ => rfl]
      simp

end Sleeves

/-! ### The account -/

/-- **A row is hidden** between the one before it and the one after it: it is of the day of the
one, or is the same as the other. -/
def Hidden (before after : Option (Date × Decimal)) (row : Date × Decimal) : Prop :=
  (∀ p ∈ before, p.1 = row.1 ∨ after = some row) ∧ (∀ q ∈ after, q.1 = row.1 ∨ before = some row)

/-- A row makes no difference to the account: it is too old, its value does not count, or it is
hidden and does not make two rows of one. -/
def NavUnseen (now : Time) (a : List EquityRow) (x : EquityRow) (b : List EquityRow) : Prop :=
  x.ts < now - 28 * microsPerDay ∨ ∀ row ∈ navRow x,
    (navRows (fourWeeks (a ++ b) now)).length ≠ 1 ∧
      Hidden (navRows (fourWeeks a now)).getLast? (navRows (fourWeeks b now)).head? row

theorem overnight_of_eq {p q : Date × Decimal} (h : p.1 = q.1) : overnight p q = none := if_pos h

theorem overnight_of_ne {p q : Date × Decimal} (h : p.1 ≠ q.1) :
    overnight p q = some (q.1, (q.2 - p.2) / p.2) := if_neg h

/-- A row that is hidden makes no return and changes none, and one that is not does. -/
theorem between_overnight_iff {before after : Option (Date × Decimal)} {row : Date × Decimal}
    (hbefore : ∀ p ∈ before, p.1 ≤ row.1 ∧ 0 < p.2) (hrow : 0 < row.2)
    (hafter : ∀ q ∈ after, row.1 ≤ q.1 ∧ 0 < q.2) :
    between overnight before (some row) ++ between overnight (some row) after =
      between overnight before after ↔ Hidden before after row := by
  obtain ⟨d, v⟩ := row
  rcases before with _ | ⟨dp, vp⟩
  · rcases after with _ | ⟨dq, vq⟩
    · simp [Hidden]
    · by_cases hq : d = dq <;> simp [Hidden, overnight, hq, eq_comm]
  · obtain ⟨hpd, hvp⟩ := hbefore _ rfl
    rcases after with _ | ⟨dq, vq⟩
    · by_cases hp : dp = d <;> simp [Hidden, overnight, hp]
    · obtain ⟨hdq, hvq⟩ := hafter _ rfl
      simp only at hpd hdq hvp hvq hrow
      simp only [between_some, Hidden, Option.mem_some_iff, forall_eq', Option.some_inj,
        Prod.mk.injEq]
      by_cases hp : dp = d
      · subst hp
        by_cases hq : dp = dq
        · subst hq
          simp [overnight]
        · -- the row is the last of its day
          have hval : (vq - v) / v = (vq - vp) / vp ↔ vp = v := by
            rw [div_eq_div_iff hrow.ne' hvp.ne']
            constructor
            · intro h
              have hmul : vq * vp = vq * v := by linarith
              exact mul_left_cancel₀ hvq.ne' hmul
            · rintro rfl
              rfl
          simp [overnight, hq, Ne.symm hq, hval]
      · by_cases hq : d = dq
        · -- the row is the first of its day
          subst hq
          have hval : (v - vp) / vp = (vq - vp) / vp ↔ vq = v := by
            rw [div_left_inj' hvp.ne', sub_left_inj, eq_comm]
          simp [overnight, hp, hval]
        · have hlt : dp < dq := lt_of_le_of_ne (hpd.trans hdq) fun hc =>
            hp (le_antisymm hpd (hdq.trans_eq hc.symm))
          simp [overnight, hp, hq, hlt.ne, Ne.symm hq]

theorem mem_navRows {history : List EquityRow} {e : Date × Decimal} (h : e ∈ navRows history) :
    0 < e.2 ∧ ∃ row ∈ history, e.1 = row.ts.date := by
  obtain ⟨row, hmem, hrow⟩ := List.mem_filterMap.mp h
  obtain ⟨nav, hnav, rfl⟩ := Option.map_eq_some_iff.mp hrow
  exact ⟨by simpa using (Option.filter_eq_some_iff.mp hnav).2, row, hmem, rfl⟩

/-- The days of the rows do not go back. -/
theorem pairwise_navRows {history : List EquityRow}
    (h : history.Pairwise fun row row' => row.ts ≤ row'.ts) :
    (navRows history).Pairwise fun e e' => e.1 ≤ e'.1 := by
  refine (List.pairwise_filterMap.mpr (h.imp fun hle e he e' he' => ?_))
  obtain ⟨nav, -, rfl⟩ := Option.map_eq_some_iff.mp he
  obtain ⟨nav', -, rfl⟩ := Option.map_eq_some_iff.mp he'
  exact Time.date_mono hle

/-- A day has one return. -/
theorem pairwise_overnight {rows : List (Date × Decimal)}
    (h : rows.Pairwise fun e e' => e.1 ≤ e'.1) :
    (adjacent overnight rows).Pairwise (fun e e' => e.1 < e'.1) ∧
      ∀ e ∈ adjacent overnight rows, ∀ first ∈ rows.head?, first.1 < e.1 := by
  induction rows with
  | nil => exact ⟨.nil, fun e he => absurd he List.not_mem_nil⟩
  | cons first rows ih =>
    obtain ⟨hfirst, hrows⟩ := List.pairwise_cons.mp h
    obtain ⟨hpair, hlater⟩ := ih hrows
    cases rows with
    | nil => exact ⟨.nil, fun e he => absurd he List.not_mem_nil⟩
    | cons second rows =>
      have hle : first.1 ≤ second.1 := hfirst second List.mem_cons_self
      rw [adjacent_cons, List.head?_cons, between_some]
      by_cases hday : first.1 = second.1
      · rw [overnight_of_eq hday, Option.toList_none, List.nil_append]
        refine ⟨hpair, fun e he f hf => ?_⟩
        obtain rfl := Option.some.inj hf
        exact hday ▸ hlater e he second rfl
      · rw [overnight_of_ne hday, Option.toList_some, List.singleton_append]
        have hlt : first.1 < second.1 := lt_of_le_of_ne hle hday
        refine ⟨List.pairwise_cons.mpr ⟨fun e he => hlater e he second rfl, hpair⟩, ?_⟩
        intro e he f hf
        obtain rfl := Option.some.inj hf
        rcases List.mem_cons.mp he with rfl | he
        · exact hlt
        · exact hlt.trans (hlater e he second rfl)

/-- The returns by day are the returns from row to row. -/
theorem portDaily_eq {history : List EquityRow}
    (h : history.Pairwise fun row row' => row.ts ≤ row'.ts) (hlen : 2 ≤ (navRows history).length) :
    ∃ daily, portDaily history = some daily ∧
      daily.entries = adjacent overnight (navRows history) := by
  refine ⟨_, if_neg (not_lt.mpr hlen), ?_⟩
  have hkeys := (pairwise_overnight (pairwise_navRows h)).1
  refine (Dict.entries_foldl_set (fun _ _ => List.not_mem_nil) ?_).trans ?_
  · exact List.pairwise_map.mpr (hkeys.imp fun hlt => hlt.ne)
  · simp [Dict.empty]

/-- **When a row leaves the returns of the account alone.** -/
theorem portDaily_insert_iff {a b : List EquityRow} {x : EquityRow} {now : Time}
    (h : (a ++ x :: b).Pairwise fun row row' => row.ts ≤ row'.ts) :
    portDaily (fourWeeks (a ++ x :: b) now) = portDaily (fourWeeks (a ++ b) now) ↔
      NavUnseen now a x b := by
  rcases lt_or_ge x.ts (now - 28 * microsPerDay) with hold | hnew
  · rw [fourWeeks_insert_of_lt hold]
    exact iff_of_true rfl (.inl hold)
  · have hsorted : (fourWeeks (a ++ x :: b) now).Pairwise fun row row' => row.ts ≤ row'.ts :=
      h.filter _
    have hsorted' : (fourWeeks (a ++ b) now).Pairwise fun row row' => row.ts ≤ row'.ts :=
      (h.sublist ((List.sublist_cons_self x b).append_left a)).filter _
    have hrows' : navRows (fourWeeks (a ++ b) now) =
        navRows (fourWeeks a now) ++ navRows (fourWeeks b now) := by
      rw [fourWeeks_append, navRows, List.filterMap_append]
      rfl
    rw [NavUnseen, or_iff_right (not_lt.mpr hnew)]
    cases hx : navRow x with
    | none =>
      have hrows : navRows (fourWeeks (a ++ x :: b) now) = navRows (fourWeeks (a ++ b) now) := by
        rw [hrows', fourWeeks_insert hnew, navRows, List.filterMap_append,
          List.filterMap_cons_none hx]
        rfl
      simp [portDaily, hrows]
    | some row =>
      have hrows : navRows (fourWeeks (a ++ x :: b) now) =
          navRows (fourWeeks a now) ++ row :: navRows (fourWeeks b now) := by
        rw [fourWeeks_insert hnew, navRows, List.filterMap_append, List.filterMap_cons_some hx]
        rfl
      have hlen : (navRows (fourWeeks (a ++ x :: b) now)).length =
          (navRows (fourWeeks (a ++ b) now)).length + 1 := by
        rw [hrows, hrows', List.length_append, List.length_append, List.length_cons]
        omega
      simp only [Option.mem_some_iff, forall_eq']
      rcases Nat.lt_or_ge (navRows (fourWeeks (a ++ b) now)).length 2 with hfew | hmany
      · by_cases hone : (navRows (fourWeeks (a ++ b) now)).length = 1
        · -- one row makes no return, and two rows do
          obtain ⟨daily, hdaily, -⟩ := portDaily_eq hsorted (by omega)
          rw [hdaily, portDaily, if_pos hfew]
          exact iff_of_false (Option.some_ne_none daily) fun hc => hc.1 hone
        · have hnone : navRows (fourWeeks (a ++ b) now) = [] :=
            List.length_eq_zero_iff.mp (by omega)
          have hempty := List.append_eq_nil_iff.mp (hrows'.symm.trans hnone)
          rw [portDaily, portDaily, if_pos (by omega), if_pos hfew, hempty.1, hempty.2]
          exact iff_of_true rfl ⟨hone, by simp [Hidden]⟩
      · obtain ⟨daily, hdaily, hentries⟩ := portDaily_eq hsorted (by omega)
        obtain ⟨daily', hdaily', hentries'⟩ := portDaily_eq hsorted' hmany
        have hdict : daily = daily' ↔ daily.entries = daily'.entries :=
          ⟨fun heq => heq ▸ rfl, Dict.eq_of_entries_eq⟩
        have hpair := pairwise_navRows hsorted
        rw [hrows] at hpair
        obtain ⟨-, hright, hcross⟩ := List.pairwise_append.mp hpair
        have hpos : ∀ e ∈ navRows (fourWeeks a now) ++ row :: navRows (fourWeeks b now),
            0 < e.2 := fun e he => (mem_navRows (hrows ▸ he)).1
        have hne : (navRows (fourWeeks (a ++ b) now)).length ≠ 1 := by omega
        rw [and_iff_right hne, hdaily, hdaily', Option.some_inj, hdict, hentries, hentries', hrows,
          hrows', adjacent_insert_iff]
        refine between_overnight_iff ?_ ?_ ?_
        · intro p hp
          have hmem := List.mem_of_getLast? hp
          exact ⟨hcross p hmem row List.mem_cons_self, hpos p (List.mem_append_left _ hmem)⟩
        · exact hpos row (by simp)
        · intro q hq
          have hmem := List.mem_of_head? hq
          exact ⟨(List.pairwise_cons.mp hright).1 q hmem, hpos q (by simp [hmem])⟩

/-! ### What is made from the returns -/

/-- A market with one return, of nothing. -/
def flatOn (day : Date) : List (Date × Decimal) := [(day - 1, 1), (day, 1)]

theorem get?_spyDaily_flatOn (day k : Date) :
    (spyDaily (flatOn day)).get? k = if k = day then some 0 else none := by
  simp [spyDaily, flatOn]

/-- Against a market with one return, the return of that day is what is seen. -/
theorem hitRate_flatOn (day : Date) (daily : Dict Date Decimal) :
    hitRate (some (.ok (flatOn day))) daily =
      (daily.get? day).elim .noOverlap fun p => .over (if 0 < p then 100 else 0) 1 (p * 100) := by
  have hpaired : (daily.entries.filterMap fun e =>
      ((spyDaily (flatOn day)).get? e.1).map fun s => (e.2, s)) =
        (daily.get? day).toList.map fun p => (p, 0) := by
    have hsplit : (daily.entries.filterMap fun e =>
        ((spyDaily (flatOn day)).get? e.1).map fun s => (e.2, s)) =
          (daily.entries.filter fun e => e.1 = day).map fun e => (e.2, 0) := by
      rw [← List.filterMap_eq_map, List.filterMap_filter]
      refine List.filterMap_congr fun e _ => ?_
      rw [get?_spyDaily_flatOn]
      by_cases hday : e.1 = day <;> simp [hday]
    rw [hsplit, Dict.filter_key_eq, List.map_map]
    rfl
  have hlen : ¬(flatOn day).length < 2 := by simp [flatOn]
  simp only [hitRate, if_neg hlen, hpaired]
  cases daily.get? day with
  | none => rfl
  | some p => by_cases hp : 0 < p <;> simp [mean, hp]

/-- **The growth metrics tell apart what they are made from**, if the market may do anything. -/
theorem forall_buildGrowthMetricsV2_iff {history history' : List EquityRow}
    (h : history.Pairwise fun row row' => row.ts ≤ row'.ts)
    (h' : history'.Pairwise fun row row' => row.ts ≤ row'.ts) :
    (∀ spyProvider,
        buildGrowthMetricsV2 history spyProvider = buildGrowthMetricsV2 history' spyProvider) ↔
      portDaily history = portDaily history' := by
  refine ⟨fun hsame => ?_, fun heq spyProvider => ?_⟩
  · have hspy : ∀ spyProvider, (portDaily history).map (hitRate spyProvider) =
        (portDaily history').map (hitRate spyProvider) := by
      intro spyProvider
      have hmap := congrArg (Option.map GrowthMetrics.spy) (hsame spyProvider)
      simpa [buildGrowthMetricsV2, Function.comp_def] using hmap
    rcases Nat.lt_or_ge (navRows history).length 2 with hfew | hmany
    · have hnone : portDaily history = none := if_pos hfew
      have hmap := hspy none
      rw [hnone, Option.map_none, eq_comm, Option.map_eq_none_iff] at hmap
      rw [hnone, hmap]
    · obtain ⟨daily, hdaily, hentries⟩ := portDaily_eq h hmany
      rcases Nat.lt_or_ge (navRows history').length 2 with hfew' | hmany'
      · have hnone : portDaily history' = none := if_pos hfew'
        have hmap := hspy none
        rw [hnone, hdaily, Option.map_none, Option.map_some] at hmap
        exact absurd hmap (Option.some_ne_none _)
      · obtain ⟨daily', hdaily', hentries'⟩ := portDaily_eq h' hmany'
        have hget : ∀ day, daily.get? day = daily'.get? day := by
          intro day
          have hday := hspy (some (.ok (flatOn day)))
          rw [hdaily, hdaily', Option.map_some, Option.map_some, Option.some_inj, hitRate_flatOn,
            hitRate_flatOn] at hday
          cases hp : daily.get? day with
          | none => cases hp' : daily'.get? day with
            | none => rfl
            | some p' => rw [hp, hp'] at hday; cases hday
          | some p => cases hp' : daily'.get? day with
            | none => rw [hp, hp'] at hday; cases hday
            | some p' =>
              rw [hp, hp'] at hday
              have hval : p * 100 = p' * 100 := (HitRate.over.inj hday).2.2
              rw [mul_right_cancel₀ (by norm_num) hval]
        rw [hdaily, hdaily', Option.some_inj]
        have hsorted : daily.entries.Pairwise fun e e' => e.1 < e'.1 :=
          hentries ▸ (pairwise_overnight (pairwise_navRows h)).1
        have hsorted' : daily'.entries.Pairwise fun e e' => e.1 < e'.1 :=
          hentries' ▸ (pairwise_overnight (pairwise_navRows h')).1
        exact Dict.eq_of_entries_eq (eq_of_pairwise_lt_of_mem_iff hsorted hsorted' fun e =>
          (Dict.perm_of_get? hget).mem_iff)
  · rw [buildGrowthMetricsV2, buildGrowthMetricsV2, heq]

/-- The ratios of a sleeve are the same: the two of the dashboard, and the one in the manager's
table. -/
structure SameRatios (sqrt : Decimal → Decimal) (calibration : List CalibrationBucket) (now : Time)
    (rows rows' : List EquityRow) (agentId : AgentId) : Prop where
  sharpe : (agentPerformance sqrt calibration rows now agentId).sharpe4w =
    (agentPerformance sqrt calibration rows' now agentId).sharpe4w
  sortino : (agentPerformance sqrt calibration rows now agentId).sortino4w =
    (agentPerformance sqrt calibration rows' now agentId).sortino4w
  tableSortino : (sleeveLine sqrt (fourWeeks rows now) agentId).bind (·.sortino) =
    (sleeveLine sqrt (fourWeeks rows' now) agentId).bind (·.sortino)

theorem length_adjacent {f : Decimal → Decimal → Option Decimal} (hf : ∀ p q, (f p q).isSome)
    (l : List Decimal) : (adjacent f l).length = l.length - 1 := by
  induction l with
  | nil => rfl
  | cons p l ih =>
    rw [adjacent_cons, List.length_append, ih]
    cases l with
    | nil => rfl
    | cons q l =>
      obtain ⟨r, hr⟩ := Option.isSome_iff_exists.mp (hf p q)
      rw [List.head?_cons, between_some, hr, Option.toList_some, List.length_singleton]
      simp only [List.length_cons]
      omega

theorem length_dailyReturns (history : List EquityRow) (agentId : AgentId) :
    (dailyReturns history agentId).length = (equitySeries history agentId).length - 1 :=
  length_adjacent (fun _ _ => rfl) _

/-- What the table says is made from the returns, also where it has no line. -/
theorem bind_sleeveLine (sqrt : Decimal → Decimal) (history : List EquityRow) (agentId : AgentId) :
    (sleeveLine sqrt history agentId).bind (·.sortino) =
      sortino sqrt (dailyReturns history agentId) := by
  have hlen := length_dailyReturns history agentId
  rcases Nat.lt_or_ge (equitySeries history agentId).length 2 with hfew | hmany
  · rw [sleeveLine, if_pos hfew, sortino, if_pos (by omega)]
    rfl
  · rw [sleeveLine, if_neg (not_lt.mpr hmany)]
    rfl

/-- The ratios are made from the returns. -/
theorem sameRatios_of_eq (sqrt : Decimal → Decimal) (calibration : List CalibrationBucket)
    {now : Time} {rows rows' : List EquityRow} {agentId : AgentId}
    (h : dailyReturns (fourWeeks rows now) agentId = dailyReturns (fourWeeks rows' now) agentId) :
    SameRatios sqrt calibration now rows rows' agentId where
  sharpe := by
    simp only [agentPerformance, pointReturns_eq_dailyReturns, h]
  sortino := by
    simp only [agentPerformance, pointReturns_eq_dailyReturns, h]
  tableSortino := by
    rw [bind_sleeveLine, bind_sleeveLine, h]

/-- From fewer than five returns no ratio is made. -/
theorem sameRatios_of_length_lt (sqrt : Decimal → Decimal) (calibration : List CalibrationBucket)
    {now : Time} {rows rows' : List EquityRow} {agentId : AgentId}
    (h : (equitySeries (fourWeeks rows now) agentId).length < 6)
    (h' : (equitySeries (fourWeeks rows' now) agentId).length < 6) :
    SameRatios sqrt calibration now rows rows' agentId := by
  have hlen := length_dailyReturns (fourWeeks rows now) agentId
  have hlen' := length_dailyReturns (fourWeeks rows' now) agentId
  have hfew : (dailyReturns (fourWeeks rows now) agentId).length < 5 := by omega
  have hfew' : (dailyReturns (fourWeeks rows' now) agentId).length < 5 := by omega
  refine ⟨?_, ?_, ?_⟩
  · simp only [agentPerformance, pointReturns_eq_dailyReturns, sharpeRatio, if_pos hfew,
      if_pos hfew']
  · simp only [agentPerformance, pointReturns_eq_dailyReturns, sortinoRatio, if_pos hfew,
      if_pos hfew']
  · rw [bind_sleeveLine, bind_sleeveLine, sortino, sortino, if_pos hfew, if_pos hfew']

theorem length_equitySeries_insert (a : List EquityRow) (x : EquityRow) (b : List EquityRow)
    (now : Time) (agentId : AgentId) :
    (equitySeries (fourWeeks (a ++ b) now) agentId).length ≤
      (equitySeries (fourWeeks (a ++ x :: b) now) agentId).length :=
  ((((List.sublist_cons_self x b).append_left a).filter _).filterMap _).length_le

/-- **What a row does to the statistics.** It leaves the returns of a sleeve alone exactly if it is
not seen, and then its ratios too; they are also the same if there are too few values to make any
from. It leaves the growth metrics alone exactly if it is not seen in the account. -/
theorem returns_insert_iff {a b : List EquityRow} {x : EquityRow}
    (h : (a ++ x :: b).Pairwise fun row row' => row.ts ≤ row'.ts) (now : Time)
    (sqrt : Decimal → Decimal) (calibration : List CalibrationBucket) :
    (∀ agentId,
      (pointReturns (a ++ x :: b) (now - 28 * microsPerDay) agentId =
          pointReturns (a ++ b) (now - 28 * microsPerDay) agentId ↔
        EquityUnseen now a x b agentId) ∧
      (dailyReturns (fourWeeks (a ++ x :: b) now) agentId =
          dailyReturns (fourWeeks (a ++ b) now) agentId ↔ EquityUnseen now a x b agentId) ∧
      (EquityUnseen now a x b agentId ∨
          (equitySeries (fourWeeks (a ++ x :: b) now) agentId).length < 6 →
        SameRatios sqrt calibration now (a ++ x :: b) (a ++ b) agentId)) ∧
    ((∀ spyProvider, buildGrowthMetricsV2 (fourWeeks (a ++ x :: b) now) spyProvider =
        buildGrowthMetricsV2 (fourWeeks (a ++ b) now) spyProvider) ↔ NavUnseen now a x b) := by
  refine ⟨fun agentId => ⟨?_, dailyReturns_insert_iff agentId, ?_⟩, ?_⟩
  · rw [pointReturns_eq_dailyReturns, pointReturns_eq_dailyReturns]
    exact dailyReturns_insert_iff agentId
  · rintro (hunseen | hfew)
    · exact sameRatios_of_eq sqrt calibration ((dailyReturns_insert_iff agentId).mpr hunseen)
    · exact sameRatios_of_length_lt sqrt calibration hfew
        ((length_equitySeries_insert a x b now agentId).trans_lt hfew)
  · have hsub : (a ++ b).Pairwise fun row row' => row.ts ≤ row'.ts :=
      h.sublist ((List.sublist_cons_self x b).append_left a)
    have hgrowth := forall_buildGrowthMetricsV2_iff (h.filter fun row =>
      now - 28 * microsPerDay ≤ row.ts) (hsub.filter fun row => now - 28 * microsPerDay ≤ row.ts)
    exact hgrowth.trans (portDaily_insert_iff h)

/-- A row with one value for the account and every sleeve. -/
def rowAt (ts : Time) (v : Decimal) : EquityRow := ⟨ts, some v, fun _ => some v⟩

/-- Between two rows of a day a third one is not seen in the account. -/
theorem returns_insert_iff_thirdRow :
    buildGrowthMetricsV2 (fourWeeks ([rowAt 0 100, rowAt microsPerDay 120] ++
        rowAt (microsPerDay + 1) 90 :: [rowAt (microsPerDay + 2) 110]) 0) none =
      buildGrowthMetricsV2 (fourWeeks ([rowAt 0 100, rowAt microsPerDay 120] ++
        [rowAt (microsPerDay + 2) 110]) 0) none := by
  refine (returns_insert_iff (by decide) 0 id []).2.mpr (.inr ?_) none
  have hrow : navRow (rowAt (microsPerDay + 1) 90) = some (1, 90) := by decide +kernel
  have hbefore : (navRows (fourWeeks [rowAt 0 100, rowAt microsPerDay 120] 0)).getLast? =
      some (1, 120) := by decide +kernel
  have hafter : (navRows (fourWeeks [rowAt (microsPerDay + 2) 110] 0)).head? =
      some (1, 110) := by decide +kernel
  rw [hrow, hbefore, hafter]
  simp only [Option.mem_some_iff, forall_eq']
  refine ⟨by decide +kernel, ?_, ?_⟩
  · intro p hp
    obtain rfl := Option.some.inj hp
    exact .inl rfl
  · intro q hq
    obtain rfl := Option.some.inj hq
    exact .inl rfl

/-- **A row within a day changes the statistics**: a fall after the opening that is made up for
before the close is reported as the return of the day. -/
theorem not_forall_sameStatistics :
    ¬∀ (sqrt : Decimal → Decimal) (a b : List EquityRow) (x : EquityRow) (now : Time),
      (a ++ x :: b).Pairwise (fun row row' => row.ts ≤ row'.ts) →
      (∃ y ∈ b, y.ts.date = x.ts.date) →
        (∀ agentId, SameRatios sqrt [] now (a ++ x :: b) (a ++ b) agentId) ∧
          ∀ spyProvider, buildGrowthMetricsV2 (fourWeeks (a ++ x :: b) now) spyProvider =
            buildGrowthMetricsV2 (fourWeeks (a ++ b) now) spyProvider := by
  intro h
  have hsame := (h id [rowAt 0 100] [rowAt (microsPerDay + 1) 110] (rowAt microsPerDay 50) 0
    (by decide) ⟨_, List.mem_singleton_self _, by decide⟩).2 none
  exact absurd hsame (by decide +kernel)

end TradingPlatform
