import TradingPlatform.Backtest.Engine

/-!
# The rules-only baselines

The baselines are what the sleeves would do without a model to ask: the same universe, the same
signal, and a rule in place of a judgment. One takes over the functions of the Haiku sleeve, the
other copies the momentum of the Sonnet sleeve.

So a baseline and its sleeve see the same. The trend baseline gives each name that the sleeve finds
in trend its share, and nothing to any other
(`TradingPlatform.Backtest.get?_faberGtaaWeights`). The momentum baseline picks as many names as it
may, or as there are, and no name left out has a higher momentum
(`TradingPlatform.Backtest.sonnetMomentumWeights_spec`).

The order in which the set of the tradable symbols is gone through is left open; names of one
momentum keep it.
-/

namespace TradingPlatform

open Agents

/-! ### What the sleeves compute -/

namespace HaikuAgent

/-- The signal of a name: its last close, its averages and its trend. -/
structure Trend where
  last : Option Decimal
  sma : Option Decimal
  momentum14d : Option Decimal := none
  inTrend : Bool
  deriving DecidableEq

def equityTrend (barsBySymbol : Dict String (List Bar)) (symbol : String) : Trend :=
  let closes := closes barsBySymbol symbol
  let sma := sma closes smaPeriodEquity
  { last := closes.getLast?
    sma
    inTrend :=
      match closes.getLast?, sma with
      | some last, some sma => sma < last
      | _, _ => false }

def cryptoTrend (barsBySymbol : Dict String (List Bar)) (symbol : String) : Trend :=
  let closes := closes barsBySymbol symbol
  let sma := sma closes smaPeriodCrypto
  let mom := momentum closes momentumDays
  { last := closes.getLast?
    sma
    momentum14d := mom
    inTrend :=
      match closes.getLast?, sma, mom with
      | some last, some sma, some mom => sma < last && 0 < mom
      | _, _, _ => false }

theorem nodup_equityUniverse : equityUniverse.Nodup := by decide

theorem nodup_cryptoUniverse : cryptoUniverse.Nodup := by decide

def computeEquityTrend (barsBySymbol : Dict String (List Bar)) : Dict String Trend where
  entries := equityUniverse.map fun symbol => (symbol, equityTrend barsBySymbol symbol)
  nodup := by
    rw [List.map_map, show Prod.fst ∘ (fun symbol => (symbol, equityTrend barsBySymbol symbol)) = id
      from rfl, List.map_id]
    exact nodup_equityUniverse

def computeCryptoTrend (barsBySymbol : Dict String (List Bar)) : Dict String Trend where
  entries := cryptoUniverse.map fun symbol => (symbol, cryptoTrend barsBySymbol symbol)
  nodup := by
    rw [List.map_map, show Prod.fst ∘ (fun symbol => (symbol, cryptoTrend barsBySymbol symbol)) = id
      from rfl, List.map_id]
    exact nodup_cryptoUniverse

/-- The bits of the fingerprint are the trends. -/
theorem inTrend_equityTrend (barsBySymbol : Dict String (List Bar)) (symbol : String) :
    (equityTrend barsBySymbol symbol).inTrend = equityInTrend barsBySymbol symbol := rfl

theorem inTrend_cryptoTrend (barsBySymbol : Dict String (List Bar)) (symbol : String) :
    (cryptoTrend barsBySymbol symbol).inTrend = cryptoInTrend barsBySymbol symbol := by
  rw [cryptoTrend, cryptoInTrend, aboveSma]
  cases (closes barsBySymbol symbol).getLast? with
  | none => rfl
  | some last =>
    cases sma (closes barsBySymbol symbol) smaPeriodCrypto with
    | none => rfl
    | some sma => cases momentum (closes barsBySymbol symbol) momentumDays <;> simp

end HaikuAgent

namespace SonnetAgent

/-- The signal of a name: its last close, its momentum and how many bars there are. -/
structure FactorSignal where
  last : Option Decimal
  momentum121 : Option Decimal
  barCount : ℕ
  deriving DecidableEq

def factorSignal (barsBySymbol : Dict String (List Bar)) (symbol : String) : FactorSignal :=
  let closes := closes barsBySymbol symbol
  { last := closes.getLast?
    momentum121 := priceMomentum closes momentumLookback momentumSkip
    barCount := closes.length }

/-- The signals of the symbols that Sonnet trades, of those there are. -/
def computeFactorSignals (barsBySymbol : Dict String (List Bar)) : Dict String FactorSignal where
  entries := (barsBySymbol.keys.filter (· ∈ tradable)).map fun symbol =>
    (symbol, factorSignal barsBySymbol symbol)
  nodup := by
    rw [List.map_map, show Prod.fst ∘ (fun symbol =>
      (symbol, factorSignal barsBySymbol symbol)) = id from rfl, List.map_id]
    exact barsBySymbol.nodup_keys.filter _

theorem nodup_tradable : tradable.Nodup := by decide +kernel

end SonnetAgent

/-! ### The baselines -/

namespace Backtest

open HaikuAgent in
/-- The rule for one name, from its closes. -/
def gtaaInTrend (symbol : String) (closes : List Decimal) (last : Decimal) : Bool :=
  if symbol ∈ cryptoUniverse then
    match sma closes smaPeriodCrypto, momentum closes momentumDays with
    | some sma, some mom => sma < last && 0 < mom
    | _, _ => false
  else
    match sma closes smaPeriodEquity with
    | some sma => sma < last
    | none => false

open HaikuAgent in
/-- An equal slice of each name in trend, and cash for the rest. -/
def faberGtaaWeights (barsBySymbol : Dict String (List Bar)) (includeCrypto : Bool) :
    Dict String Decimal :=
  let symbols := if includeCrypto then equityUniverse ++ cryptoUniverse else equityUniverse
  let sliceWeight : Decimal := 1 / symbols.length
  symbols.foldl
    (fun weights symbol =>
      let closes := closes barsBySymbol symbol
      match closes.getLast? with
      | none => weights
      | some last =>
        if gtaaInTrend symbol closes last then weights.set symbol sliceWeight else weights)
    .empty

def sonnetMomLookback : ℕ := 252

def sonnetMomSkip : ℕ := 21

/-- The copy of the sleeve's momentum. -/
def priceMomentum (closes : List Decimal) (lookback skip : ℕ) : Option Decimal :=
  let required := lookback + skip
  if closes.length < required then none
  else
    match closes[closes.length - (lookback + skip)]?, closes[closes.length - skip]? with
    | some entry, some exit => if entry = 0 then none else some (exit / entry - 1)
    | _, _ => none

/-- The order in which the set of the tradable symbols is gone through. -/
abbrev TradableOrder := {order : List String // order.Perm SonnetAgent.tradable}

/-- The names with enough history, and their momentum. -/
def candidates (order : TradableOrder) (barsBySymbol : Dict String (List Bar)) :
    List (String × Decimal) :=
  order.1.filterMap fun symbol =>
    if (barsBySymbol.get? symbol).getD [] = [] then none
    else
      (priceMomentum (closes barsBySymbol symbol) sonnetMomLookback sonnetMomSkip).map (symbol, ·)

/-- The names of the highest momentum, `perName` of each. -/
def sonnetMomentumWeights (order : TradableOrder) (barsBySymbol : Dict String (List Bar))
    (topN : ℕ) (perName : Decimal) : Dict String Decimal :=
  let candidates := candidates order barsBySymbol
  if candidates = [] then .empty
  else
    ((candidates.mergeSort fun a b => b.2 ≤ a.2).take topN).foldl
      (fun weights e => weights.set e.1 perName) .empty

/-! ### Trend -/

/-- Giving some of the symbols a weight. -/
theorem get?_foldl_set_of {p : String → Bool} {v : Decimal} {symbols : List String}
    {weights : Dict String Decimal} (k : String) :
    (symbols.foldl (fun weights s => if p s then weights.set s v else weights) weights).get? k =
      if k ∈ symbols ∧ p k = true then some v else weights.get? k := by
  induction symbols generalizing weights with
  | nil => simp
  | cons s symbols ih =>
    rw [List.foldl_cons, ih]
    by_cases hk : k = s
    · subst hk
      cases hp : p k <;> simp
    · cases p s <;> simp [hk]

section Trend

open HaikuAgent

/-- The sleeve marks a symbol as in trend. -/
def marked (barsBySymbol : Dict String (List Bar)) (symbol : String) : Prop :=
  (∃ trend, (computeEquityTrend barsBySymbol).get? symbol = some trend ∧ trend.inTrend = true) ∨
    ∃ trend, (computeCryptoTrend barsBySymbol).get? symbol = some trend ∧ trend.inTrend = true

theorem get?_of_map {β : Type*} {symbols : List String} {f : String → β}
    {hnd : ((symbols.map fun s => (s, f s)).map Prod.fst).Nodup} {symbol : String} {b : β} :
    (⟨symbols.map fun s => (s, f s), hnd⟩ : Dict String β).get? symbol = some b ↔
      symbol ∈ symbols ∧ f symbol = b := by
  rw [Dict.get?_eq_some_iff]
  simp

theorem marked_iff (barsBySymbol : Dict String (List Bar)) (symbol : String) :
    marked barsBySymbol symbol ↔
      symbol ∈ equityUniverse ∧ (equityTrend barsBySymbol symbol).inTrend = true ∨
        symbol ∈ cryptoUniverse ∧ (cryptoTrend barsBySymbol symbol).inTrend = true := by
  unfold marked computeEquityTrend computeCryptoTrend
  simp only [get?_of_map]
  simp

instance (barsBySymbol : Dict String (List Bar)) (symbol : String) :
    Decidable (marked barsBySymbol symbol) :=
  decidable_of_iff _ (marked_iff barsBySymbol symbol).symm

/-- The trend that the sleeve finds for a symbol of either kind. -/
def inTrend (barsBySymbol : Dict String (List Bar)) (symbol : String) : Bool :=
  if symbol ∈ cryptoUniverse then (cryptoTrend barsBySymbol symbol).inTrend
  else (equityTrend barsBySymbol symbol).inTrend

/-- **The rule is the sleeve's**, symbol by symbol. -/
theorem any_gtaaInTrend (barsBySymbol : Dict String (List Bar)) (symbol : String) :
    (closes barsBySymbol symbol).getLast?.any (gtaaInTrend symbol (closes barsBySymbol symbol)) =
      inTrend barsBySymbol symbol := by
  unfold inTrend gtaaInTrend equityTrend cryptoTrend
  dsimp only
  generalize closes barsBySymbol symbol = closes
  cases closes.getLast? with
  | none => split_ifs <;> rfl
  | some last =>
    rw [Option.any_some]
    split_ifs
    · cases sma closes smaPeriodCrypto <;> cases momentum closes momentumDays <;> rfl
    · cases sma closes smaPeriodEquity <;> rfl

theorem marked_iff_inTrend (barsBySymbol : Dict String (List Bar)) (symbol : String) :
    symbol ∈ equityUniverse ++ cryptoUniverse ∧ inTrend barsBySymbol symbol = true ↔
      marked barsBySymbol symbol := by
  have hdisjoint : ∀ s ∈ equityUniverse, s ∉ cryptoUniverse := by decide
  rw [marked_iff, inTrend, List.mem_append]
  by_cases hcrypto : symbol ∈ cryptoUniverse
  · have hequity : symbol ∉ equityUniverse := fun h => hdisjoint symbol h hcrypto
    simp [hcrypto, hequity]
  · simp [hcrypto]

/-- **The trend baseline** gives each name that the sleeve marks a thirteenth, and nothing to any
other. -/
theorem get?_faberGtaaWeights (barsBySymbol : Dict String (List Bar)) (symbol : String) :
    (faberGtaaWeights barsBySymbol true).get? symbol =
      if marked barsBySymbol symbol
      then some (1 / ((equityUniverse ++ cryptoUniverse).length : Decimal)) else none := by
  have hstep : ∀ (weights : Dict String Decimal) (s : String) (v : Decimal),
      (match (closes barsBySymbol s).getLast? with
        | none => weights
        | some last =>
          if gtaaInTrend s (closes barsBySymbol s) last then weights.set s v else weights) =
        if inTrend barsBySymbol s then weights.set s v else weights := by
    intro weights s v
    rw [← any_gtaaInTrend]
    cases (closes barsBySymbol s).getLast? with
    | none => simp
    | some last => simp
  rw [faberGtaaWeights]
  simp only [if_true, hstep]
  rw [get?_foldl_set_of, Dict.get?_empty]
  exact if_congr (marked_iff_inTrend barsBySymbol symbol) rfl rfl

end Trend

/-! ### Momentum -/

section Momentum

variable (order : TradableOrder) (barsBySymbol : Dict String (List Bar))

/-- The copy computes what the sleeve computes. -/
theorem priceMomentum_eq (closes : List Decimal) (lookback skip : ℕ) :
    priceMomentum closes lookback skip = Agents.priceMomentum closes lookback skip := rfl

/-- The momentum that the sleeve has for a symbol. -/
def momentum121 (symbol : String) : Option Decimal :=
  ((SonnetAgent.computeFactorSignals barsBySymbol).get? symbol).bind fun d => d.momentum121

theorem closes_eq_nil {symbol : String} (h : (barsBySymbol.get? symbol).getD [] = []) :
    closes barsBySymbol symbol = [] := by
  rw [closes, h, List.mergeSort_nil, List.map_nil]

theorem priceMomentum_nil : priceMomentum [] sonnetMomLookback sonnetMomSkip = none := rfl

theorem momentum121_eq (symbol : String) : momentum121 barsBySymbol symbol =
    if symbol ∈ SonnetAgent.tradable then
      priceMomentum (closes barsBySymbol symbol) sonnetMomLookback sonnetMomSkip
    else none := by
  unfold momentum121
  by_cases hmem : symbol ∈ barsBySymbol.keys.filter (· ∈ SonnetAgent.tradable)
  · have hget : (SonnetAgent.computeFactorSignals barsBySymbol).get? symbol =
        some (SonnetAgent.factorSignal barsBySymbol symbol) := get?_of_map.mpr ⟨hmem, rfl⟩
    have htradable : symbol ∈ SonnetAgent.tradable := by
      simpa using (List.mem_filter.mp hmem).2
    rw [hget, if_pos htradable]
    rfl
  · have hget : (SonnetAgent.computeFactorSignals barsBySymbol).get? symbol = none := by
      refine Option.eq_none_iff_forall_ne_some.mpr fun d hd => ?_
      exact hmem (get?_of_map.mp hd).1
    rw [hget, Option.bind_none]
    split_ifs with htradable
    · -- a tradable symbol that is not there has no bars
      have hkey : symbol ∉ barsBySymbol.keys := by
        intro hkey
        exact hmem (List.mem_filter.mpr ⟨hkey, by simpa using htradable⟩)
      have hbars : (barsBySymbol.get? symbol).getD [] = [] := by
        rw [Dict.get?_eq_none_iff.mpr hkey, Option.getD_none]
      rw [closes_eq_nil barsBySymbol hbars, priceMomentum_nil]
    · rfl

/-- What becomes of a symbol in the list of candidates. -/
theorem candidate_eq (symbol : String) :
    (if (barsBySymbol.get? symbol).getD [] = [] then none
      else (priceMomentum (closes barsBySymbol symbol) sonnetMomLookback sonnetMomSkip).map
        (symbol, ·)) =
      (priceMomentum (closes barsBySymbol symbol) sonnetMomLookback sonnetMomSkip).map
        (symbol, ·) := by
  split_ifs with hbars
  · rw [closes_eq_nil barsBySymbol hbars, priceMomentum_nil, Option.map_none]
  · rfl

theorem mem_candidates {symbol : String} {mom : Decimal} :
    (symbol, mom) ∈ candidates order barsBySymbol ↔ momentum121 barsBySymbol symbol = some mom := by
  rw [momentum121_eq, candidates, List.mem_filterMap]
  simp only [candidate_eq, Option.map_eq_some_iff, Prod.mk.injEq, order.2.mem_iff]
  constructor
  · rintro ⟨s, hs, m, hm, rfl, rfl⟩
    rwa [if_pos hs]
  · intro h
    split_ifs at h with hs
    exact ⟨symbol, hs, mom, h, rfl, rfl⟩

theorem sublist_candidates {symbols : List String} {f : String → Option (String × Decimal)}
    (hf : ∀ s e, f s = some e → e.1 = s) :
    ((symbols.filterMap f).map Prod.fst).Sublist symbols := by
  induction symbols with
  | nil => simp
  | cons s symbols ih =>
    cases hs : f s with
    | none =>
      rw [List.filterMap_cons_none hs]
      exact ih.cons s
    | some e =>
      rw [List.filterMap_cons_some hs, List.map_cons, hf s e hs]
      exact ih.cons_cons s

theorem nodup_candidates : ((candidates order barsBySymbol).map Prod.fst).Nodup := by
  have hnd : order.1.Nodup := order.2.nodup_iff.mpr SonnetAgent.nodup_tradable
  refine hnd.sublist (sublist_candidates fun s e he => ?_)
  rw [candidate_eq] at he
  obtain ⟨mom, -, rfl⟩ := Option.map_eq_some_iff.mp he
  rfl

/-- There are as many candidates as symbols with a momentum. -/
theorem length_candidates : (candidates order barsBySymbol).length =
    ((SonnetAgent.computeFactorSignals barsBySymbol).values.filter
      fun d => d.momentum121.isSome).length := by
  -- the names on both sides are the same, in some order
  have hperm : ((candidates order barsBySymbol).map Prod.fst).Perm
      (((SonnetAgent.computeFactorSignals barsBySymbol).entries.filter
        fun e => e.2.momentum121.isSome).map Prod.fst) := by
    refine (List.perm_ext_iff_of_nodup (nodup_candidates order barsBySymbol) ?_).mpr fun s => ?_
    · exact (SonnetAgent.computeFactorSignals barsBySymbol).nodup.sublist
        (List.filter_sublist.map _)
    · rw [List.mem_map, List.mem_map]
      constructor
      · rintro ⟨⟨s, mom⟩, he, rfl⟩
        have hmom := (mem_candidates order barsBySymbol).mp he
        obtain ⟨d, hd, hsome⟩ := Option.bind_eq_some_iff.mp hmom
        refine ⟨(s, d), List.mem_filter.mpr ⟨Dict.get?_eq_some_iff.mp hd, ?_⟩, rfl⟩
        exact Option.isSome_of_eq_some hsome
      · rintro ⟨⟨s, d⟩, he, rfl⟩
        obtain ⟨hd, hsome⟩ := List.mem_filter.mp he
        obtain ⟨mom, hmom⟩ := Option.isSome_iff_exists.mp hsome
        refine ⟨(s, mom), (mem_candidates order barsBySymbol).mpr ?_, rfl⟩
        exact Option.bind_eq_some_iff.mpr ⟨d, Dict.get?_eq_some_iff.mpr hd, hmom⟩
  have hlen := hperm.length_eq
  rw [List.length_map, List.length_map] at hlen
  rw [hlen, Dict.values, List.filter_map, List.length_map]
  rfl

theorem keys_foldl_set {v : Decimal} {l : List (String × Decimal)} {weights : Dict String Decimal}
    (hnew : ∀ e ∈ l, e.1 ∉ weights.keys) (hl : (l.map Prod.fst).Nodup) :
    (l.foldl (fun weights e => weights.set e.1 v) weights).keys =
      weights.keys ++ l.map Prod.fst := by
  induction l generalizing weights with
  | nil => simp
  | cons e l ih =>
    rw [List.map_cons, List.nodup_cons] at hl
    have he : e.1 ∉ weights.keys := hnew e List.mem_cons_self
    rw [List.foldl_cons, ih ?_ hl.2, Dict.keys_set_of_notMem _ he, List.append_assoc]
    · rfl
    · intro e' he' hmem
      rcases Dict.mem_keys_set.mp hmem with heq | hold
      · exact hl.1 (heq ▸ List.mem_map_of_mem he')
      · exact hnew e' (List.mem_cons_of_mem e he') hold

/-- The names that are selected. -/
theorem keys_sonnetMomentumWeights (topN : ℕ) (perName : Decimal) :
    (sonnetMomentumWeights order barsBySymbol topN perName).keys =
      (((candidates order barsBySymbol).mergeSort fun a b => b.2 ≤ a.2).take topN).map
        Prod.fst := by
  rw [sonnetMomentumWeights]
  split_ifs with hnil
  · rw [hnil, List.mergeSort_nil, List.take_nil]
    rfl
  · have hnd : ((((candidates order barsBySymbol).mergeSort fun a b => b.2 ≤ a.2).take topN).map
        Prod.fst).Nodup := by
      have hsorted : (((candidates order barsBySymbol).mergeSort fun a b => b.2 ≤ a.2).map
          Prod.fst).Nodup :=
        (((List.mergeSort_perm _ _).map Prod.fst).nodup_iff).mpr
          (nodup_candidates order barsBySymbol)
      exact hsorted.sublist ((List.take_sublist _ _).map _)
    rw [keys_foldl_set (fun _ _ => List.not_mem_nil) hnd]
    rfl

/-- **The momentum baseline** selects as many names as it may, or as there are, and none of them
has a lower momentum than a name it leaves out. -/
theorem sonnetMomentumWeights_spec (topN : ℕ) (perName : Decimal) :
    (sonnetMomentumWeights order barsBySymbol topN perName).keys.length =
        min topN ((SonnetAgent.computeFactorSignals barsBySymbol).values.filter
          fun d => d.momentum121.isSome).length ∧
      ∀ s ∈ (sonnetMomentumWeights order barsBySymbol topN perName).keys,
        ∃ mom, momentum121 barsBySymbol s = some mom ∧
          ∀ s' mom', s' ∉ (sonnetMomentumWeights order barsBySymbol topN perName).keys →
            momentum121 barsBySymbol s' = some mom' → mom' ≤ mom := by
  have hsorted : ((candidates order barsBySymbol).mergeSort fun a b => b.2 ≤ a.2).Pairwise
      fun a b => b.2 ≤ a.2 := by
    have hs : ((candidates order barsBySymbol).mergeSort fun a b => b.2 ≤ a.2).Pairwise
        fun a b => decide (b.2 ≤ a.2) = true := by
      refine List.pairwise_mergeSort ?_ ?_ _
      · intro a b c hab hbc
        exact decide_eq_true ((of_decide_eq_true hbc).trans (of_decide_eq_true hab))
      · intro a b
        simpa using le_total b.2 a.2
    exact hs.imp of_decide_eq_true
  have hmem : ∀ e, e ∈ (candidates order barsBySymbol).mergeSort (fun a b => b.2 ≤ a.2) ↔
      e ∈ candidates order barsBySymbol := fun e => List.mem_mergeSort
  rw [keys_sonnetMomentumWeights, ← length_candidates order barsBySymbol]
  constructor
  · rw [List.length_map, List.length_take, List.length_mergeSort]
  · intro s hs
    obtain ⟨⟨s₀, mom⟩, he, rfl⟩ := List.mem_map.mp hs
    refine ⟨mom, (mem_candidates order barsBySymbol).mp ((hmem _).mp (List.mem_of_mem_take he)),
      fun s' mom' hs' hmom' => ?_⟩
    -- a name that is left out comes later in the ranking
    have hlater : (s', mom') ∈
        ((candidates order barsBySymbol).mergeSort fun a b => b.2 ≤ a.2).drop topN := by
      have hin := (hmem _).mpr ((mem_candidates order barsBySymbol).mpr hmom')
      rw [← List.take_append_drop topN ((candidates order barsBySymbol).mergeSort _)] at hin
      refine (List.mem_append.mp hin).resolve_left fun htaken => hs' ?_
      exact List.mem_map_of_mem htaken
    rw [← List.take_append_drop topN ((candidates order barsBySymbol).mergeSort _)] at hsorted
    exact (List.pairwise_append.mp hsorted).2.2 _ he _ hlater

end Momentum

/-- **A baseline and its sleeve see the same signal.** -/
theorem baselines_see_signal (barsBySymbol : Dict String (List Bar)) :
    (∀ symbol, (faberGtaaWeights barsBySymbol true).get? symbol =
      if marked barsBySymbol symbol
      then some (1 / ((HaikuAgent.equityUniverse ++ HaikuAgent.cryptoUniverse).length : Decimal))
      else none) ∧
    ∀ (order : TradableOrder) (topN : ℕ) (perName : Decimal),
      (sonnetMomentumWeights order barsBySymbol topN perName).keys.length =
          min topN ((SonnetAgent.computeFactorSignals barsBySymbol).values.filter
            fun d => d.momentum121.isSome).length ∧
        ∀ s ∈ (sonnetMomentumWeights order barsBySymbol topN perName).keys,
          ∃ mom, momentum121 barsBySymbol s = some mom ∧
            ∀ s' mom', s' ∉ (sonnetMomentumWeights order barsBySymbol topN perName).keys →
              momentum121 barsBySymbol s' = some mom' → mom' ≤ mom :=
  ⟨get?_faberGtaaWeights barsBySymbol, fun order topN perName =>
    sonnetMomentumWeights_spec order barsBySymbol topN perName⟩

end Backtest

end TradingPlatform
