import TradingPlatform.Execution.Attribution
import TradingPlatform.Execution.OmsBus

/-!
# Which breaks a pass catches

The books and the broker are apart in a symbol when they differ by the tolerated number of shares,
or by more than the tolerated number of dollars (`TradingPlatform.Reconciler.OutOfLine`). What a
share is worth the broker says, and for a symbol the broker does not report the last fill on the
books does. `TradingPlatform.Reconciler.CatchesBreaks` is what a pass should make of that: count
the symbols that are out of line, adopt the positions it has no record of instead, trip the switch
if it counted any, and touch nothing else.

A pass takes a symbol the broker does not report to be worth nothing. So it does not see a
position that is gone at the broker as long as it is smaller than the tolerated number of shares
(`TradingPlatform.Reconciler.Missed`), whatever it is worth; and that is all it misses
(`TradingPlatform.Reconciler.catchesBreaks_iff`).
-/

namespace TradingPlatform

/-- The price of the last fill recorded in a symbol. -/
def Oms.lastFillPrice (s : Oms) (sym : String) : Decimal :=
  (((fillsLogged s.store).filter (·.symbol = sym)).getLast?.map (·.price)).getD 0

namespace Reconciler

variable (cfg : ReconcilerConfig)

/-- What a share is worth: the broker's price where it reports the symbol, else the price of the
last fill. -/
def worth (s : Oms) (positions : Dict String BrokerPosition) (sym : String) : Decimal :=
  match positions.get? sym with
  | some position => position.currentPrice
  | none => s.lastFillPrice sym

/-- How far the two sides are apart. -/
def drift (s : Oms) (positions : Dict String BrokerPosition) (sym : String) : Decimal :=
  |ourQty s.computeExpectedPositions sym - brokerQty positions sym|

/-- **The two sides are out of line**: in shares or in dollars. -/
def OutOfLine (s : Oms) (positions : Dict String BrokerPosition) (sym : String) : Prop :=
  cfg.qtyTolerance ≤ drift s positions sym ∨
    dollarTolerance < drift s positions sym * worth s positions sym

/-- The broker holds a position there is no record of. -/
def Orphaned (s : Oms) (positions : Dict String BrokerPosition) (sym : String) : Prop :=
  ourQty s.computeExpectedPositions sym = 0 ∧ 0 < brokerQty positions sym

/-- A break: out of line, and not because of an orphan. -/
def Breaks (s : Oms) (positions : Dict String BrokerPosition) (sym : String) : Prop :=
  OutOfLine cfg s positions sym ∧ ¬Orphaned s positions sym

instance (s : Oms) (positions : Dict String BrokerPosition) (sym : String) :
    Decidable (OutOfLine cfg s positions sym) :=
  inferInstanceAs (Decidable (_ ∨ _))

instance (s : Oms) (positions : Dict String BrokerPosition) (sym : String) :
    Decidable (Orphaned s positions sym) :=
  inferInstanceAs (Decidable (_ ∧ _))

instance (s : Oms) (positions : Dict String BrokerPosition) (sym : String) :
    Decidable (Breaks cfg s positions sym) :=
  inferInstanceAs (Decidable (_ ∧ ¬_))

/-- The symbols a pass looks at. -/
def symbols (s : Oms) (positions : Dict String BrokerPosition) : List String :=
  allSymbols s.computeExpectedPositions positions

/-- **A pass catches every break, and nothing else.** -/
structure CatchesBreaks (env : ReconcileEnv) (r : Reconciler)
    (positions : Dict String BrokerPosition) : Prop where
  /-- It counts the symbols that are out of line. -/
  count : (reconcilePositions cfg env r).2.1 =
    (symbols r.oms positions).countP fun sym => Breaks cfg r.oms positions sym
  /-- It trips if there is one. -/
  tripped : (reconcilePositions cfg env r).2.2 = true ↔
    ∃ sym ∈ symbols r.oms positions, Breaks cfg r.oms positions sym
  kill : (reconcilePositions cfg env r).1.kill =
    if ∃ sym ∈ symbols r.oms positions, Breaks cfg r.oms positions sym then
      r.kill.tripReconciliationBreak
    else r.kill
  /-- It adopts the orphans that are out of line, and leaves the other positions alone. -/
  adopts : ∀ sym, (reconcilePositions cfg env r).1.oms.netQty sym = r.oms.netQty sym +
    if OutOfLine cfg r.oms positions sym ∧ Orphaned r.oms positions sym then
      brokerQty positions sym
    else 0

/-- **A break a pass does not see**: the broker does not report the symbol, and the position on
the books is small, but worth something. -/
def Missed (s : Oms) (positions : Dict String BrokerPosition) (sym : String) : Prop :=
  positions.get? sym = none ∧ |s.netQty sym| < cfg.qtyTolerance ∧
    dollarTolerance < |s.netQty sym| * s.lastFillPrice sym

instance (s : Oms) (positions : Dict String BrokerPosition) (sym : String) :
    Decidable (Missed cfg s positions sym) :=
  inferInstanceAs (Decidable (_ ∧ _ ∧ _))

section Check

variable {cfg} {env : ReconcileEnv} {s : Oms} {positions : Dict String BrokerPosition}
  {sym : String}

theorem drift_of_unreported (hs : s.Keyed) (h : positions.get? sym = none) :
    drift s positions sym = |s.netQty sym| := by
  rw [drift, brokerQty, h, Oms.ourQty_computeExpectedPositions hs, Option.map_none,
    Option.getD_none, sub_zero]

/-- What a pass takes to be within tolerance is not out of line, or it is missed. -/
theorem outOfLine_iff (hs : s.Keyed) :
    OutOfLine cfg s positions sym ↔
      ¬Within cfg (ourQty s.computeExpectedPositions sym) (brokerQty positions sym)
          (brokerPrice positions sym) ∨ Missed cfg s positions sym := by
  have hwithin : Within cfg (ourQty s.computeExpectedPositions sym) (brokerQty positions sym)
      (brokerPrice positions sym) ↔ drift s positions sym < cfg.qtyTolerance ∧
        drift s positions sym * brokerPrice positions sym ≤ dollarTolerance := Iff.rfl
  rw [hwithin, OutOfLine, Missed, not_and_or, not_lt, not_le]
  rcases h : positions.get? sym with _ | position
  · -- the pass takes its price to be zero
    have hprice : brokerPrice positions sym = 0 := by
      rw [brokerPrice, h]
      rfl
    have hworth : worth s positions sym = s.lastFillPrice sym := by
      rw [worth, h]
    have hzero : ¬dollarTolerance < drift s positions sym * 0 := by
      rw [mul_zero]
      norm_num [dollarTolerance]
    rw [hprice, hworth, ← drift_of_unreported hs h, or_iff_left hzero]
    constructor
    · rintro (hqty | hworth)
      · exact Or.inl hqty
      · rcases le_or_gt cfg.qtyTolerance (drift s positions sym) with hqty | hqty
        · exact Or.inl hqty
        · exact Or.inr ⟨rfl, hqty, hworth⟩
    · rintro (hqty | ⟨-, -, hworth⟩)
      · exact Or.inl hqty
      · exact Or.inr hworth
  · have hprice : worth s positions sym = brokerPrice positions sym := by
      rw [worth, brokerPrice, h]
      rfl
    rw [hprice]
    exact (or_iff_left fun hc => Option.some_ne_none _ hc.1).symm

/-- A missed break is within what the pass tolerates, and no orphan. -/
theorem Missed.within (hs : s.Keyed) (h : Missed cfg s positions sym) :
    Within cfg (ourQty s.computeExpectedPositions sym) (brokerQty positions sym)
      (brokerPrice positions sym) ∧ ¬Orphaned s positions sym := by
  obtain ⟨hnone, hqty, -⟩ := h
  have hbroker : brokerQty positions sym = 0 := by
    rw [brokerQty, hnone]
    rfl
  refine ⟨⟨?_, ?_⟩, fun hc => ?_⟩
  · exact (drift_of_unreported hs hnone).trans_lt hqty
  · rw [brokerPrice, hnone, Option.map_none, Option.getD_none, mul_zero]
    norm_num [dollarTolerance]
  · rw [Orphaned, hbroker] at hc
    exact lt_irrefl 0 hc.2

/-- What checking a symbol comes to. -/
theorem checkSymbol_cases (s : Oms) (positions : Dict String BrokerPosition) (sym : String) :
    let check := checkSymbol cfg s.computeExpectedPositions positions sym
    let within := Within cfg (ourQty s.computeExpectedPositions sym) (brokerQty positions sym)
      (brokerPrice positions sym)
    (check.mismatch?.isSome ↔ ¬within ∧ ¬Orphaned s positions sym) ∧
      check.adopted =
        if ¬within ∧ Orphaned s positions sym then brokerQty positions sym else 0 := by
  dsimp only
  rw [checkSymbol]
  by_cases hw : Within cfg (ourQty s.computeExpectedPositions sym) (brokerQty positions sym)
      (brokerPrice positions sym)
  · rw [if_pos hw, if_neg fun hc => hc.1 hw]
    exact ⟨iff_of_false Bool.false_ne_true fun hc => hc.1 hw, rfl⟩
  · by_cases ho : Orphaned s positions sym
    · rw [if_neg hw, if_pos (show _ ∧ _ from ho), if_pos ⟨hw, ho⟩]
      exact ⟨iff_of_false Bool.false_ne_true fun hc => hc.2 ho, rfl⟩
    · rw [if_neg hw, if_neg (show ¬(_ ∧ _) from ho), if_neg fun hc => ho hc.2]
      exact ⟨iff_of_true rfl ⟨hw, ho⟩, rfl⟩

/-- The elements that pass one of two tests that exclude each other. -/
theorem countP_or_of_exclusive {α : Type*} {p q pq : α → Bool} {l : List α}
    (h : ∀ a ∈ l, (pq a = true ↔ p a = true ∨ q a = true) ∧ ¬(p a = true ∧ q a = true)) :
    l.countP pq = l.countP p + l.countP q := by
  induction l with
  | nil => rfl
  | cons a l ih =>
    obtain ⟨hor, hexcl⟩ := h a List.mem_cons_self
    rw [List.countP_cons, List.countP_cons, List.countP_cons,
      ih fun b hb => h b (List.mem_cons_of_mem _ hb)]
    revert hor hexcl
    cases p a <;> cases q a <;> cases pq a <;> simp <;> omega

end Check

section Pass

variable {cfg} {env : ReconcileEnv} {r : Reconciler} {positions : List BrokerPosition}

/-- The mismatch a pass notes in a symbol. -/
def noted (cfg : ReconcilerConfig) (s : Oms) (positions : Dict String BrokerPosition)
    (sym : String) : Option PositionMismatch :=
  (checkSymbol cfg s.computeExpectedPositions positions sym).mismatch?

/-- **What comparing the positions returns**, in terms of the checks of the symbols. -/
theorem reconcilePositions_spec (hs : r.oms.Keyed) (hfresh : FreshGhosts env r.oms)
    (hpositions : env.listPositions = some positions) :
    let d := positionsBySymbol positions
    let n := (symbols r.oms d).countP fun sym => (noted cfg r.oms d sym).isSome
    (reconcilePositions cfg env r).2.1 = n ∧
      ((reconcilePositions cfg env r).2.2 = true ↔ n ≠ 0) ∧
      ((reconcilePositions cfg env r).1.kill =
        if n = 0 then r.kill else r.kill.tripReconciliationBreak) ∧
      ∀ sym, (reconcilePositions cfg env r).1.oms.netQty sym = r.oms.netQty sym +
        if sym ∈ symbols r.oms d then
          (checkSymbol cfg r.oms.computeExpectedPositions d sym).adopted
        else 0 := by
  intro d n
  obtain ⟨-, hnet⟩ := netQty_compareSymbols cfg env r.oms.computeExpectedPositions d
    hfresh.injective (nodup_allSymbols r.oms.computeExpectedPositions d) hs
    (fun sym _ => hfresh.notMem sym) []
  have hms := mismatches_compareSymbols cfg env r.oms.computeExpectedPositions d
    (symbols r.oms d) (r.oms, [])
  have hn : n = ((symbols r.oms d).filterMap (noted cfg r.oms d)).length :=
    List.length_filterMap_eq_countP.symm
  obtain ⟨homs, hresult⟩ := reconcilePositions_of_fetched cfg env r hpositions
  have hlen := (congrArg List.length hms).trans hn.symm
  rw [homs]
  rcases hresult with ⟨hempty, hcount, hkill⟩ | ⟨hne, hcount, hkill⟩
  · have hzero : n = 0 := hlen.symm.trans (List.length_eq_zero_iff.mpr hempty)
    rw [hcount, hkill, if_pos hzero]
    exact ⟨hzero.symm, iff_of_false Bool.false_ne_true fun hc => hc hzero, rfl, hnet⟩
  · have hzero : n ≠ 0 := fun hc => hne (List.length_eq_zero_iff.mp (hlen.trans hc))
    rw [hcount, hkill, if_neg hzero]
    exact ⟨hlen, iff_of_true rfl hzero, rfl, hnet⟩

section Breaks

variable {s : Oms} {d : Dict String BrokerPosition} {sym : String}

/-- A break is noted by the pass, or missed. -/
theorem breaks_iff (hs : s.Keyed) :
    Breaks cfg s d sym ↔ (noted cfg s d sym).isSome = true ∨ Missed cfg s d sym := by
  rw [noted, (checkSymbol_cases s d sym).1, Breaks, outOfLine_iff hs]
  constructor
  · rintro ⟨hw | hm, ho⟩
    · exact Or.inl ⟨hw, ho⟩
    · exact Or.inr hm
  · rintro (⟨hw, ho⟩ | hm)
    · exact ⟨Or.inl hw, ho⟩
    · exact ⟨Or.inr hm, (hm.within hs).2⟩

theorem Missed.not_noted (hs : s.Keyed) (h : Missed cfg s d sym) :
    ¬(noted cfg s d sym).isSome = true := by
  rw [noted, (checkSymbol_cases s d sym).1]
  exact fun hc => hc.1 (h.within hs).1

/-- A break that is missed is in a symbol of the books. -/
theorem Missed.mem_symbols (hs : s.Keyed) (h : Missed cfg s d sym) : sym ∈ symbols s d := by
  by_contra hc
  have hworth := h.2.2
  rw [← Oms.ourQty_computeExpectedPositions hs, (qty_of_notMem_allSymbols hc).1] at hworth
  exact absurd hworth (by norm_num [dollarTolerance])

/-- The breaks are those the pass notes and those it misses. -/
theorem countP_breaks (cfg : ReconcilerConfig) (d : Dict String BrokerPosition) (hs : s.Keyed)
    (l : List String) :
    (l.countP fun sym => Breaks cfg s d sym) =
      (l.countP fun sym => (noted cfg s d sym).isSome) + l.countP fun sym => Missed cfg s d sym :=
  countP_or_of_exclusive fun sym _ => by
    rw [decide_eq_true_eq, decide_eq_true_eq]
    exact ⟨breaks_iff hs, fun hc => hc.2.not_noted hs hc.1⟩

end Breaks

/-- **When a pass catches every break.** It does, and does nothing else, exactly when there is no
symbol that the broker does not report and whose position on the books, smaller than the tolerated
number of shares, was worth more than the tolerated number of dollars at its last fill. -/
theorem catchesBreaks_iff (hs : r.oms.Keyed) (hfresh : FreshGhosts env r.oms)
    (hpositions : env.listPositions = some positions) :
    CatchesBreaks cfg env r (positionsBySymbol positions) ↔
      ∀ sym, (positionsBySymbol positions).get? sym = none → |r.oms.netQty sym| < cfg.qtyTolerance →
        |r.oms.netQty sym| * r.oms.lastFillPrice sym ≤ dollarTolerance := by
  obtain ⟨hcount, htripped, hkill, hnet⟩ :=
    @reconcilePositions_spec cfg env r positions hs hfresh hpositions
  set d := positionsBySymbol positions
  have hsum := countP_breaks cfg d hs (symbols r.oms d)
  constructor
  · intro hcatches sym hnone hqty
    by_contra hworth
    have hm : Missed cfg r.oms d sym := ⟨hnone, hqty, not_le.mp hworth⟩
    have hpos : 0 < (symbols r.oms d).countP fun sym => decide (Missed cfg r.oms d sym) :=
      List.countP_pos_iff.mpr ⟨sym, hm.mem_symbols hs, decide_eq_true hm⟩
    have hzero := hcatches.count
    rw [hcount, hsum] at hzero
    omega
  · intro hnone
    have hnot : ∀ sym, ¬Missed cfg r.oms d sym := fun sym hm =>
      (hnone sym hm.1 hm.2.1).not_gt hm.2.2
    have hzero : ((symbols r.oms d).countP fun sym => decide (Missed cfg r.oms d sym)) = 0 :=
      List.countP_eq_zero.mpr fun sym _ hc => hnot sym (of_decide_eq_true hc)
    rw [hzero, add_zero] at hsum
    have hex : (∃ sym ∈ symbols r.oms d, Breaks cfg r.oms d sym) ↔
        ((symbols r.oms d).countP fun sym => (noted cfg r.oms d sym).isSome) ≠ 0 := by
      rw [← hsum, ← Nat.pos_iff_ne_zero, List.countP_pos_iff]
      simp
    refine ⟨hcount.trans hsum.symm, htripped.trans hex.symm, ?_, fun sym => ?_⟩
    · rw [hkill]
      by_cases hn : ((symbols r.oms d).countP fun sym => (noted cfg r.oms d sym).isSome) = 0
      · rw [if_pos hn, if_neg fun hc => hex.mp hc hn]
      · rw [if_neg hn, if_pos (hex.mpr hn)]
    · have hout : OutOfLine cfg r.oms d sym ∧ Orphaned r.oms d sym ↔ _ :=
        and_congr ((outOfLine_iff hs).trans (or_iff_left (hnot sym))) Iff.rfl
      rw [hnet, (checkSymbol_cases r.oms d sym).2, if_congr hout rfl rfl]
      by_cases hmem : sym ∈ symbols r.oms d
      · rw [if_pos hmem]
      · rw [if_neg hmem, (qty_of_notMem_allSymbols hmem).2, ite_self]

end Pass

/-- On new books a pass catches whatever the broker holds. -/
theorem catchesBreaks_new :
    CatchesBreaks {} filledEnv (new 120) (positionsBySymbol [orphanPosition]) := by
  have hkeys : partFilledOms.orders.keys = [1] := by decide +kernel
  have hinj := (freshGhosts_filledEnv hkeys).injective
  refine (catchesBreaks_iff Oms.WellFormed.empty.toKeyed ?_ rfl).mpr fun sym _ _ => ?_
  · refine ⟨fun sym hc => ?_, hinj⟩
    exact absurd hc List.not_mem_nil
  · have hzero : (new 120).oms.netQty sym = 0 := rfl
    rw [hzero, abs_zero, zero_mul]
    norm_num [dollarTolerance]

/-- Half a share, bought at a hundred dollars. -/
def halfShareRun : List ReconcilerOp :=
  [.oms (.submitOrder (Oms.marketOrder 1 .buy (1 / 2)) ⟨[], .returned "b-1"⟩ 0),
    .oms (.brokerEvent (Oms.fillEventFor 7 1 .buy (1 / 2) .filled) 2)]

/-- A pass in which the broker reports no position. -/
def goneEnv : ReconcileEnv := { filledEnv with listPositions := some [] }

/-- **Fifty dollars that are gone**: the broker does not report the half share, and the pass counts
no mismatch and trips nothing. -/
theorem not_catchesBreaks_halfShareRun :
    FreshGhosts goneEnv (run (step {}) (new 120) halfShareRun).oms ∧
      goneEnv.listPositions = some [] ∧
      (reconcilePositions {} goneEnv (run (step {}) (new 120) halfShareRun)).2 = (0, false) ∧
      ¬CatchesBreaks {} goneEnv (run (step {}) (new 120) halfShareRun) (positionsBySymbol []) := by
  have hfresh : FreshGhosts filledEnv (run (step {}) (new 120) halfShareRun).oms :=
    freshGhosts_filledEnv (by decide +kernel)
  have hcount : (reconcilePositions {} goneEnv (run (step {}) (new 120) halfShareRun)).2 =
      (0, false) := by
    decide +kernel
  refine ⟨⟨hfresh.notMem, hfresh.injective⟩, rfl, hcount, fun h => ?_⟩
  have hbreaks : ((symbols (run (step {}) (new 120) halfShareRun).oms
      (positionsBySymbol [])).countP fun sym =>
        Breaks {} (run (step {}) (new 120) halfShareRun).oms (positionsBySymbol []) sym) = 1 := by
    decide +kernel
  have hfst := congrArg Prod.fst hcount
  rw [h.count, hbreaks] at hfst
  exact absurd hfst (by decide)

end Reconciler

end TradingPlatform
