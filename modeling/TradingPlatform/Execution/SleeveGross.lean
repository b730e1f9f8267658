import TradingPlatform.Execution.LotConservation
import TradingPlatform.Execution.Sizing

/-!
# The gross exposure of a sleeve

What an agent's open lots are worth at the marks, symbol by symbol. A symbol without a mark counts
at what one of its lots was bought at.

Everything here is a sum over the lots, so what a fill does to it is what it does to the lots: a
purchase adds its quantity to its symbol (`TradingPlatform.LotLedger.moves_buy`), a sale adds
nothing, whether the ledger can meet it or not (`TradingPlatform.LotLedger.moves_sell`), and the
gross follows at the mark (`TradingPlatform.LotLedger.Moves.sleeveGrossNotional`). The one point
that needs care is a symbol without a mark, whose worth hangs on the first of its lots: a fill in
another symbol leaves that lot where it is.
-/

namespace TradingPlatform

/-- What the planner is told of the market. -/
structure MarketSnapshot where
  currentPrices : Dict String Decimal
  realizedVol30d : Dict String Decimal
  vixBucket : VixBucket

/-- The mark of a symbol. One that is not positive is as good as none. -/
def MarketSnapshot.mark? (snapshot : MarketSnapshot) (symbol : String) : Option Decimal :=
  (snapshot.currentPrices.get? symbol).filter fun mark => 0 < mark

namespace LotLedger

/-- Count a lot towards the open quantity of its symbol. -/
def addOpenQty (agentId : AgentId) (out : Dict String Decimal) (lot : Lot) : Dict String Decimal :=
  if lot.agentId ≠ agentId ∨ lot.isClosed = true then out
  else out.set lot.symbol ((out.get? lot.symbol).getD 0 + lot.remainingQty)

/-- The open quantity of every symbol an agent holds something of. -/
def openQtyBySymbol (l : LotLedger) (agentId : AgentId) : Dict String Decimal :=
  (l.allLots.foldl (addOpenQty agentId) .empty).filter fun _ qty => 0 < qty

/-- What one share of a holding counts for: its mark, or else what one of its lots was bought
at. -/
def markOrEntry (l : LotLedger) (agentId : AgentId) (snapshot : MarketSnapshot) (sym : String) :
    Decimal :=
  match snapshot.mark? (normalizeSymbol sym) with
  | some mark => mark
  | none =>
    match (l.openLots agentId sym).head? with
    | some lot => lot.entryPrice
    | none => 0

/-- The gross notional of an agent's open positions. -/
def sleeveGrossNotional (l : LotLedger) (agentId : AgentId) (snapshot : MarketSnapshot) :
    Decimal :=
  ((l.openQtyBySymbol agentId).entries.map fun (sym, qty) =>
    if qty ≤ 0 then 0 else qty * l.markOrEntry agentId snapshot sym).sum

/-! ### Sums over the lots -/

/-- What a lot counts towards the open quantity of an agent in a symbol. -/
def openIn (agentId : AgentId) (sym : String) (lot : Lot) : Decimal :=
  if lot.agentId = agentId ∧ lot.symbol = sym ∧ lot.isClosed = false then lot.remainingQty else 0

theorem sum_filter_eq_sum_openIn (agentId : AgentId) (sym : String) (lots : List Lot) :
    ((lots.filter fun lot => lot.agentId = agentId ∧ lot.symbol = sym ∧
      lot.isClosed = false).map (·.remainingQty)).sum = (lots.map (openIn agentId sym)).sum := by
  induction lots with
  | nil => rfl
  | cons lot lots ih =>
    rw [List.map_cons, List.sum_cons, ← ih, openIn, List.filter_cons]
    by_cases h : lot.agentId = agentId ∧ lot.symbol = sym ∧ lot.isClosed = false
    · rw [if_pos h, if_pos (decide_eq_true h), List.map_cons, List.sum_cons]
    · rw [if_neg h, if_neg (by simpa using h), zero_add]

theorem totalOpenQty_eq (l : LotLedger) (agentId : AgentId) (symbol : String) :
    l.totalOpenQty agentId symbol = l.total (openIn agentId (normalizeSymbol symbol)) :=
  sum_filter_eq_sum_openIn _ _ _

theorem get?_foldl_addOpenQty (agentId : AgentId) (sym : String) (lots : List Lot)
    (out : Dict String Decimal) :
    ((lots.foldl (addOpenQty agentId) out).get? sym).getD 0 =
      (out.get? sym).getD 0 + (lots.map (openIn agentId sym)).sum := by
  induction lots generalizing out with
  | nil => simp
  | cons lot lots ih =>
    rw [List.foldl_cons, ih, List.map_cons, List.sum_cons, ← add_assoc]
    congr 1
    unfold addOpenQty openIn
    by_cases hskip : lot.agentId ≠ agentId ∨ lot.isClosed = true
    · have hnot : ¬(lot.agentId = agentId ∧ lot.symbol = sym ∧ lot.isClosed = false) := by
        rintro ⟨ha, -, hopen⟩
        rcases hskip with hne | hclosed
        · exact hne ha
        · rw [hopen] at hclosed
          exact Bool.false_ne_true hclosed
      rw [if_pos hskip, if_neg hnot, add_zero]
    · rw [not_or, not_not, Bool.not_eq_true] at hskip
      rw [if_neg (by simp [hskip]), Dict.get?_set]
      by_cases hsym : sym = lot.symbol
      · rw [if_pos hsym, if_pos ⟨hskip.1, hsym.symm, hskip.2⟩, hsym]
        rfl
      · rw [if_neg hsym, if_neg fun hc => hsym hc.2.1.symm, add_zero]

/-- **The open quantities are the sums over the lots**, of the symbols where something is left. -/
theorem get?_openQtyBySymbol (l : LotLedger) (agentId : AgentId) (sym : String) :
    (l.openQtyBySymbol agentId).get? sym =
      if 0 < l.total (openIn agentId sym) then some (l.total (openIn agentId sym)) else none := by
  have hfold := get?_foldl_addOpenQty agentId sym l.allLots .empty
  rw [Dict.get?_empty, Option.getD_none, zero_add] at hfold
  rw [openQtyBySymbol, Dict.get?_filter, total, ← hfold]
  cases (l.allLots.foldl (addOpenQty agentId) .empty).get? sym with
  | none => simp
  | some qty =>
    by_cases hqty : 0 < qty
    · simp [hqty]
    · simpa [hqty] using not_lt.mp hqty

/-! ### Ledgers without short lots -/

variable {l l' : LotLedger} {agentId : AgentId} {snapshot : MarketSnapshot}

/-- Nothing is held short. -/
def LongOnly (l : LotLedger) : Prop := ∀ lot ∈ l.allLots, 0 ≤ lot.remainingQty

theorem LongOnly.openIn_nonneg (hl : l.LongOnly) (agentId : AgentId) (sym : String) :
    ∀ lot ∈ l.allLots, 0 ≤ openIn agentId sym lot := by
  intro lot hlot
  rw [openIn]
  split_ifs
  · exact hl lot hlot
  · exact le_rfl

theorem LongOnly.total_nonneg (hl : l.LongOnly) (agentId : AgentId) (sym : String) :
    0 ≤ l.total (openIn agentId sym) := by
  refine List.sum_nonneg fun q hq => ?_
  obtain ⟨lot, hlot, rfl⟩ := List.mem_map.mp hq
  exact hl.openIn_nonneg agentId sym lot hlot

/-- What a sell can consume is what is open. -/
theorem LongOnly.sum_candidates (hl : l.LongOnly) (agentId : AgentId) (symbol : String)
    (method : LotMethod) :
    ((l.candidates agentId (normalizeSymbol symbol) method).map (·.remainingQty)).sum =
      l.totalOpenQty agentId symbol := by
  rw [LotLedger.sum_candidates, totalOpenQty_eq, total, total]
  refine congrArg List.sum (List.map_congr_left fun lot hlot => ?_)
  rw [openIn]
  by_cases hopen : lot.agentId = agentId ∧ lot.symbol = normalizeSymbol symbol ∧
    lot.isClosed = false
  · rcases (hl lot hlot).eq_or_lt with hzero | hpos
    · rw [← hzero, ite_self, ite_self]
    · rw [if_pos hopen, if_pos ⟨hopen.1, hopen.2.1, hopen.2.2, hpos⟩]
  · rw [if_neg hopen, if_neg fun hc => hopen ⟨hc.1, hc.2.1, hc.2.2.1⟩]

/-- **The gross is a sum over symbols**, over any that have a lot among them. -/
theorem LongOnly.sleeveGrossNotional_eq (hl : l.LongOnly) {syms : List String} (hnd : syms.Nodup)
    (hsub : ∀ lot ∈ l.allLots, lot.symbol ∈ syms) :
    l.sleeveGrossNotional agentId snapshot =
      (syms.map fun sym =>
        l.total (openIn agentId sym) * l.markOrEntry agentId snapshot sym).sum := by
  have hkeys : ∀ sym ∈ (l.openQtyBySymbol agentId).keys, sym ∈ syms := by
    intro sym hsym
    obtain ⟨qty, hqty⟩ := Dict.mem_keys_iff.mp hsym
    rw [get?_openQtyBySymbol] at hqty
    split_ifs at hqty with hpos
    by_contra hc
    -- no lot counts towards a symbol that is not among them
    have hzero : l.total (openIn agentId sym) = 0 := by
      refine List.sum_eq_zero fun q hq => ?_
      obtain ⟨lot, hlot, rfl⟩ := List.mem_map.mp hq
      rw [openIn, if_neg]
      rintro ⟨-, rfl, -⟩
      exact hc (hsub lot hlot)
    exact hpos.ne' hzero
  rw [sleeveGrossNotional, Dict.sum_entries_eq_sum_keys _ hnd hkeys]
  refine congrArg List.sum (List.map_congr_left fun sym _ => ?_)
  rw [get?_openQtyBySymbol]
  rcases (hl.total_nonneg agentId sym).eq_or_lt with hzero | hpos
  · rw [← hzero, if_neg (lt_irrefl _), zero_mul]
    rfl
  · rw [if_pos hpos, Option.map_some, Option.getD_some]
    exact if_neg hpos.not_ge

/-! ### A holding that grows or shrinks -/

/-- `l'` is `l` with some quantity more of one symbol, which may be less. -/
structure Moves (l l' : LotLedger) (agentId : AgentId) (sym : String) (qty : Decimal) : Prop where
  total : ∀ sym', l'.total (openIn agentId sym') =
    l.total (openIn agentId sym') + if sym' = sym then qty else 0
  others : ∀ sym', normalizeSymbol sym' ≠ sym → l'.openLots agentId sym' = l.openLots agentId sym'

/-- **The gross follows the holding**, at the mark. -/
theorem Moves.sleeveGrossNotional {sym : String} {qty mark : Decimal}
    (h : l.Moves l' agentId sym qty) (hl : l.LongOnly) (hl' : l'.LongOnly)
    (hsym : normalizeSymbol sym = sym) (hmark : snapshot.mark? sym = some mark) :
    l'.sleeveGrossNotional agentId snapshot =
      l.sleeveGrossNotional agentId snapshot + qty * mark := by
  set syms := (sym :: (l.allLots ++ l'.allLots).map (·.symbol)).dedup with hsyms
  have hnd : syms.Nodup := List.nodup_dedup _
  have hsub : ∀ lot ∈ l.allLots ++ l'.allLots, lot.symbol ∈ syms := fun lot hlot =>
    List.mem_dedup.mpr (List.mem_cons_of_mem _ (List.mem_map_of_mem hlot))
  have hmem : sym ∈ syms := List.mem_dedup.mpr List.mem_cons_self
  have hat : ∀ l : LotLedger, ∀ sym', normalizeSymbol sym' = sym →
      l.markOrEntry agentId snapshot sym' = mark := by
    intro l sym' hsym'
    rw [markOrEntry, hsym', hmark]
  rw [hl.sleeveGrossNotional_eq hnd fun lot hlot => hsub lot (List.mem_append_left _ hlot),
    hl'.sleeveGrossNotional_eq hnd fun lot hlot => hsub lot (List.mem_append_right _ hlot)]
  refine Dict.sum_map_add_at hnd hmem ?_ fun sym' hne => ?_
  · rw [hat l sym hsym, hat l' sym hsym, h.total, if_pos rfl, add_mul]
  · rw [h.total, if_neg hne, add_zero]
    congr 1
    -- only a symbol without a mark is worth what its lots say
    by_cases hk : normalizeSymbol sym' = sym
    · rw [hat l sym' hk, hat l' sym' hk]
    · rw [markOrEntry, markOrEntry, h.others sym' hk]

/-! ### What a fill does to the holdings -/

variable {fill : Fill} {lotId : LotId} {method : LotMethod}

/-- A purchase adds what it bought. -/
theorem moves_buy (hnew : fill.id ∉ l.booked) (hfresh : lotId ∉ l.lots.keys)
    (hside : fill.side = .buy) :
    l.Moves (l.bookFill fill lotId method) fill.agentId (normalizeSymbol fill.symbol)
      fill.qty := by
  rw [bookFill_of_buy hnew hside]
  constructor
  · intro sym'
    have hadd := total_openLot (l := l.markBooked fill.id) fill (openIn fill.agentId sym') hfresh
    rw [hadd]
    change l.total _ + openIn fill.agentId sym' (.ofFill fill lotId) = _
    congr 1
    by_cases hk : sym' = normalizeSymbol fill.symbol
    · rw [if_pos hk, openIn, if_pos ⟨rfl, hk.symm, rfl⟩]
      rfl
    · rw [if_neg hk, openIn, if_neg fun hc => hk hc.2.1.symm]
  · intro sym' hne
    have hlots : ((l.markBooked fill.id).openLot fill lotId).allLots =
        l.allLots ++ [.ofFill fill lotId] := by
      change (l.lots.set lotId (.ofFill fill lotId)).values = _
      rw [Dict.values, Dict.entries_set_of_notMem _ hfresh, List.map_append]
      rfl
    rw [openLots, openLots, hlots, List.filter_append, List.filter_singleton,
      decide_eq_false fun hc => hne hc.2.1.symm]
    exact List.append_nil _

/-- Replacing lots leaves a search alone that finds neither the old ones nor the new. -/
theorem filter_replace {p : Lot → Bool} {pairs : List (Lot × Lot)}
    (hnd : (pairs.map fun q => q.1.id).Nodup) (hid : ∀ q ∈ pairs, q.2.id = q.1.id)
    (hfail : ∀ q ∈ pairs, p q.1 = false ∧ p q.2 = false) {lots : Dict LotId Lot}
    (hmem : ∀ q ∈ pairs, lots.get? q.1.id = some q.1) :
    ((pairs.map Prod.snd).foldl (fun lots lot => lots.set lot.id lot) lots).values.filter p =
      lots.values.filter p := by
  induction pairs generalizing lots with
  | nil => rfl
  | cons q pairs ih =>
    obtain ⟨hnot, hnd'⟩ := List.nodup_cons.mp hnd
    have hq := hmem q List.mem_cons_self
    have hqid := hid q List.mem_cons_self
    obtain ⟨hold, hrest⟩ := hfail q List.mem_cons_self
    rw [List.map_cons, List.foldl_cons, hqid, ih hnd' (fun q' h => hid q' (.tail _ h))
      (fun q' h => hfail q' (.tail _ h)), Dict.filter_values_set hq hold hrest]
    intro q' hq'
    have hne : q'.1.id ≠ q.1.id := fun hc => hnot (List.mem_map.mpr ⟨q', hq', hc⟩)
    rw [Dict.get?_set_of_ne _ hne]
    exact hmem q' (.tail _ hq')

/-- What a sell leaves of a lot counts for what it leaves. -/
theorem openIn_consume (lot : Lot) (taken : Decimal) (sym : String) :
    openIn agentId sym (lot.consume taken fill) =
      if lot.agentId = agentId ∧ lot.symbol = sym then (lot.consume taken fill).remainingQty
      else 0 := by
  have hclosed : (lot.consume taken fill).isClosed = true ↔
      (lot.consume taken fill).remainingQty = 0 := decide_eq_true_iff
  change (if lot.agentId = agentId ∧ lot.symbol = sym ∧
    (lot.consume taken fill).isClosed = false then _ else 0) = _
  by_cases hlot : lot.agentId = agentId ∧ lot.symbol = sym
  · rw [if_pos hlot]
    split_ifs with hopen
    · rfl
    · refine (hclosed.mp ?_).symm
      by_contra hc
      exact hopen ⟨hlot.1, hlot.2, Bool.not_eq_true _ ▸ hc⟩
  · rw [if_neg hlot, if_neg fun hc => hlot ⟨hc.1, hc.2.1⟩]

/-- A sell the ledger can meet takes what it sold, and a residual, off its own symbol alone. -/
theorem moves_of_sells {consumed : List (Lot × Decimal)}
    (hsells : (l.markBooked fill.id).Sells l' consumed fill) (hkeyed : l.Keyed)
    (hconsumed : consumed = l.consumption fill.agentId fill.symbol fill.qty method)
    (hlots : l'.allLots = ((consumed.map fun p => p.1.consume p.2 fill).foldl
      (fun lots lot => lots.set lot.id lot) l.lots).values) :
    l.Moves l' fill.agentId (normalizeSymbol fill.symbol)
      (-((consumed.map Prod.snd).sum + (consumed.map (FillBooks.residual fill)).sum)) := by
  subst hconsumed
  constructor
  · intro sym'
    have hterm : ∀ p ∈ l.consumption fill.agentId fill.symbol fill.qty method,
        openIn fill.agentId sym' (p.1.consume p.2 fill) - openIn fill.agentId sym' p.1 =
          if sym' = normalizeSymbol fill.symbol then -(p.2 + FillBooks.residual fill p) else 0 := by
      intro p hp
      obtain ⟨⟨-, ha, hsym, hopen⟩, -⟩ := of_mem_consumption hp
      rw [openIn_consume, openIn, ha, hsym, hopen, FillBooks.residual]
      by_cases hk : sym' = normalizeSymbol fill.symbol
      · rw [if_pos ⟨rfl, hk.symm⟩, if_pos ⟨rfl, hk.symm, rfl⟩, if_pos hk]
        ring
      · rw [if_neg fun hc => hk hc.2.symm, if_neg fun hc => hk hc.2.1.symm, if_neg hk, sub_zero]
    rw [FillBooks.total_of_sells hsells hterm, sub_eq_add_neg]
    change l.total _ + _ = _
    split_ifs
    · rfl
    · rw [neg_zero]
  · intro sym' hne
    let pairs := (l.consumption fill.agentId fill.symbol fill.qty method).map fun p =>
      (p.1, p.1.consume p.2 fill)
    have hpairs : l'.allLots =
        ((pairs.map Prod.snd).foldl (fun lots lot => lots.set lot.id lot) l.lots).values := by
      rw [hlots, List.map_map]
      rfl
    have hnd : (pairs.map fun q => q.1.id).Nodup := by
      rw [List.map_map]
      exact nodup_consumption hkeyed fill.qty
    rw [openLots, openLots, hpairs]
    refine filter_replace hnd ?_ ?_ ?_ <;> rintro q hq <;>
      obtain ⟨p, hp, rfl⟩ := List.mem_map.mp hq
    · rfl
    · obtain ⟨⟨-, -, hsym, -⟩, -⟩ := of_mem_consumption hp
      have hother : p.1.symbol ≠ normalizeSymbol sym' := fun hc => hne (hc.symm.trans hsym)
      exact ⟨decide_eq_false fun hc => hother hc.2.1, decide_eq_false fun hc => hother hc.2.1⟩
    · exact hkeyed.get?_of_mem (of_mem_consumption hp).1.1

variable (lotId method) in
/-- **A sale of what the ledger has** takes what it sold, and a residual. -/
theorem moves_sell_of_le (hl : l.LongOnly) (hkeyed : l.Keyed) (hnew : fill.id ∉ l.booked)
    (hside : fill.side = .sell) (hqty : 0 ≤ fill.qty)
    (havail : fill.qty ≤ l.totalOpenQty fill.agentId fill.symbol) :
    l.Moves (l.bookFill fill lotId method) fill.agentId (normalizeSymbol fill.symbol)
      (-(fill.qty + ((l.consumption fill.agentId fill.symbol fill.qty method).map
        (FillBooks.residual fill)).sum)) := by
  have hcand := havail
  rw [← hl.sum_candidates _ _ method] at hcand
  set consumed := l.consumption fill.agentId fill.symbol fill.qty method with hconsumed
  have hsells : (l.markBooked fill.id).Sells (l.bookFill fill lotId method) consumed fill :=
    bookFill_of_sell hkeyed hnew hside hcand lotId
  have hsum : (consumed.map Prod.snd).sum = fill.qty := sum_consumption hqty hcand
  have hmoves : l.Moves (l.bookFill fill lotId method) fill.agentId _ _ :=
    moves_of_sells hsells hkeyed hconsumed
      (by rw [bookFill_of_candidates hnew hside rfl hcand]; rfl)
  rwa [hsum] at hmoves

variable (lotId method) in
/-- A sale of more than the ledger has changes no lot. -/
theorem moves_sell_of_lt (hl : l.LongOnly) (hnew : fill.id ∉ l.booked) (hside : fill.side = .sell)
    (hless : l.totalOpenQty fill.agentId fill.symbol < fill.qty) :
    l.Moves (l.bookFill fill lotId method) fill.agentId (normalizeSymbol fill.symbol) 0 := by
  rw [← hl.sum_candidates _ _ method] at hless
  rw [bookFill_of_lt hnew hside hless]
  refine ⟨fun sym' => ?_, fun _ _ => rfl⟩
  rw [ite_self, add_zero]
  rfl

variable (lotId method) in
/-- **A sale takes something**: all it sold, and a residual, if the ledger can meet it, and nothing
otherwise. -/
theorem moves_sell (hl : l.LongOnly) (hkeyed : l.Keyed) (hnew : fill.id ∉ l.booked)
    (hside : fill.side = .sell) (hqty : 0 ≤ fill.qty) :
    ∃ taken, 0 ≤ taken ∧
      (fill.qty ≤ l.totalOpenQty fill.agentId fill.symbol → fill.qty ≤ taken) ∧
      l.Moves (l.bookFill fill lotId method) fill.agentId (normalizeSymbol fill.symbol)
        (-taken) := by
  by_cases havail : fill.qty ≤ l.totalOpenQty fill.agentId fill.symbol
  · have hresidual : 0 ≤ ((l.consumption fill.agentId fill.symbol fill.qty method).map
        (FillBooks.residual fill)).sum := by
      refine List.sum_nonneg fun q hq => ?_
      obtain ⟨p, hp, rfl⟩ := List.mem_map.mp hq
      exact (FillBooks.residual_dust (of_mem_consumption hp).2.2).1
    exact ⟨_, by linarith, fun _ => by linarith,
      moves_sell_of_le lotId method hl hkeyed hnew hside hqty havail⟩
  · refine ⟨0, le_rfl, fun hc => absurd hc havail, ?_⟩
    rw [neg_zero]
    exact moves_sell_of_lt lotId method hl hnew hside (not_le.mp havail)

variable (lotId method) in
/-- Whatever is booked, the ledger stays keyed and holds nothing short. -/
theorem LongOnly.bookFill (hl : l.LongOnly) (hkeyed : l.Keyed) (hnew : fill.id ∉ l.booked)
    (hqty : 0 ≤ fill.qty) :
    (l.bookFill fill lotId method).Keyed ∧ (l.bookFill fill lotId method).LongOnly := by
  refine ⟨hkeyed.bookFill, ?_⟩
  rcases bookFill_cases hkeyed fill lotId method with ⟨hold, -⟩ | ⟨-, -, heq⟩ | ⟨-, -, heq⟩ |
    ⟨-, -, hsells⟩
  · exact absurd hold hnew
  · rw [heq]
    intro lot hlot
    rcases mem_openLot fill hlot with rfl | hold
    · exact hqty
    · exact hl lot hold
  · rw [heq]
    exact hl
  · intro lot hlot
    rcases hsells.mem lot hlot with hold | ⟨p, hp, rfl⟩
    · exact hl lot hold
    · exact FillBooks.remainingQty_consume_nonneg (of_mem_consumption hp).2.2

end LotLedger

end TradingPlatform
