import TradingPlatform.Execution.Planner

/-!
# Orders in flight

The planner sizes an intent by the fills that were booked. Between a plan and the fill of its order
other intents are planned, and each of them is sized as if nothing were under way: two purchases
that fit below the cap one by one may not fit together, and a holding can be sold twice.

Whether that happens is settled when an order is placed. If a purchase fits next to what is under
way to be bought, and a sale is of what is held and not under way to be sold already, then however
the orders are filled, the gross stays below the cap and nothing is sold that was not bought
(`TradingPlatform.FlightDesk.safe_run`).
-/

namespace TradingPlatform

/-- What stays as it is while the orders are under way: one agent, its state, the settings and the
market. -/
structure FlightDesk where
  agentId : AgentId
  settings : SizingSettings
  agentState : AgentState
  snapshot : MarketSnapshot
  method : LotMethod

/-- The ledger, the planner, the orders that were submitted, and the fills of them so far. -/
structure InFlight where
  ledger : LotLedger
  planner : ExecutionPlanner
  orders : Dict OrderId Order
  fills : List Fill

/-- An intent is planned, and its order submitted; or an order is filled, in part or in full. -/
inductive FlightOp
  | plan (intent : Intent) (orderId : OrderId) (now : Time)
  | fill (orderId : OrderId) (qty : Decimal) (fillId : FillId) (lotId : LotId) (timestamp : Time)

/-- Whether an operation is a fill. -/
def FlightOp.IsFill : FlightOp → Prop
  | .plan _ _ _ => False
  | .fill _ _ _ _ _ => True

/-- What is still to be filled of an order. -/
def Order.remaining (order : Order) : Decimal := order.qty - order.filledQty

/-- Nothing is planned yet. -/
def InFlight.start (ledger : LotLedger) (planner : ExecutionPlanner) : InFlight :=
  ⟨ledger, planner, .empty, []⟩

/-- Nothing is outstanding. -/
def InFlight.Cleared (s : InFlight) : Prop := ∀ order ∈ s.orders.values, order.remaining = 0

namespace FlightDesk

variable (d : FlightDesk)

/-- The mark an order is filled at. -/
def markFor (order : Order) : Decimal := (d.snapshot.mark? order.symbol).getD 0

/-- A fill of an order, at the mark. -/
def fillOf (order : Order) (qty : Decimal) (fillId : FillId) (timestamp : Time) : Fill where
  id := fillId
  orderId := order.id
  agentId := order.agentId
  symbol := order.symbol
  side := order.side
  qty := qty
  price := d.markFor order
  timestamp := timestamp

def step (s : InFlight) : FlightOp → InFlight
  | .plan intent orderId now =>
    match s.planner.plan s.ledger d.settings intent d.agentState d.snapshot orderId now with
    | .error _ => s
    | .ok (planner, .error _) => { s with planner := planner }
    | .ok (planner, .ok order) =>
      { s with planner := planner, orders := s.orders.set order.id order }
  | .fill orderId qty fillId lotId timestamp =>
    match s.orders.get? orderId with
    | none => s
    | some order =>
      let fill := d.fillOf order qty fillId timestamp
      { s with
        ledger := s.ledger.bookFill fill lotId d.method
        orders := s.orders.set orderId { order with filledQty := order.filledQty + qty }
        fills := s.fills ++ [fill] }

/-- **What can happen**: any intent for shares of the agent is planned, under a new identifier; and
an order is filled by no more than what remains of it, under new identifiers. -/
def Admissible (s : InFlight) : FlightOp → Prop
  | .plan intent orderId _ =>
    intent.agentId = d.agentId ∧ intent.legs = [] ∧ orderId ∉ s.orders.keys
  | .fill orderId qty fillId lotId _ =>
    (∃ order ∈ s.orders.get? orderId, 0 < qty ∧ qty ≤ order.remaining) ∧
      fillId ∉ s.ledger.booked ∧ lotId ∉ s.ledger.lots.keys

/-- What is under way to be bought, at the marks. -/
def outstandingBuys (orders : Dict OrderId Order) : Decimal :=
  (orders.entries.map fun e =>
    if e.2.side = .buy then e.2.remaining * d.markFor e.2 else 0).sum

/-- What is under way to be sold of a symbol. -/
def outstandingSells (orders : Dict OrderId Order) (sym : String) : Decimal :=
  (orders.entries.map fun e =>
    if e.2.side = .sell ∧ e.2.symbol = sym then e.2.remaining else 0).sum

/-- **The condition**: a purchase fits below the cap next to what is under way to be bought; a sale
is of what is held and not under way to be sold; and when a sale is filled the ledger has the
shares, so that no residual of it was written off. -/
def Paced (effectiveGross : Decimal) (s : InFlight) : FlightOp → Prop
  | .plan intent _ _ =>
    (intendedTrade s.ledger effectiveGross (effectiveVolTarget d.agentId d.settings) intent
      d.agentState d.snapshot).Fits
        (effectiveGross * d.agentState.sleeveEquity -
          s.ledger.sleeveGrossNotional d.agentId d.snapshot - d.outstandingBuys s.orders)
        (s.ledger.totalOpenQty d.agentId intent.symbol -
          outstandingSells s.orders (normalizeSymbol intent.symbol))
  | .fill orderId qty _ _ _ =>
    ∀ order ∈ s.orders.get? orderId, order.side = .sell →
      qty ≤ s.ledger.totalOpenQty d.agentId order.symbol

/-- **Safe**: however the outstanding orders are filled, when all are the gross is below the cap,
and of no symbol was more sold than there was at first and was bought. -/
def Safe (effectiveGross : Decimal) (first : LotLedger) (s : InFlight) : Prop :=
  ∀ fills, (∀ op ∈ fills, op.IsFill) → Along d.step d.Admissible s fills →
    (run d.step s fills).Cleared →
      (run d.step s fills).ledger.sleeveGrossNotional d.agentId d.snapshot ≤
          effectiveGross * d.agentState.sleeveEquity ∧
        ∀ symbol, 0 ≤ first.totalOpenQty d.agentId symbol +
          netOf (run d.step s fills).fills d.agentId (normalizeSymbol symbol)

/-! ### The invariant -/

/-- What is known of every order: it is the agent's, for a symbol in its canonical form that has a
mark, and no more of it was filled than there was. -/
structure Known (order : Order) : Prop where
  agentId : order.agentId = d.agentId
  symbol : normalizeSymbol order.symbol = order.symbol
  mark : d.snapshot.mark? order.symbol = some (d.markFor order)
  remaining : 0 ≤ order.remaining

/-- What the fills leave the agent of a symbol, with what there was at first. -/
def net (first : LotLedger) (s : InFlight) (sym : String) : Decimal :=
  first.total (LotLedger.openIn d.agentId sym) + netOf s.fills d.agentId sym

/-- **The invariant of the fills**: there is room below the cap for all that is under way to be
bought, and all that is under way to be sold is there. -/
structure Room (effectiveGross : Decimal) (first : LotLedger) (s : InFlight) : Prop where
  keyed : s.ledger.Keyed
  longOnly : s.ledger.LongOnly
  known : ∀ k order, s.orders.get? k = some order → d.Known order
  gross : s.ledger.sleeveGrossNotional d.agentId d.snapshot + d.outstandingBuys s.orders ≤
    effectiveGross * d.agentState.sleeveEquity
  sells : ∀ sym, outstandingSells s.orders sym ≤ d.net first s sym

/-- **The invariant**: moreover the ledger holds no more than the fills left. -/
structure Inv (effectiveGross : Decimal) (first : LotLedger) (s : InFlight) : Prop
    extends d.Room effectiveGross first s where
  held : ∀ sym, s.ledger.total (LotLedger.openIn d.agentId sym) ≤ d.net first s sym

variable {d} {effectiveGross : Decimal} {first : LotLedger} {s : InFlight}

section Fill

variable {orderId : OrderId} {qty : Decimal} {fillId : FillId} {lotId : LotId} {timestamp : Time}
  {order : Order}

theorem step_fill (ho : s.orders.get? orderId = some order) :
    d.step s (.fill orderId qty fillId lotId timestamp) =
      { s with
        ledger := s.ledger.bookFill (d.fillOf order qty fillId timestamp) lotId d.method
        orders := s.orders.set orderId { order with filledQty := order.filledQty + qty }
        fills := s.fills ++ [d.fillOf order qty fillId timestamp] } := by
  dsimp only [step]
  rw [ho]

/-- What a fill does to what is known of the order. -/
theorem Known.fill (h : d.Known order) (hqty : qty ≤ order.remaining) :
    d.Known { order with filledQty := order.filledQty + qty } where
  agentId := h.agentId
  symbol := h.symbol
  mark := h.mark
  remaining := by
    change 0 ≤ order.qty - (order.filledQty + qty)
    rw [← sub_sub]
    exact sub_nonneg.mpr hqty

/-- A fill takes what it filled off what remains. -/
theorem remaining_fill (order : Order) (qty : Decimal) :
    { order with filledQty := order.filledQty + qty }.remaining = order.remaining - qty := by
  rw [Order.remaining, Order.remaining, sub_sub]

theorem outstandingBuys_fill (ho : s.orders.get? orderId = some order) (qty : Decimal) :
    d.outstandingBuys (s.orders.set orderId { order with filledQty := order.filledQty + qty }) =
      d.outstandingBuys s.orders - if order.side = .buy then qty * d.markFor order else 0 := by
  have hterm : (if order.side = .buy then (order.remaining - qty) * d.markFor order else 0) -
      (if order.side = .buy then order.remaining * d.markFor order else 0) =
        -if order.side = .buy then qty * d.markFor order else 0 := by
    split_ifs <;> ring
  rw [sub_eq_add_neg, ← hterm, ← remaining_fill]
  exact Dict.sum_set_of_get? s.orders ho _ _

theorem outstandingSells_fill (ho : s.orders.get? orderId = some order) (qty : Decimal)
    (sym : String) :
    outstandingSells (s.orders.set orderId { order with filledQty := order.filledQty + qty }) sym =
      outstandingSells s.orders sym -
        if order.side = .sell ∧ order.symbol = sym then qty else 0 := by
  have hterm : (if order.side = .sell ∧ order.symbol = sym then order.remaining - qty else 0) -
      (if order.side = .sell ∧ order.symbol = sym then order.remaining else 0) =
        -if order.side = .sell ∧ order.symbol = sym then qty else 0 := by
    split_ifs <;> ring
  rw [sub_eq_add_neg, ← hterm, ← remaining_fill]
  exact Dict.sum_set_of_get? s.orders ho _ _

/-- What a fill leaves the agent of a symbol. -/
theorem net_fill (h : d.Known order) (ledger : LotLedger) (planner : ExecutionPlanner)
    (orders : Dict OrderId Order) (sym : String) :
    d.net first ⟨ledger, planner, orders, s.fills ++ [d.fillOf order qty fillId timestamp]⟩ sym =
      d.net first s sym + if order.symbol = sym then
        (match order.side with
        | .buy => qty
        | .sell => -qty) else 0 := by
  have hsame : (d.fillOf order qty fillId timestamp).agentId = d.agentId ∧
      normalizeSymbol (d.fillOf order qty fillId timestamp).symbol = sym ↔ order.symbol = sym := by
    change order.agentId = d.agentId ∧ normalizeSymbol order.symbol = sym ↔ _
    rw [h.agentId, h.symbol]
    exact and_iff_right rfl
  rw [net, net, FillBooks.netOf_concat, ← add_assoc, if_congr hsame rfl rfl]
  rfl

variable (timestamp) in
/-- **What a fill does to the holding**: a purchase adds what was filled, and a sale takes
something, at least what was filled if the ledger has it. -/
theorem Room.moves (h : d.Room effectiveGross first s) (ho : s.orders.get? orderId = some order)
    (hqty : 0 < qty) (hfill : fillId ∉ s.ledger.booked) (hlot : lotId ∉ s.ledger.lots.keys) :
    ∃ moved, s.ledger.Moves
        (s.ledger.bookFill (d.fillOf order qty fillId timestamp) lotId d.method) d.agentId
        order.symbol moved ∧
      match order.side with
      | .buy => moved = qty
      | .sell => moved ≤ 0 ∧
        (qty ≤ s.ledger.totalOpenQty d.agentId order.symbol → moved ≤ -qty) := by
  obtain ⟨hagent, hsym, -, -⟩ := h.known orderId order ho
  set fill := d.fillOf order qty fillId timestamp with hfilled
  have hfagent : fill.agentId = d.agentId := hagent
  have hfsym : normalizeSymbol fill.symbol = order.symbol := hsym
  cases hside : order.side with
  | buy =>
    have hmoves : s.ledger.Moves (s.ledger.bookFill fill lotId d.method) fill.agentId
        (normalizeSymbol fill.symbol) fill.qty :=
      LotLedger.moves_buy hfill hlot hside
    rw [hfagent, hfsym] at hmoves
    exact ⟨qty, hmoves, rfl⟩
  | sell =>
    have hnew : fill.id ∉ s.ledger.booked := hfill
    obtain ⟨taken, htaken, hall, hmoves⟩ :=
      LotLedger.moves_sell lotId d.method h.longOnly h.keyed hnew hside hqty.le
    rw [hfagent, hfsym] at hmoves
    rw [hfagent] at hall
    exact ⟨-taken, hmoves, neg_nonpos.mpr htaken, fun hc => neg_le_neg (hall hc)⟩

/-- **A fill keeps the room**, whatever the ledger makes of it. -/
theorem Room.fill (h : d.Room effectiveGross first s)
    (ha : d.Admissible s (.fill orderId qty fillId lotId timestamp)) :
    d.Room effectiveGross first (d.step s (.fill orderId qty fillId lotId timestamp)) := by
  obtain ⟨⟨order, ho, hqty, hrem⟩, hfill, hlot⟩ := ha
  have hknown := h.known orderId order ho
  obtain ⟨moved, hmoves, hmoved⟩ := h.moves timestamp ho hqty hfill hlot
  have hnew : (d.fillOf order qty fillId timestamp).id ∉ s.ledger.booked := hfill
  have hbook := h.longOnly.bookFill lotId d.method h.keyed hnew hqty.le
  have hmark : 0 < d.markFor order := mark_pos hknown.mark
  rw [step_fill ho]
  refine ⟨hbook.1, hbook.2, ?_, ?_, ?_⟩
  · intro k order' hk
    dsimp only at hk
    rw [Dict.get?_set] at hk
    split_ifs at hk
    · cases hk
      exact hknown.fill hrem
    · exact h.known k order' hk
  · -- what is bought moves from the orders to the holding
    have hgross := h.gross
    dsimp only
    rw [hmoves.sleeveGrossNotional h.longOnly hbook.2 hknown.symbol hknown.mark,
      outstandingBuys_fill ho]
    cases hside : order.side with
    | buy =>
      rw [hside] at hmoved
      rw [if_pos rfl, hmoved]
      linarith
    | sell =>
      rw [hside] at hmoved
      have hless : moved * d.markFor order ≤ 0 :=
        mul_nonpos_of_nonpos_of_nonneg hmoved.1 hmark.le
      rw [if_neg (by decide)]
      linarith
  · intro sym
    have hsells := h.sells sym
    dsimp only
    rw [outstandingSells_fill ho, net_fill hknown]
    cases hside : order.side with
    | buy =>
      rw [if_neg fun hc => OrderSide.noConfusion hc.1]
      split_ifs
      · linarith
      · linarith
    | sell =>
      simp only [true_and]
      split_ifs
      · linarith
      · linarith

/-- A fill the ledger has the shares for keeps the invariant. -/
theorem Inv.fill (h : d.Inv effectiveGross first s)
    (ha : d.Admissible s (.fill orderId qty fillId lotId timestamp))
    (hpaced : d.Paced effectiveGross s (.fill orderId qty fillId lotId timestamp)) :
    d.Inv effectiveGross first (d.step s (.fill orderId qty fillId lotId timestamp)) := by
  refine ⟨h.toRoom.fill ha, fun sym => ?_⟩
  obtain ⟨⟨order, ho, hqty, -⟩, hfill, hlot⟩ := ha
  obtain ⟨moved, hmoves, hmoved⟩ := h.toRoom.moves timestamp ho hqty hfill hlot
  have hheld := h.held sym
  rw [step_fill ho]
  dsimp only
  rw [hmoves.total, net_fill (h.known orderId order ho)]
  by_cases hsym : order.symbol = sym
  · rw [if_pos hsym.symm, if_pos hsym]
    cases hside : order.side with
    | buy =>
      rw [hside] at hmoved
      rw [hmoved]
      exact add_le_add_left hheld qty
    | sell =>
      rw [hside] at hmoved
      exact add_le_add hheld (hmoved.2 (hpaced order ho hside))
  · rw [if_neg fun hc => hsym hc.symm, if_neg hsym, add_zero, add_zero]
    exact hheld

end Fill

/-! ### Plans -/

/-- An order that is new adds its term. -/
theorem outstandingBuys_plan {order : Order} (hfresh : order.id ∉ s.orders.keys) :
    d.outstandingBuys (s.orders.set order.id order) =
      d.outstandingBuys s.orders +
        if order.side = .buy then order.remaining * d.markFor order else 0 :=
  Dict.sum_set_of_notMem s.orders hfresh order _

theorem outstandingSells_plan {order : Order} (hfresh : order.id ∉ s.orders.keys) (sym : String) :
    outstandingSells (s.orders.set order.id order) sym =
      outstandingSells s.orders sym +
        if order.side = .sell ∧ order.symbol = sym then order.remaining else 0 :=
  Dict.sum_set_of_notMem s.orders hfresh order _

/-- **A plan that meets the condition keeps the invariant.** -/
theorem Inv.plan (hequity : 0 < d.agentState.sleeveEquity)
    (hgross : effectiveMaxGross d.agentId d.settings d.snapshot.vixBucket
      d.agentState.drawdownBucket = .ok effectiveGross) (h : d.Inv effectiveGross first s)
    {intent : Intent} {orderId : OrderId} {now : Time}
    (ha : d.Admissible s (.plan intent orderId now))
    (hpaced : d.Paced effectiveGross s (.plan intent orderId now)) :
    d.Inv effectiveGross first (d.step s (.plan intent orderId now)) := by
  obtain ⟨hagent, hlegs, hfresh⟩ := ha
  dsimp only [step]
  rcases hplan : s.planner.plan s.ledger d.settings intent d.agentState d.snapshot orderId now with
    error | ⟨planner, reason | order⟩
  · exact h
  · exact ⟨⟨h.keyed, h.longOnly, h.known, h.gross, h.sells⟩, h.held⟩
  dsimp only
  obtain ⟨sized, effectiveGross', mark, rfl, hgross', hmark, hqty, hcarried⟩ :=
    ExecutionPlanner.plan_ok hlegs hequity hplan
  rw [hagent, hgross, Except.ok.injEq] at hgross'
  subst hgross'
  rw [hagent] at hcarried
  set order := ExecutionPlanner.orderFor intent sized orderId now with horder
  have hid : order.id ∉ s.orders.keys := hfresh
  have hremaining : order.remaining = sized.qty := sub_zero _
  have hmarkFor : d.markFor order = mark := by
    rw [markFor]
    exact (congrArg (Option.getD · 0) hmark).trans rfl
  have hnew : d.Known order := by
    refine ⟨hagent, normalizeSymbol_idem _, ?_, ?_⟩
    · rw [hmarkFor]
      exact hmark
    · rw [hremaining]
      exact hqty.le
  have hknown : ∀ k order', (s.orders.set order.id order).get? k = some order' →
      d.Known order' := by
    intro k order' hk
    rw [Dict.get?_set] at hk
    split_ifs at hk
    · cases hk
      exact hnew
    · exact h.known k order' hk
  refine ⟨⟨h.keyed, h.longOnly, hknown, ?_, ?_⟩, h.held⟩
  · have hbought := hpaced.bought hcarried le_rfl (by linarith [h.gross])
    dsimp only
    rw [outstandingBuys_plan hid, hremaining, hmarkFor]
    change (if order.side = .buy then _ else _) ≤ _ at hbought
    linarith
  · intro sym
    dsimp only
    rw [outstandingSells_plan hid, hremaining]
    change _ ≤ d.net first s sym
    have hsells := h.sells sym
    by_cases hsym : order.symbol = sym
    · have hheld := h.held sym
      have hleft : s.ledger.totalOpenQty d.agentId intent.symbol -
          outstandingSells s.orders (normalizeSymbol intent.symbol) ≤
            d.net first s sym - outstandingSells s.orders sym := by
        rw [LotLedger.totalOpenQty_eq, show normalizeSymbol intent.symbol = sym from hsym]
        exact sub_le_sub_right hheld _
      have hsold := hpaced.sold hcarried hleft (sub_nonneg.mpr hsells)
      change (if order.side = .sell then _ else _) ≤ _ at hsold
      rw [if_congr (and_iff_left hsym) rfl rfl]
      linarith
    · rw [if_neg fun hc => hsym hc.2, add_zero]
      exact hsells

theorem Inv.step (hequity : 0 < d.agentState.sleeveEquity)
    (hgross : effectiveMaxGross d.agentId d.settings d.snapshot.vixBucket
      d.agentState.drawdownBucket = .ok effectiveGross) (h : d.Inv effectiveGross first s)
    {op : FlightOp} (ha : d.Admissible s op) (hpaced : d.Paced effectiveGross s op) :
    d.Inv effectiveGross first (d.step s op) := by
  cases op with
  | plan intent orderId now => exact h.plan hequity hgross ha hpaced
  | fill orderId qty fillId lotId timestamp => exact h.fill ha hpaced

theorem inv_start {ledger : LotLedger} (hkeyed : ledger.Keyed) (hlong : ledger.LongOnly)
    (hcap : ledger.sleeveGrossNotional d.agentId d.snapshot ≤
      effectiveGross * d.agentState.sleeveEquity) (planner : ExecutionPlanner) :
    d.Inv effectiveGross ledger (.start ledger planner) where
  keyed := hkeyed
  longOnly := hlong
  known k order hk := absurd hk (by simp [InFlight.start])
  gross := (add_zero _).trans_le hcap
  sells sym := (hlong.total_nonneg d.agentId sym).trans_eq (add_zero _).symm
  held sym := (add_zero _).ge

/-! ### Runs -/

/-- What is under way is not negative. -/
theorem Room.outstanding_nonneg (h : d.Room effectiveGross first s) :
    0 ≤ d.outstandingBuys s.orders ∧ ∀ sym, 0 ≤ outstandingSells s.orders sym := by
  have hremaining : ∀ e ∈ s.orders.entries, d.Known e.2 := fun e he =>
    h.known e.1 e.2 (Dict.get?_eq_some_iff.mpr he)
  constructor
  · refine List.sum_nonneg fun q hq => ?_
    obtain ⟨e, he, rfl⟩ := List.mem_map.mp hq
    obtain ⟨-, -, hmark, hrem⟩ := hremaining e he
    split_ifs
    · exact mul_nonneg hrem (mark_pos hmark).le
    · exact le_rfl
  · intro sym
    refine List.sum_nonneg fun q hq => ?_
    obtain ⟨e, he, rfl⟩ := List.mem_map.mp hq
    split_ifs
    · exact (hremaining e he).remaining
    · exact le_rfl

/-- **Where there is room the orders are safe**, however they are filled. -/
theorem Room.safe (h : d.Room effectiveGross first s) : d.Safe effectiveGross first s := by
  intro fills hfills hadm _
  have hroom : d.Room effectiveGross first (run d.step s fills) := by
    have hboth := (along_iff_forall_mem.mpr hfills).and hadm
    refine hboth.invariant (fun s op hs hop => ?_) h
    cases op with
    | plan intent orderId now => exact hop.1.elim
    | fill orderId qty fillId lotId timestamp => exact hs.fill hop.2
  obtain ⟨hbuys, hsells⟩ := hroom.outstanding_nonneg
  refine ⟨(le_add_of_nonneg_right hbuys).trans hroom.gross, fun symbol => ?_⟩
  rw [LotLedger.totalOpenQty_eq]
  exact (hsells _).trans (hroom.sells _)

/-- **When the orders in flight are safe**: in every run that starts below the cap and meets the
condition, at every moment. -/
theorem safe_run (hequity : 0 < d.agentState.sleeveEquity)
    (hgross : effectiveMaxGross d.agentId d.settings d.snapshot.vixBucket
      d.agentState.drawdownBucket = .ok effectiveGross)
    {ledger : LotLedger} (hkeyed : ledger.Keyed) (hlong : ledger.LongOnly)
    (hcap : ledger.sleeveGrossNotional d.agentId d.snapshot ≤
      effectiveGross * d.agentState.sleeveEquity) (planner : ExecutionPlanner)
    {ops : List FlightOp} (hadm : Along d.step d.Admissible (.start ledger planner) ops)
    (hpaced : Along d.step (d.Paced effectiveGross) (.start ledger planner) ops)
    {pre : List FlightOp} (hpre : pre <+: ops) :
    d.Safe effectiveGross ledger (run d.step (.start ledger planner) pre) := by
  have hinv : d.Inv effectiveGross ledger (run d.step (.start ledger planner) pre) :=
    (hadm.and hpaced).invariant_reached (fun s op hs hop => hs.step hequity hgross hop.1 hop.2)
      (inv_start hkeyed hlong hcap planner) hpre
  exact hinv.toRoom.safe

/-! ### A run that is safe, and two that are not -/

section Examples

instance : ∀ op : FlightOp, Decidable op.IsFill
  | .plan _ _ _ => inferInstanceAs (Decidable False)
  | .fill _ _ _ _ _ => inferInstanceAs (Decidable True)

instance (s : InFlight) : Decidable s.Cleared :=
  inferInstanceAs (Decidable (∀ order ∈ s.orders.values, order.remaining = 0))

instance (d : FlightDesk) (s : InFlight) : ∀ op, Decidable (d.Admissible s op)
  | .plan _ _ _ => inferInstanceAs (Decidable (_ ∧ _ ∧ _))
  | .fill orderId qty _ _ _ => inferInstanceAs (Decidable
      ((∃ order ∈ s.orders.get? orderId, 0 < qty ∧ qty ≤ order.remaining) ∧ _ ∧ _))

instance (d : FlightDesk) (effectiveGross : Decimal) (s : InFlight) :
    ∀ op, Decidable (d.Paced effectiveGross s op)
  | .plan _ _ _ => inferInstanceAs (Decidable (Trade.Fits _ _ _))
  | .fill orderId qty _ _ _ => inferInstanceAs (Decidable (∀ order ∈ s.orders.get? orderId,
      order.side = .sell → qty ≤ s.ledger.totalOpenQty d.agentId order.symbol))

/-- Sonnet has a thousand dollars, and two stocks stand at a hundred. -/
def thousandDesk : FlightDesk where
  agentId := .sonnet
  settings := ⟨1, .empty⟩
  agentState :=
    { agentId := .sonnet, sleeveEquity := 1000, sleevePeakEquity := 1000,
      drawdownBucket := .normal, drawdownBucketEntryDate := none, consecutiveLosses := 0,
      isBenched := false, benchUntil := none }
  snapshot :=
    { currentPrices := (Dict.empty.set "AAPL" 100).set "MSFT" 100
      realizedVol30d := (Dict.empty.set "AAPL" (25 / 100)).set "MSFT" (25 / 100)
      vixBucket := .sweetSpot }
  method := .fifo

/-- Sonnet's intents. -/
def intentOf (action : Action) (symbol : String) (targetWeight : Decimal) : Intent where
  id := 1
  agentId := .sonnet
  symbol := symbol
  action := action
  targetWeight := targetWeight
  sleeve := .equity
  conviction := 5

/-- A purchase is filled before the next one is planned, and sold again. -/
def pacedRun : List FlightOp :=
  [.plan (intentOf .buy "AAPL" (1 / 2)) 1 0, .fill 1 5 1 1 0,
    .plan (intentOf .buy "MSFT" (1 / 2)) 2 0, .fill 2 2 2 2 0,
    .plan (intentOf .close "AAPL" 0) 3 0]

theorem safe_pacedRun :
    thousandDesk.Safe (125 / 100) .empty
      (run thousandDesk.step (.start .empty .new) pacedRun) :=
  safe_run (by decide +kernel) (by decide +kernel)
    (fun _ _ h => absurd h (by simp [LotLedger.empty]))
    (fun _ h => absurd h List.not_mem_nil) (by decide +kernel) .new (by decide +kernel)
    (by decide +kernel) List.prefix_rfl

/-- Two purchases are planned, and then filled. -/
def twoPurchasesRun : List FlightOp :=
  [.plan (intentOf .buy "AAPL" 1) 1 0, .plan (intentOf .buy "MSFT" 1) 2 0]

/-- A holding is closed twice before the first sale is filled. -/
def twoClosesRun : List FlightOp :=
  [.plan (intentOf .buy "AAPL" 1) 1 0, .fill 1 10 1 1 0, .plan (intentOf .close "AAPL" 0) 2 0,
    .plan (intentOf .close "AAPL" 0) 3 0]

/-- **Twice the sleeve, and twice the holding**: two purchases of the whole sleeve pass the cap one
by one, and ten shares are sold twice. -/
theorem not_safe_twoPurchasesRun :
    ¬thousandDesk.Safe (125 / 100) .empty
        (run thousandDesk.step (.start .empty .new) twoPurchasesRun) ∧
      ¬thousandDesk.Safe (125 / 100) .empty
        (run thousandDesk.step (.start .empty .new) twoClosesRun) := by
  constructor
  · intro h
    have hfilled := h [.fill 1 10 1 1 0, .fill 2 10 2 2 0] (by decide) (by decide +kernel)
      (by decide +kernel)
    exact absurd hfilled.1 (by decide +kernel)
  · intro h
    have hfilled := h [.fill 2 10 2 2 0, .fill 3 10 3 3 0] (by decide) (by decide +kernel)
      (by decide +kernel)
    exact absurd (hfilled.2 "AAPL") (by decide +kernel)

end Examples

end FlightDesk

end TradingPlatform
