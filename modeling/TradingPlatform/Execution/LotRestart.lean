import TradingPlatform.Execution.LotStore
import TradingPlatform.Run
import TradingPlatform.StableSort

/-!
# Restarting the lot ledger

A ledger that is discarded and loaded again from its database has the lots it had
(`TradingPlatform.LotDb.Holds`), but not always in the order it had them. In memory a lot stays
where it was opened; in the database `INSERT OR REPLACE` moves the row of a lot behind all
others whenever a sell takes a part of it. Among lots that were opened on one date nothing but
this order decides which of them a sell consumes.

So what a restart must keep is a queue: the open lots of an agent in a symbol with one entry
date, in the order of the container (`TradingPlatform.LotLedger.queue`). What a sell consumes is
a function of these queues (`TradingPlatform.LotLedger.candidates_congr`), and two ledgers with
the same lots and the same queues stay so, whatever is booked
(`TradingPlatform.LotLedger.Agrees.bookFill`). A run all of whose restarts keep the queues is
therefore one nobody can tell from a run without restarts
(`TradingPlatform.TwinLedger.transparent_run`); one restart that does not keep them is
`TradingPlatform.TwinLedger.not_transparent_reloadedRun`.
-/

namespace TradingPlatform

namespace LotLedger

/-! ### The queues -/

/-- The lot may be consumed by a sell, and was opened on the date. -/
def Queues (agentId : AgentId) (sym : String) (date : Date) (lot : Lot) : Prop :=
  lot.agentId = agentId ∧ lot.symbol = sym ∧ lot.isClosed = false ∧ 0 < lot.remainingQty ∧
    lot.entryDate = date

instance (agentId : AgentId) (sym : String) (date : Date) :
    DecidablePred (Queues agentId sym date) :=
  fun lot => inferInstanceAs (Decidable (lot.agentId = agentId ∧ _))

/-- The open lots of an agent in a symbol that were opened on one date, in the order in which the
container has them. -/
def queue (lots : List Lot) (agentId : AgentId) (sym : String) (date : Date) : List Lot :=
  lots.filter fun lot => Queues agentId sym date lot

variable {l l' : LotLedger} {agentId : AgentId} {sym : String} {method : LotMethod}

/-- **What a sell may consume, and in which order, is a function of the queues.** -/
theorem candidates_congr
    (h : ∀ date, queue l.allLots agentId sym date = queue l'.allLots agentId sym date) :
    l.candidates agentId sym method = l'.candidates agentId sym method := by
  have hfilter : ∀ (lots : List Lot) (date : Date),
      (lots.filter fun lot => lot.agentId = agentId ∧ lot.symbol = sym ∧ lot.isClosed = false ∧
        0 < lot.remainingQty).filter (fun lot => lot.entryDate = date) =
          queue lots agentId sym date := by
    intro lots date
    rw [List.filter_filter, queue]
    refine List.filter_congr fun lot _ => ?_
    rw [← Bool.decide_and]
    exact decide_eq_decide.mpr (by unfold Queues; tauto)
  cases method with
  | fifo =>
    refine mergeSort_eq_of_filter_eq fun date => ?_
    rw [hfilter, hfilter, h]
  | lifo =>
    -- newest first is by the opposite of the entry date
    have hneg : ∀ lot lot' : Lot,
        decide (lot'.entryDate ≤ lot.entryDate) = decide (-lot.entryDate ≤ -lot'.entryDate) :=
      fun lot lot' => decide_eq_decide.mpr neg_le_neg_iff.symm
    simp only [candidates, hneg]
    refine mergeSort_eq_of_filter_eq fun date => ?_
    have hdate : ∀ lot : Lot, decide (-lot.entryDate = date) = decide (lot.entryDate = -date) :=
      fun lot => decide_eq_decide.mpr neg_eq_iff_eq_neg
    simp only [hdate]
    rw [hfilter, hfilter, h]

/-! ### Putting lots back -/

/-- Assigning the same lots to dictionaries with the same lookups. -/
theorem get?_foldl_set_congr (affected : List Lot) {d d' : Dict LotId Lot}
    (h : ∀ k, d.get? k = d'.get? k) (k : LotId) :
    (affected.foldl (fun lots lot => lots.set lot.id lot) d).get? k =
      (affected.foldl (fun lots lot => lots.set lot.id lot) d').get? k := by
  induction affected generalizing d d' with
  | nil => exact h k
  | cons lot affected ih =>
    refine ih fun k' => ?_
    rw [Dict.get?_set, Dict.get?_set, h]

/-- The queue after some lots were replaced: the lots of the queue before, each looked up again. No
lot joins the queue. -/
theorem queue_replace {d d' : Dict LotId Lot} (hkeys : d'.keys = d.keys)
    (hid : ∀ k lot, d.get? k = some lot → lot.id = k)
    (hback : ∀ k lot lot', d.get? k = some lot → d'.get? k = some lot' →
      ∀ date, Queues agentId sym date lot' → Queues agentId sym date lot) (date : Date) :
    queue d'.values agentId sym date =
      queue ((queue d.values agentId sym date).filterMap fun lot => d'.get? lot.id) agentId sym
        date := by
  rw [d'.values_eq_filterMap, d.values_eq_filterMap, hkeys]
  have hmem : ∀ k ∈ d.keys, ∃ lot lot', d.get? k = some lot ∧ d'.get? k = some lot' := by
    intro k hk
    obtain ⟨lot, hlot⟩ := Dict.mem_keys_iff.mp hk
    obtain ⟨lot', hlot'⟩ := Dict.mem_keys_iff.mp (hkeys ▸ hk)
    exact ⟨lot, lot', hlot, hlot'⟩
  generalize d.keys = keys at hmem
  induction keys with
  | nil => rfl
  | cons k keys ih =>
    obtain ⟨lot, lot', hlot, hlot'⟩ := hmem k List.mem_cons_self
    have ih' := ih fun k' hk' => hmem k' (List.mem_cons_of_mem _ hk')
    unfold queue at ih' ⊢
    rw [List.filterMap_cons_some hlot', List.filterMap_cons_some hlot, List.filter_cons,
      List.filter_cons]
    by_cases hbefore : Queues agentId sym date lot
    · rw [if_pos (decide_eq_true hbefore), List.filterMap_cons_some
        (by rw [hid k lot hlot]; exact hlot'), List.filter_cons, ih']
    · have hafter : ¬Queues agentId sym date lot' := fun hq =>
        hbefore (hback k lot lot' hlot hlot' date hq)
      rw [if_neg (by simpa using hafter), if_neg (by simpa using hbefore), ih']

/-! ### Ledgers that agree -/

/-- **Two ledgers agree**: on the lots, on what was booked, and on the queues. -/
structure Agrees (l l' : LotLedger) : Prop where
  lots : ∀ k, l.lots.get? k = l'.lots.get? k
  booked : ∀ fillId, fillId ∈ l.booked ↔ fillId ∈ l'.booked
  queues : ∀ agentId sym date, queue l.allLots agentId sym date = queue l'.allLots agentId sym date

theorem Agrees.refl (l : LotLedger) : l.Agrees l :=
  ⟨fun _ => rfl, fun _ => Iff.rfl, fun _ _ _ => rfl⟩

theorem Agrees.keyed (h : l.Agrees l') (hl : l.Keyed) : l'.Keyed :=
  fun k lot hk => hl k lot ((h.lots k).trans hk)

theorem Agrees.mem_keys (h : l.Agrees l') {k : LotId} : k ∈ l.lots.keys ↔ k ∈ l'.lots.keys := by
  rw [Dict.mem_keys_iff, Dict.mem_keys_iff, h.lots]

/-- Noting a fill. -/
theorem Agrees.markBooked (h : l.Agrees l') (fillId : FillId) :
    (l.markBooked fillId).Agrees (l'.markBooked fillId) where
  lots := h.lots
  booked fillId' := by
    rw [LotLedger.markBooked, LotLedger.markBooked, List.mem_append, List.mem_append, h.booked]
  queues := h.queues

theorem allLots_openLot (fill : Fill) {lotId : LotId} (hfresh : lotId ∉ l.lots.keys) :
    (l.openLot fill lotId).allLots = l.allLots ++ [.ofFill fill lotId] := by
  rw [allLots, Dict.values, openLot, Dict.entries_set_of_notMem _ hfresh, List.map_append]
  rfl

/-- A lot that is opened joins its queue at the end, on both sides. -/
theorem Agrees.openLot (h : l.Agrees l') (fill : Fill) {lotId : LotId}
    (hfresh : lotId ∉ l.lots.keys) : (l.openLot fill lotId).Agrees (l'.openLot fill lotId) where
  lots k := by
    rw [LotLedger.openLot, LotLedger.openLot, Dict.get?_set, Dict.get?_set, h.lots]
  booked := h.booked
  queues agentId sym date := by
    have hq := h.queues agentId sym date
    rw [allLots_openLot fill hfresh, allLots_openLot fill fun hc => hfresh (h.mem_keys.mpr hc)]
    unfold queue at hq ⊢
    rw [List.filter_append, List.filter_append, hq]

/-- The queue after a sell. -/
theorem queue_sell (hl : l.Keyed) {consumed : List (Lot × Decimal)}
    (hmem : ∀ p ∈ consumed, (p.1 ∈ l.allLots ∧ p.1.isClosed = false) ∧ 0 < p.1.remainingQty)
    (fill : Fill) (date : Date) :
    queue ((consumed.map fun p => p.1.consume p.2 fill).foldl
      (fun lots lot => lots.set lot.id lot) l.lots).values agentId sym date =
        queue ((queue l.allLots agentId sym date).filterMap fun lot =>
          ((consumed.map fun p => p.1.consume p.2 fill).foldl
            (fun lots lot => lots.set lot.id lot) l.lots).get? lot.id) agentId sym date := by
  let pairs := consumed.map fun p => (p.1, p.1.consume p.2 fill)
  have hsnd : (consumed.map fun p => p.1.consume p.2 fill) = pairs.map Prod.snd := by
    rw [List.map_map]
    rfl
  have hid : ∀ p ∈ pairs, p.2.id = p.1.id := by
    intro p hp
    obtain ⟨q, -, rfl⟩ := List.mem_map.mp hp
    rfl
  have hget : ∀ p ∈ pairs, l.lots.get? p.1.id = some p.1 := by
    intro p hp
    obtain ⟨q, hq, rfl⟩ := List.mem_map.mp hp
    exact hl.get?_of_mem (hmem q hq).1.1
  rw [hsnd]
  refine queue_replace (keys_replace hid hget) hl ?_ date
  intro k lot lot' hlot hlot' date' hq
  rcases get?_replace hid hlot' with hsame | ⟨p, hp, rfl, rfl⟩
  · -- a lot that was not consumed
    rw [hlot] at hsame
    cases hsame
    exact hq
  · -- a lot that was consumed had something left
    obtain ⟨q, hmemq, rfl⟩ := List.mem_map.mp hp
    have hlot'' := hget _ hp
    rw [hlot] at hlot''
    cases hlot''
    obtain ⟨⟨-, hopen⟩, hpos⟩ := hmem q hmemq
    exact ⟨hq.1, hq.2.1, hopen, hpos, hq.2.2.2.2⟩

/-- **Booking a fill keeps ledgers in agreement.** -/
theorem Agrees.bookFill (h : l.Agrees l') (hl : l.Keyed) (fill : Fill) {lotId : LotId}
    (hfresh : lotId ∉ l.lots.keys) :
    (l.bookFill fill lotId method).Agrees (l'.bookFill fill lotId method) := by
  by_cases hnew : fill.id ∈ l.booked
  · rw [LotLedger.bookFill, if_pos hnew, LotLedger.bookFill, if_pos ((h.booked _).mp hnew)]
    exact h
  have hnew' : fill.id ∉ l'.booked := fun hc => hnew ((h.booked _).mpr hc)
  have hmarked := h.markBooked fill.id
  cases hside : fill.side with
  | buy =>
    rw [bookFill_of_buy hnew hside, bookFill_of_buy hnew' hside]
    exact hmarked.openLot fill hfresh
  | sell =>
    have hcand : l'.candidates fill.agentId (normalizeSymbol fill.symbol) method =
        l.candidates fill.agentId (normalizeSymbol fill.symbol) method :=
      (candidates_congr (h.queues _ _)).symm
    by_cases hqty : fill.qty ≤ ((l.candidates fill.agentId (normalizeSymbol fill.symbol)
      method).map (·.remainingQty)).sum
    · have hmem : ∀ p ∈ l.consumption fill.agentId fill.symbol fill.qty method,
          (p.1 ∈ l.allLots ∧ p.1.isClosed = false) ∧ 0 < p.1.remainingQty := by
        intro p hp
        obtain ⟨⟨hlot, -, -, hopen⟩, hpos, hle⟩ := of_mem_consumption hp
        exact ⟨⟨hlot, hopen⟩, hpos.trans_le hle⟩
      have hmem' : ∀ p ∈ l.consumption fill.agentId fill.symbol fill.qty method,
          (p.1 ∈ l'.allLots ∧ p.1.isClosed = false) ∧ 0 < p.1.remainingQty := by
        intro p hp
        obtain ⟨⟨hlot, hopen⟩, hpos⟩ := hmem p hp
        exact ⟨⟨mem_allLots.mpr ⟨_, (h.lots _).symm.trans (hl.get?_of_mem hlot)⟩, hopen⟩, hpos⟩
      have hget := get?_foldl_set_congr ((l.consumption fill.agentId fill.symbol fill.qty
        method).map fun p => p.1.consume p.2 fill) h.lots
      rw [bookFill_of_candidates hnew hside rfl hqty, bookFill_of_candidates hnew' hside hcand hqty]
      refine ⟨hget, hmarked.booked, fun agentId sym date => ?_⟩
      refine (queue_sell hl hmem fill date).trans (Eq.trans ?_
        (queue_sell (h.keyed hl) hmem' fill date).symm)
      rw [h.queues]
      exact congrArg (queue · agentId sym date) (List.filterMap_congr fun lot _ => hget lot.id)
    · rw [bookFill_of_lt hnew hside (not_le.mp hqty), bookFill_of_lt hnew' hside
        (hcand ▸ not_le.mp hqty)]
      exact hmarked

/-- Every lot was opened by a fill that was booked. -/
def EntriesBooked (l : LotLedger) : Prop := ∀ lot ∈ l.allLots, lot.entryFillId ∈ l.booked

theorem EntriesBooked.bookFill (h : l.EntriesBooked) (hl : l.Keyed) (fill : Fill) (lotId : LotId) :
    (l.bookFill fill lotId method).EntriesBooked := by
  have hmarked : (l.markBooked fill.id).EntriesBooked :=
    fun lot hlot => List.mem_append_left _ (h lot hlot)
  rcases bookFill_cases hl fill lotId method with ⟨-, heq⟩ | ⟨-, -, heq⟩ | ⟨-, -, heq⟩ |
    ⟨-, -, hsells⟩
  · rw [heq]
    exact h
  · rw [heq]
    intro lot hlot
    rcases mem_openLot fill hlot with rfl | hlot'
    · exact List.mem_append_right _ (List.mem_singleton_self _)
    · exact hmarked lot hlot'
  · rw [heq]
    exact hmarked
  · intro lot hlot
    rw [hsells.booked]
    rcases hsells.mem lot hlot with hlot' | ⟨p, hp, rfl⟩
    · exact hmarked lot hlot'
    · exact hmarked p.1 (of_mem_consumption hp).1.1

end LotLedger

/-! ### The database follows the ledger -/

namespace LotDb

variable {db : LotDb} {l : LotLedger} {method : LotMethod}

theorem Holds.persistBooked (h : db.Holds l) (fillId : FillId) :
    (db.persistBooked fillId).Holds (l.markBooked fillId) where
  lots := h.lots
  booked fillId' := by
    rw [LotDb.persistBooked, LotLedger.markBooked]
    dsimp only
    split_ifs with hnoted
    · rw [h.booked, List.mem_append, List.mem_singleton]
      exact ⟨Or.inl, fun hor => hor.elim id fun heq => heq ▸ (h.booked _).mp hnoted⟩
    · rw [List.mem_append, List.mem_append, h.booked]

/-- **What is committed while a fill is booked is what is booked.** -/
theorem Holds.bookFill (h : db.Holds l) (hentries : l.EntriesBooked) (fill : Fill)
    (lotId : LotId) :
    (db.commitAll (l.commits fill lotId method)).Holds (l.bookFill fill lotId method) := by
  have hl := h.keyed
  by_cases hnew : fill.id ∈ l.booked
  · rw [LotLedger.bookFill, if_pos hnew, LotLedger.commits, if_pos hnew]
    exact h
  have hnoted := h.persistBooked fill.id
  cases hside : fill.side with
  | buy =>
    rw [LotLedger.bookFill_of_buy hnew hside, LotLedger.commits_of_buy hnew hside]
    refine ⟨fun k => ?_, hnoted.booked⟩
    -- the fill opened no lot before
    have hunique : ∀ row ∈ (db.persistBooked fill.id).lots,
        row.entryFillId = (Lot.ofFill fill lotId).entryFillId →
          row.id = (Lot.ofFill fill lotId).id := by
      intro row hrow hfill
      have hlot : row ∈ l.allLots :=
        LotLedger.mem_allLots.mpr ⟨row.id, (h.lots _).symm.trans (get?_load.mpr ⟨hrow, rfl⟩)⟩
      have hbooked := hentries row hlot
      rw [hfill] at hbooked
      exact absurd hbooked hnew
    rw [LotLedger.openLot, Dict.get?_set, ← hnoted.lots]
    exact get?_load_persistLot hunique k
  | sell =>
    by_cases hqty : fill.qty ≤ ((l.candidates fill.agentId (normalizeSymbol fill.symbol)
      method).map (·.remainingQty)).sum
    · have hmem : ∀ p ∈ l.consumption fill.agentId fill.symbol fill.qty method,
          l.lots.get? p.1.id = some p.1 :=
        fun p hp => hl.get?_of_mem (LotLedger.of_mem_consumption hp).1.1
      rw [LotLedger.bookFill_of_candidates hnew hside rfl hqty,
        LotLedger.commits_of_candidates hnew hside rfl hqty]
      refine ⟨get?_load_consumed hnoted.lots (LotLedger.nodup_consumption hl fill.qty) hmem fill,
        fun fillId => ?_⟩
      exact (bookedFills_commitAll_lots (db.persistBooked fill.id) _).symm ▸ hnoted.booked fillId
    · rw [LotLedger.bookFill_of_lt hnew hside (not_le.mp hqty),
        LotLedger.commits_of_lt hnew hside (not_le.mp hqty)]
      exact hnoted

end LotDb

/-! ### A ledger that is restarted, and one that is not -/

/-- A ledger with its database, and beside it a ledger that is booked the same fills and is never
discarded. -/
structure TwinLedger where
  ledger : LotLedger
  db : LotDb
  plain : LotLedger

/-- A fill is booked, or the ledger is discarded and loaded from the database. -/
inductive LotOp
  | book (b : Booking)
  | reload
  deriving DecidableEq

namespace TwinLedger

def step (method : LotMethod) (s : TwinLedger) : LotOp → TwinLedger
  | .book b =>
    { ledger := s.ledger.bookFill b.fill b.lotId method
      db := s.db.commitAll (s.ledger.commits b.fill b.lotId method)
      plain := s.plain.bookFill b.fill b.lotId method }
  | .reload => { s with ledger := s.db.load }

def start : TwinLedger := ⟨.empty, .empty, .empty⟩

/-- **Nobody can tell that there were restarts**: the same lots, in all they say. -/
def Transparent (s : TwinLedger) : Prop :=
  ∀ lotId, s.ledger.lots.get? lotId = s.plain.lots.get? lotId

/-- The identifiers drawn for new lots are new. -/
def Fresh (s : TwinLedger) : LotOp → Prop
  | .book b => b.lotId ∉ s.ledger.lots.keys
  | .reload => True

/-- **The rows are in order** when the ledger is loaded: of the open lots of an agent in a symbol
that were opened on one date, none was moved behind another. -/
def InOrder (s : TwinLedger) : LotOp → Prop
  | .book _ => True
  | .reload => ∀ agentId sym date,
      LotLedger.queue s.db.lots agentId sym date =
        LotLedger.queue s.ledger.allLots agentId sym date

/-- **The invariant**: the database holds the ledger, and the ledger agrees with the one that was
never discarded. -/
structure Inv (s : TwinLedger) : Prop where
  holds : s.db.Holds s.ledger
  entriesBooked : s.ledger.EntriesBooked
  agrees : s.ledger.Agrees s.plain

theorem inv_start : start.Inv where
  holds := ⟨fun _ => rfl, fun _ => Iff.rfl⟩
  entriesBooked _ h := absurd h List.not_mem_nil
  agrees := .refl _

theorem Inv.step {s : TwinLedger} {op : LotOp} {method : LotMethod} (hs : s.Inv)
    (hfresh : s.Fresh op) (horder : s.InOrder op) : (s.step method op).Inv := by
  cases op with
  | book b =>
    exact ⟨hs.holds.bookFill hs.entriesBooked b.fill b.lotId,
      hs.entriesBooked.bookFill hs.holds.keyed b.fill b.lotId,
      hs.agrees.bookFill hs.holds.keyed b.fill hfresh⟩
  | reload =>
    constructor
    case holds => exact ⟨fun _ => rfl, fun _ => Iff.rfl⟩
    case entriesBooked =>
      intro lot hlot
      obtain ⟨k, hk⟩ := LotLedger.mem_allLots.mp hlot
      have hlot' : lot ∈ s.ledger.allLots :=
        LotLedger.mem_allLots.mpr ⟨k, (hs.holds.lots k).symm.trans hk⟩
      exact (hs.holds.booked _).mpr (hs.entriesBooked lot hlot')
    case agrees =>
      constructor
      · exact fun k => (hs.holds.lots k).trans (hs.agrees.lots k)
      · exact fun fillId => (hs.holds.booked fillId).trans (hs.agrees.booked fillId)
      · intro agentId sym date
        have hrows : LotLedger.queue s.db.load.allLots agentId sym date =
            LotLedger.queue s.ledger.allLots agentId sym date := by
          rw [LotDb.allLots_load]
          exact horder agentId sym date
        exact hrows.trans (hs.agrees.queues agentId sym date)

/-- **A restart that keeps the queues cannot be noticed.** In every history of fills and restarts
in which the rows are in order whenever the ledger is loaded, the lots are at every moment those of
the ledger that was never discarded. -/
theorem transparent_run {method : LotMethod} {ops : List LotOp}
    (hfresh : Along (step method) Fresh start ops) (horder : Along (step method) InOrder start ops)
    {pre : List LotOp} (hpre : pre <+: ops) : (run (step method) start pre).Transparent := by
  have hrun := (hfresh.and horder).invariant_reached
    (fun s op hs hok => Inv.step hs hok.1 hok.2) inv_start hpre
  exact hrun.agrees.lots

/-! ### Two histories -/

/-- A fill of one share, bought or sold on the first day. -/
def dayFill (id : FillId) (side : OrderSide) (qty : Decimal) (price : Decimal) : Fill where
  id := id
  orderId := id
  agentId := .sonnet
  symbol := "AAPL"
  side := side
  qty := qty
  price := price
  timestamp := 0

/-- The ledger is restarted between a purchase and a sale of a part of it. -/
def calmRun : List LotOp :=
  [.book ⟨dayFill 1 .buy 10 100, 1⟩, .reload, .book ⟨dayFill 2 .sell 4 105, 2⟩]

theorem transparent_calmRun : (run (step .fifo) start calmRun).Transparent := by
  have hfresh : Along (step .fifo) Fresh start calmRun := by
    have hsecond : 2 ∉ ((step .fifo start (.book ⟨dayFill 1 .buy 10 100, 1⟩)).step .fifo
        .reload).ledger.lots.keys := by
      decide +kernel
    exact ⟨List.not_mem_nil, trivial, hsecond, trivial⟩
  have horder : Along (step .fifo) InOrder start calmRun := by
    refine ⟨trivial, fun agentId sym date => ?_, trivial, trivial⟩
    have hrows : (step .fifo start (.book ⟨dayFill 1 .buy 10 100, 1⟩)).db.lots =
        (step .fifo start (.book ⟨dayFill 1 .buy 10 100, 1⟩)).ledger.allLots := by
      decide +kernel
    rw [hrows]
  exact transparent_run hfresh horder (List.prefix_refl _)

/-- Two purchases on one day. -/
def twoPurchases : TwinLedger :=
  run (step .fifo) start
    [.book ⟨dayFill 1 .buy 10 100, 1⟩, .book ⟨dayFill 2 .buy 10 110, 2⟩]

/-- A part of the first lot is sold, the ledger is restarted, and more is sold. -/
def reloadedRun : List LotOp :=
  [.book ⟨dayFill 1 .buy 10 100, 1⟩, .book ⟨dayFill 2 .buy 10 110, 2⟩,
    .book ⟨dayFill 3 .sell 4 105, 3⟩, .reload, .book ⟨dayFill 4 .sell 10 120, 4⟩]

/-- A sale, in a state in which it may consume all lots, in their order. -/
def sold (s : TwinLedger) (b : Booking) : TwinLedger where
  ledger :=
    { lots := ((allocate (·.remainingQty) s.ledger.allLots b.fill.qty).map fun p =>
        p.1.consume p.2 b.fill).foldl (fun lots lot => lots.set lot.id lot) s.ledger.lots
      booked := s.ledger.booked ++ [b.fill.id] }
  db := s.db.commitAll (.booked b.fill.id ::
    ((allocate (·.remainingQty) s.ledger.allLots b.fill.qty).map fun p =>
      p.1.consume p.2 b.fill).map .lot)
  plain :=
    { lots := ((allocate (·.remainingQty) s.plain.allLots b.fill.qty).map fun p =>
        p.1.consume p.2 b.fill).foldl (fun lots lot => lots.set lot.id lot) s.plain.lots
      booked := s.plain.booked ++ [b.fill.id] }

/-- All lots are open lots of one agent in a symbol, and of one day. -/
def OneDay (l : LotLedger) : Prop :=
  (∀ lot ∈ l.allLots, lot.agentId = .sonnet ∧ lot.symbol = "AAPL" ∧ lot.isClosed = false ∧
    0 < lot.remainingQty) ∧ ∀ lot ∈ l.allLots, lot.entryDate = 0

instance (l : LotLedger) : Decidable (OneDay l) :=
  inferInstanceAs (Decidable ((∀ _ ∈ _, _) ∧ ∀ _ ∈ _, _))

theorem OneDay.candidates {l : LotLedger} (h : OneDay l) :
    l.candidates .sonnet (normalizeSymbol "AAPL") .fifo = l.allLots := by
  have hsym : normalizeSymbol "AAPL" = "AAPL" := by decide +kernel
  have hall : (l.allLots.filter fun lot => lot.agentId = .sonnet ∧ lot.symbol = "AAPL" ∧
      lot.isClosed = false ∧ 0 < lot.remainingQty) = l.allLots :=
    List.filter_eq_self.mpr fun lot hlot => decide_eq_true (h.1 lot hlot)
  rw [LotLedger.candidates, hsym, hall]
  refine List.mergeSort_of_pairwise (List.pairwise_of_forall_mem_list fun lot hlot lot' hlot' => ?_)
  exact decide_eq_true (h.2 lot hlot ▸ h.2 lot' hlot' ▸ le_rfl)

theorem step_eq_sold {s : TwinLedger} {id : FillId} {qty price : Decimal} {lotId : LotId}
    (hnew : id ∉ s.ledger.booked ∧ id ∉ s.plain.booked)
    (hday : OneDay s.ledger ∧ OneDay s.plain)
    (hqty : qty ≤ (s.ledger.allLots.map (·.remainingQty)).sum ∧
      qty ≤ (s.plain.allLots.map (·.remainingQty)).sum) :
    s.step .fifo (.book ⟨dayFill id .sell qty price, lotId⟩) =
      s.sold ⟨dayFill id .sell qty price, lotId⟩ := by
  have hbook : ∀ {l : LotLedger}, id ∉ l.booked → OneDay l →
      qty ≤ (l.allLots.map (·.remainingQty)).sum →
      l.bookFill (dayFill id .sell qty price) lotId .fifo = _ :=
    fun hnew hday hqty => LotLedger.bookFill_of_candidates hnew rfl hday.candidates hqty lotId
  have hcommits : s.ledger.commits (dayFill id .sell qty price) lotId .fifo = _ :=
    LotLedger.commits_of_candidates hnew.1 rfl hday.1.candidates hqty.1 lotId
  rw [step, hbook hnew.1 hday.1 hqty.1, hbook hnew.2 hday.2 hqty.2, hcommits]
  rfl

/-- The ledger once a part of the first lot was sold, and once it was restarted then. -/
def restarted : TwinLedger :=
  step .fifo (twoPurchases.sold ⟨dayFill 3 .sell 4 105, 3⟩) .reload

theorem step_twoPurchases :
    twoPurchases.step .fifo (.book ⟨dayFill 3 .sell 4 105, 3⟩) =
      twoPurchases.sold ⟨dayFill 3 .sell 4 105, 3⟩ :=
  step_eq_sold (by decide +kernel) (by decide +kernel) (by decide +kernel)

theorem run_reloadedRun :
    run (step .fifo) start reloadedRun = restarted.sold ⟨dayFill 4 .sell 10 120, 4⟩ := by
  have hsecond : restarted.step .fifo (.book ⟨dayFill 4 .sell 10 120, 4⟩) =
      restarted.sold ⟨dayFill 4 .sell 10 120, 4⟩ :=
    step_eq_sold (by decide +kernel) (by decide +kernel) (by decide +kernel)
  rw [← hsecond, restarted, ← step_twoPurchases]
  rfl

/-- **A restart that is noticed.** Four of the ten shares of the first lot are sold, which moves its
row behind that of the second lot; after a restart the next sale of ten shares closes the second
lot, where without the restart it closes the first. -/
theorem not_transparent_reloadedRun :
    Along (step .fifo) Fresh start reloadedRun ∧
      ¬(run (step .fifo) start reloadedRun).Transparent ∧
      ((run (step .fifo) start reloadedRun).ledger.lots.get? 1).map (·.remainingQty) = some 6 ∧
      ((run (step .fifo) start reloadedRun).plain.lots.get? 1).map (·.remainingQty) = some 0 := by
  have hledger : ((run (step .fifo) start reloadedRun).ledger.lots.get? 1).map (·.remainingQty) =
      some 6 := by
    rw [run_reloadedRun]
    decide +kernel
  have hplain : ((run (step .fifo) start reloadedRun).plain.lots.get? 1).map (·.remainingQty) =
      some 0 := by
    rw [run_reloadedRun]
    decide +kernel
  refine ⟨?_, fun h => ?_, hledger, hplain⟩
  · have hsecond : 2 ∉ (step .fifo start (.book ⟨dayFill 1 .buy 10 100, 1⟩)).ledger.lots.keys := by
      decide +kernel
    have hthird : 3 ∉ twoPurchases.ledger.lots.keys := by decide +kernel
    have hfourth : 4 ∉ ((twoPurchases.step .fifo (.book ⟨dayFill 3 .sell 4 105, 3⟩)).step .fifo
        .reload).ledger.lots.keys := by
      rw [step_twoPurchases]
      decide +kernel
    exact ⟨List.not_mem_nil, hsecond, hthird, trivial, hfourth, trivial⟩
  · rw [h 1, hplain] at hledger
    exact absurd hledger (by decide +kernel)

end TwinLedger

end TradingPlatform
