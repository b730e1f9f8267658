import TradingPlatform.Execution.Risk
import TradingPlatform.Ops.Attribution

/-!
# The profit and loss of the last days

Once a day the profit and loss of every sleeve is stored, one row for each date and agent, and the
morning brief sums the rows of the last days. What is stored is a running total: what was realized
since the first fill, and how many lots are closed by now. So the sum counts every total of the
window once, where the difference of the last one and the first one is meant.

The two differ by what had been realized by the first snapshot and by the totals stored under the
other dates (`TradingPlatform.PnLHistory.realized_eq`,
`TradingPlatform.PnLHistory.closedLots_eq`). A count is never negative, so the summary gets the
number of closed lots right exactly if none was closed at any of those
(`TradingPlatform.PnLHistory.recentPnL_iff`).
-/

namespace TradingPlatform

/-! ### The stored rows -/

/-- One row for each date and agent. -/
structure AgentPnLStore where
  rows : Dict (Date × AgentId) PnLBreakdown

namespace AgentPnLStore

/-- Insert a row, or replace the one of the same date and agent. -/
def upsertSnapshot (store : AgentPnLStore) (snapshotDate : Date) (agentId : AgentId)
    (breakdown : PnLBreakdown) : AgentPnLStore :=
  ⟨store.rows.set (snapshotDate, agentId) breakdown⟩

/-- One row for each agent. -/
def writeAll (store : AgentPnLStore) (snapshotDate : Date)
    (breakdowns : Dict AgentId PnLBreakdown) : AgentPnLStore :=
  breakdowns.entries.foldl (fun store e => store.upsertSnapshot snapshotDate e.1 e.2) store

end AgentPnLStore

/-! ### The summary -/

/-- Round to cents, half a cent to the even one. -/
def round2 (x : Decimal) : Decimal := roundHalfEven (x * 100) / 100

/-- What the brief tells of one sleeve. -/
structure RecentPnL where
  realized : Decimal
  unrealized : Decimal
  closedLots : ℕ
  deriving DecidableEq

/-- The first date of the window. -/
def pnlCutoff (now : Time) (lookbackDays : ℤ) : Date := (now - lookbackDays * microsPerDay).date

/-- The rows of an agent in the window. -/
def AgentPnLStore.recentRows (store : AgentPnLStore) (cutoff : Date) (agentId : AgentId) :
    List ((Date × AgentId) × PnLBreakdown) :=
  store.rows.entries.filter fun e => cutoff ≤ e.1.1 ∧ e.1.2 = agentId

/-- The rows of the last days, summed up by agent. The sums are exact before they are rounded. -/
def queryRecentPnl (store : AgentPnLStore) (now : Time) (lookbackDays : ℤ) (agentId : AgentId) :
    Option RecentPnL :=
  let rows := store.recentRows (pnlCutoff now lookbackDays) agentId
  if rows = [] then none
  else some
    { realized := round2 (rows.map (·.2.realized)).sum
      unrealized := round2 (rows.map (·.2.unrealized)).sum
      closedLots := (rows.map (·.2.numClosedLots)).sum }

/-! ### Fills and snapshots -/

/-- One snapshot: what it saw, and what it computed. -/
structure PnLSnapshot where
  date : Date
  log : List LoggedEvent
  ledger : LotLedger
  breakdowns : Dict AgentId PnLBreakdown

/-- The log, the ledger, the stored rows and the snapshots that were taken. -/
structure PnLHistory where
  log : List LoggedEvent
  ledger : LotLedger
  store : AgentPnLStore
  taken : List PnLSnapshot

inductive PnLOp
  /-- A fill is logged and booked. -/
  | fill (b : Booking)
  /-- The daily job runs. -/
  | snapshot (date : Date) (marketData : String → Option Decimal)

namespace PnLHistory

def empty : PnLHistory := ⟨[], .empty, ⟨.empty⟩, []⟩

/-- What a snapshot sees and computes. -/
def look (s : PnLHistory) (date : Date) (marketData : String → Option Decimal) : PnLSnapshot :=
  ⟨date, s.log, s.ledger, computeDailyPnl s.ledger (some s.log) marketData⟩

def step (s : PnLHistory) : PnLOp → PnLHistory
  | .fill b =>
    { s with
      log := s.log ++ [⟨.fillReceived (serializeFill b.fill), b.fill.orderId, b.fill.timestamp⟩]
      ledger := s.ledger.bookFill b.fill b.lotId .fifo }
  | .snapshot date marketData =>
    { s with
      store := s.store.writeAll date (s.look date marketData).breakdowns
      taken := s.taken ++ [s.look date marketData] }

/-- A lot the ledger opens gets an identifier of its own. -/
def FreshLot (s : PnLHistory) : PnLOp → Prop
  | .fill b => b.lotId ∉ s.ledger.lots.keys
  | .snapshot .. => True

/-- The snapshots in a window. -/
def window (s : PnLHistory) (cutoff : Date) : List PnLSnapshot :=
  s.taken.filter fun snapshot => cutoff ≤ snapshot.date

end PnLHistory

/-! ### What happened between two snapshots -/

/-- What an agent realized between two snapshots: the walk goes on from the fills the first one
saw through those that came after them. -/
def gainBetween (first last : PnLSnapshot) (agentId : AgentId) : Decimal :=
  let before := run FillWalk.step .empty (fillsLogged first.log)
  (run FillWalk.step before ((fillsLogged last.log).drop (fillsLogged first.log).length)).realizedOf
    agentId - before.realizedOf agentId

/-- How many lots of an agent were closed between two snapshots. -/
def closedBetween (first last : PnLSnapshot) (agentId : AgentId) : ℕ :=
  (last.ledger.allLots.filter fun lot => lot.agentId = agentId ∧ lot.isClosed = true ∧
    ∀ lot' ∈ first.ledger.allLots, lot'.id = lot.id → lot'.isClosed = false).length

/-! ### The condition -/

/-- The rows of an agent in the window, under other dates than one. -/
def AgentPnLStore.otherRows (store : AgentPnLStore) (cutoff date : Date) (agentId : AgentId) :
    List ((Date × AgentId) × PnLBreakdown) :=
  (store.recentRows cutoff agentId).filter fun e => e.1.1 ≠ date

/-- What the walk of a snapshot misses, because it no longer sees the oldest fills. -/
def PnLSnapshot.missed (snapshot : PnLSnapshot) (agentId : AgentId) : Decimal :=
  (run FillWalk.step .empty (fillsLogged snapshot.log)).realizedOf agentId -
    (walkLog snapshot.log).realizedOf agentId

/-- What is counted although it was not realized between the first snapshot and the last: what had
been realized by the first, and the totals of the other dates. -/
def PnLHistory.repeatedRealized (s : PnLHistory) (cutoff : Date) (first last : PnLSnapshot)
    (agentId : AgentId) : Decimal :=
  (run FillWalk.step .empty (fillsLogged first.log)).realizedOf agentId +
    ((s.store.otherRows cutoff last.date agentId).map (·.2.realized)).sum - last.missed agentId

/-- The same for the closed lots. -/
def PnLHistory.repeatedClosed (s : PnLHistory) (cutoff : Date) (first last : PnLSnapshot)
    (agentId : AgentId) : ℕ :=
  first.ledger.numLots agentId true +
    ((s.store.otherRows cutoff last.date agentId).map (·.2.numClosedLots)).sum

/-! ### The rows of a run -/

theorem get?_writeAll (store : AgentPnLStore) (date : Date) (breakdowns : Dict AgentId PnLBreakdown)
    (date' : Date) (agentId : AgentId) :
    (store.writeAll date breakdowns).rows.get? (date', agentId) =
      if date' = date then (breakdowns.get? agentId).or (store.rows.get? (date', agentId))
      else store.rows.get? (date', agentId) := by
  obtain ⟨entries, hnd⟩ := breakdowns
  change (entries.foldl (fun store e => store.upsertSnapshot date e.1 e.2) store).rows.get?
    (date', agentId) = if date' = date then (entries.lookup agentId).or _ else _
  induction entries generalizing store with
  | nil => simp
  | cons e entries ih =>
    obtain ⟨hnot, hnd'⟩ := List.nodup_cons.mp hnd
    rw [List.foldl_cons, ih _ hnd', List.lookup_cons, AgentPnLStore.upsertSnapshot, Dict.get?_set]
    by_cases hdate : date' = date
    · subst hdate
      by_cases ha : agentId = e.1
      · subst ha
        have hnone : entries.lookup e.1 = none := by
          rw [List.lookup_eq_none_iff]
          intro p hp
          exact bne_iff_ne.mpr fun heq => hnot (List.mem_map.mpr ⟨p, hp, heq.symm⟩)
        simp [hnone]
      · simp [ha, beq_eq_false_iff_ne.mpr ha]
    · simp [hdate]

namespace LotLedger

variable {l : LotLedger} {fill : Fill} {lotId : LotId} {method : LotMethod}

/-- **A closed lot stays** what it is. -/
theorem Keyed.mem_bookFill_of_closed (hl : l.Keyed) (hfresh : lotId ∉ l.lots.keys) {lot : Lot}
    (hlot : lot ∈ l.allLots) (hclosed : lot.isClosed = true) :
    lot ∈ (l.bookFill fill lotId method).allLots := by
  have hget := hl.get?_of_mem hlot
  rcases bookFill_cases hl fill lotId method with ⟨-, heq⟩ | ⟨-, -, heq⟩ | ⟨-, -, heq⟩ |
    ⟨-, -, hsells⟩
  · rwa [heq]
  · rw [heq, mem_allLots]
    refine ⟨lot.id, (Dict.get?_set_of_ne _ ?_ _).trans hget⟩
    exact fun hc => hfresh (hc ▸ Dict.mem_keys_of_get? hget)
  · rw [heq]
    exact hlot
  · have hkey : lot.id ∈ (l.bookFill fill lotId method).lots.keys := by
      rw [hsells.keys]
      exact Dict.mem_keys_of_get? hget
    obtain ⟨lot', hlot'⟩ := Dict.mem_keys_iff.mp hkey
    have hmem := mem_allLots.mpr ⟨_, hlot'⟩
    have hid : lot'.id = lot.id := hsells.keyed _ _ hlot'
    -- the lot under its identifier is an old one, and none that was consumed
    rcases hsells.mem lot' hmem with hsame | ⟨p, hp, rfl⟩
    · have hget' := hl.get?_of_mem hsame
      rw [hid, hget, Option.some_inj] at hget'
      exact hget' ▸ hmem
    · obtain ⟨⟨hfrom, -, -, hopen⟩, -⟩ := of_mem_consumption hp
      have hget' := hl.get?_of_mem hfrom
      rw [show p.1.id = lot.id from hid, hget, Option.some_inj] at hget'
      rw [hget', hopen] at hclosed
      exact absurd hclosed Bool.false_ne_true

end LotLedger

/-- A snapshot that was taken before a log and a ledger came to be. -/
structure PnLSnapshot.Before (snapshot : PnLSnapshot) (log : List LoggedEvent)
    (ledger : LotLedger) : Prop where
  log : snapshot.log <+: log
  keyed : snapshot.ledger.Keyed
  closed : ∀ lot ∈ snapshot.ledger.allLots, lot.isClosed = true → lot ∈ ledger.allLots

/-- The lots that are closed at the later of two snapshots are those that were closed at the first,
and those that were closed in between. -/
theorem PnLSnapshot.Before.numLots_closed {first last : PnLSnapshot}
    (h : first.Before last.log last.ledger) (hlast : last.ledger.Keyed) (agentId : AgentId) :
    last.ledger.numLots agentId true =
      closedBetween first last agentId + first.ledger.numLots agentId true := by
  let old : Lot → Bool := fun lot =>
    ∀ lot' ∈ first.ledger.allLots, lot'.id = lot.id → lot'.isClosed = false
  let closed := last.ledger.allLots.filter fun lot => lot.agentId = agentId ∧ lot.isClosed = true
  have hnd : ∀ {l : LotLedger}, l.Keyed → l.allLots.Nodup := fun hl => hl.nodup_ids.of_map _
  have hnew : (closed.filter old).length = closedBetween first last agentId := by
    rw [List.filter_filter, closedBetween]
    congr 1
    refine List.filter_congr fun lot _ => ?_
    rw [Bool.eq_iff_iff, Bool.and_eq_true]
    simp only [old, decide_eq_true_eq]
    tauto
  have hold : (closed.filter fun lot => !old lot).Perm (first.ledger.allLots.filter fun lot =>
      lot.agentId = agentId ∧ lot.isClosed = true) := by
    refine (List.perm_ext_iff_of_nodup (((hnd hlast).filter _).filter _)
      ((hnd h.keyed).filter _)).mpr fun lot => ?_
    simp only [old, List.mem_filter, decide_eq_true_eq, Bool.not_eq_true',
      decide_eq_false_iff_not]
    constructor
    · rintro ⟨⟨hlot, hagent, hc⟩, hnot⟩
      push Not at hnot
      obtain ⟨lot', hlot', hid, hc'⟩ := hnot
      -- it is the lot that was closed by then
      have hget := hlast.get?_of_mem (h.closed lot' hlot' (by simpa using hc'))
      rw [hid, hlast.get?_of_mem hlot, Option.some_inj] at hget
      exact ⟨hget ▸ hlot', hagent, hc⟩
    · rintro ⟨hlot, hagent, hc⟩
      refine ⟨⟨h.closed lot hlot hc, hagent, hc⟩, fun hall => ?_⟩
      rw [hall lot hlot rfl] at hc
      exact Bool.false_ne_true hc
  have hboth := (List.filter_append_perm old closed).length_eq
  rw [List.length_append, hnew, hold.length_eq] at hboth
  exact hboth.symm

namespace PnLHistory

/-- **The invariant**: the row of a date is what the last snapshot of that date computed. -/
structure Inv (s : PnLHistory) : Prop where
  keyed : s.ledger.Keyed
  rows : ∀ date, ∀ agentId ∈ tradingAgents, s.store.rows.get? (date, agentId) =
    (s.taken.filter (·.date = date)).getLast?.bind (·.breakdowns.get? agentId)
  computed : ∀ snapshot ∈ s.taken, ∃ marketData,
    snapshot.breakdowns = computeDailyPnl snapshot.ledger (some snapshot.log) marketData
  before : ∀ snapshot ∈ s.taken, snapshot.Before s.log s.ledger
  ordered : s.taken.Pairwise fun snapshot later => snapshot.Before later.log later.ledger

theorem inv_empty : empty.Inv where
  keyed _ _ h := absurd h (by simp [empty, LotLedger.empty])
  rows _ _ _ := rfl
  computed _ h := absurd h List.not_mem_nil
  before _ h := absurd h List.not_mem_nil
  ordered := List.Pairwise.nil

section Inv

variable {s : PnLHistory}

theorem Inv.fill (hs : s.Inv) {b : Booking} (hfresh : s.FreshLot (.fill b)) :
    (s.step (.fill b)).Inv where
  keyed := hs.keyed.bookFill
  rows := hs.rows
  computed := hs.computed
  before snapshot h := by
    have hb := hs.before snapshot h
    exact ⟨hb.log.trans (List.prefix_append _ _), hb.keyed, fun lot hlot hclosed =>
      hs.keyed.mem_bookFill_of_closed hfresh (hb.closed lot hlot hclosed) hclosed⟩
  ordered := hs.ordered

theorem Inv.snapshot (hs : s.Inv) (date : Date) (marketData : String → Option Decimal) :
    (s.step (.snapshot date marketData)).Inv where
  keyed := hs.keyed
  rows date' agentId ha := by
    have hsome : (s.look date marketData).breakdowns.get? agentId = some _ :=
      get?_computeDailyPnl s.ledger s.log marketData ha
    have hlook : (s.look date marketData).date = date := rfl
    change (s.store.writeAll date _).rows.get? _ = ((s.taken ++ [_]).filter _).getLast?.bind _
    rw [get?_writeAll, List.filter_append, List.filter_singleton, hlook]
    by_cases hdate : date' = date
    · subst hdate
      rw [if_pos rfl, hsome]
      simp [hsome]
    · rw [if_neg hdate, hs.rows date' agentId ha]
      simp [Ne.symm hdate]
  computed := List.forall_mem_append.mpr
    ⟨hs.computed, List.forall_mem_singleton.mpr ⟨marketData, rfl⟩⟩
  before := List.forall_mem_append.mpr ⟨hs.before, List.forall_mem_singleton.mpr
    ⟨List.prefix_refl _, hs.keyed, fun _ hlot _ => hlot⟩⟩
  ordered := by
    refine List.pairwise_append.mpr ⟨hs.ordered, List.pairwise_singleton _ _, ?_⟩
    exact fun snapshot h => List.forall_mem_singleton.mpr (hs.before snapshot h)

theorem Inv.step (hs : s.Inv) {op : PnLOp} (hfresh : s.FreshLot op) : (s.step op).Inv := by
  cases op with
  | fill b => exact hs.fill hfresh
  | snapshot date marketData => exact hs.snapshot date marketData

/-! ### The window -/

variable {cutoff : Date} {first last : PnLSnapshot} {agentId : AgentId}

/-- The snapshots at the two ends of a window. -/
structure Ends (s : PnLHistory) (cutoff : Date) (first last : PnLSnapshot) : Prop where
  head : (s.window cutoff).head? = some first
  getLast : (s.window cutoff).getLast? = some last

theorem Ends.mem_last (h : s.Ends cutoff first last) :
    last ∈ s.taken ∧ cutoff ≤ last.date := by
  have hmem := List.mem_filter.mp (List.mem_of_getLast? h.getLast)
  exact ⟨hmem.1, of_decide_eq_true hmem.2⟩

/-- The first snapshot was taken before the last, or is the last. -/
theorem Inv.before_last (hs : s.Inv) (h : s.Ends cutoff first last) :
    first.Before last.log last.ledger := by
  have hordered : (s.window cutoff).Pairwise fun snapshot later =>
      snapshot.Before later.log later.ledger := hs.ordered.filter _
  obtain ⟨rest, hrest⟩ := List.head?_eq_some_iff.mp h.head
  have hlast := List.mem_of_getLast? h.getLast
  rw [hrest] at hordered hlast
  rcases List.mem_cons.mp hlast with rfl | hmem
  · exact ⟨List.prefix_refl _, (hs.before last h.mem_last.1).keyed, fun _ hlot _ => hlot⟩
  · exact (List.pairwise_cons.mp hordered).1 last hmem

/-- The last snapshot of a window is the last of its date. -/
theorem Ends.getLast_date (h : s.Ends cutoff first last) :
    (s.taken.filter (·.date = last.date)).getLast? = some last := by
  have hfilter : s.taken.filter (·.date = last.date) =
      (s.window cutoff).filter (·.date = last.date) := by
    rw [window, List.filter_filter]
    refine List.filter_congr fun snapshot _ => ?_
    by_cases hdate : snapshot.date = last.date
    · simp [hdate, h.mem_last.2]
    · simp [hdate]
  obtain ⟨initial, hinitial⟩ := List.getLast?_eq_some_iff.mp h.getLast
  rw [hfilter, hinitial, List.filter_append, List.filter_singleton]
  simp

/-- The row of the last snapshot. -/
theorem Inv.get?_last (hs : s.Inv) (h : s.Ends cutoff first last) (ha : agentId ∈ tradingAgents) :
    ∃ breakdown, s.store.rows.get? (last.date, agentId) = some breakdown ∧
      breakdown.realized = (walkLog last.log).realizedOf agentId ∧
      breakdown.numClosedLots = last.ledger.numLots agentId true := by
  obtain ⟨marketData, hbreakdowns⟩ := hs.computed last h.mem_last.1
  have hrow : s.store.rows.get? (last.date, agentId) =
      (computeDailyPnl last.ledger (some last.log) marketData).get? agentId := by
    rw [hs.rows _ _ ha, h.getLast_date, Option.bind_some, hbreakdowns]
  exact ⟨_, hrow.trans (get?_computeDailyPnl _ _ _ ha), rfl, rfl⟩

end Inv

/-- A sum over the rows of the window is what one row adds, and the others. -/
theorem sum_recentRows {M : Type*} [AddCommMonoid M] {store : AgentPnLStore} {cutoff date : Date}
    {agentId : AgentId} {breakdown : PnLBreakdown}
    (hget : store.rows.get? (date, agentId) = some breakdown) (hdate : cutoff ≤ date)
    (f : PnLBreakdown → M) :
    ((store.recentRows cutoff agentId).map fun e => f e.2).sum =
      f breakdown + ((store.otherRows cutoff date agentId).map fun e => f e.2).sum := by
  have hrow : ((date, agentId), breakdown) ∈ store.recentRows cutoff agentId :=
    List.mem_filter.mpr ⟨Dict.get?_eq_some_iff.mp hget, decide_eq_true ⟨hdate, rfl⟩⟩
  have hnd : (store.recentRows cutoff agentId).Nodup :=
    (List.Nodup.of_map Prod.fst store.rows.nodup).filter _
  have hone : (store.recentRows cutoff agentId).filter (fun e => e.1.1 = date) =
      [((date, agentId), breakdown)] := by
    refine List.perm_singleton.mp ((List.perm_ext_iff_of_nodup (hnd.filter _)
      (List.nodup_singleton _)).mpr fun e => ?_)
    rw [List.mem_filter, List.mem_singleton, decide_eq_true_eq]
    constructor
    · rintro ⟨he, rfl⟩
      obtain ⟨hentry, hkey⟩ := List.mem_filter.mp he
      have hagent : e.1.2 = agentId := (of_decide_eq_true hkey).2
      subst hagent
      have hvalue := Dict.get?_eq_some_iff.mpr hentry
      rw [hget, Option.some_inj] at hvalue
      rw [hvalue]
    · rintro rfl
      exact ⟨hrow, rfl⟩
  have hperm := List.filter_append_perm (fun e => decide (e.1.1 = date))
    (store.recentRows cutoff agentId)
  rw [hone] at hperm
  rw [← (hperm.map fun e => f e.2).sum_eq, List.map_append, List.sum_append]
  congr 1
  · simp
  · simp [AgentPnLStore.otherRows]

section Sums

variable {s : PnLHistory} {cutoff : Date} {first last : PnLSnapshot} {agentId : AgentId}

/-- **The sum of the running totals**: what was realized, and what is repeated. -/
theorem Inv.realized_eq (hs : s.Inv) (h : s.Ends cutoff first last)
    (ha : agentId ∈ tradingAgents) :
    ((s.store.recentRows cutoff agentId).map (·.2.realized)).sum =
      gainBetween first last agentId + s.repeatedRealized cutoff first last agentId := by
  obtain ⟨breakdown, hget, hrealized, -⟩ := hs.get?_last h ha
  obtain ⟨later, hlater⟩ := (hs.before_last h).log
  have hall : run FillWalk.step (run FillWalk.step .empty (fillsLogged first.log))
      ((fillsLogged last.log).drop (fillsLogged first.log).length) =
        run FillWalk.step .empty (fillsLogged last.log) := by
    rw [← hlater, fillsLogged_append, List.drop_left, run_append]
  rw [sum_recentRows hget h.mem_last.2 (·.realized), hrealized, gainBetween, repeatedRealized,
    PnLSnapshot.missed, hall]
  ring

/-- **The sum of the running counts**: what was closed, and what is repeated. -/
theorem Inv.closedLots_eq (hs : s.Inv) (h : s.Ends cutoff first last)
    (ha : agentId ∈ tradingAgents) :
    ((s.store.recentRows cutoff agentId).map (·.2.numClosedLots)).sum =
      closedBetween first last agentId + s.repeatedClosed cutoff first last agentId := by
  obtain ⟨breakdown, hget, -, hclosed⟩ := hs.get?_last h ha
  rw [sum_recentRows hget h.mem_last.2 (·.numClosedLots), hclosed,
    (hs.before_last h).numLots_closed (hs.before last h.mem_last.1).keyed, repeatedClosed,
    add_assoc]

end Sums

/-- **The summary tells what happened** in the window. -/
def Reports (s : PnLHistory) (now : Time) (lookbackDays : ℤ) (first last : PnLSnapshot)
    (agentId : AgentId) : Prop :=
  ∃ recent, queryRecentPnl s.store now lookbackDays agentId = some recent ∧
    recent.realized = round2 (gainBetween first last agentId) ∧
    recent.closedLots = closedBetween first last agentId

/-- **When the summary is right.** After every run of fills and snapshots, what the summary tells of
a sleeve is what was realized and closed between the first and the last snapshot of the window
exactly if no lot was closed by the first snapshot, nor in any row of another date, and what was
realized by then vanishes in the rounding. -/
theorem recentPnL_iff {ops : List PnLOp} (hfresh : Along step FreshLot empty ops) {now : Time}
    {lookbackDays : ℤ} {first last : PnLSnapshot}
    (hends : (run step empty ops).Ends (pnlCutoff now lookbackDays) first last)
    {agentId : AgentId} (ha : agentId ∈ tradingAgents) :
    (run step empty ops).Reports now lookbackDays first last agentId ↔
      (run step empty ops).repeatedClosed (pnlCutoff now lookbackDays) first last agentId = 0 ∧
        round2 (gainBetween first last agentId +
          (run step empty ops).repeatedRealized (pnlCutoff now lookbackDays) first last agentId) =
            round2 (gainBetween first last agentId) := by
  have hs : (run step empty ops).Inv := hfresh.invariant (fun _ _ hs hop => hs.step hop) inv_empty
  generalize run step empty ops = s at hs hends ⊢
  obtain ⟨breakdown, hget, -, -⟩ := hs.get?_last hends ha
  have hrow : s.store.recentRows (pnlCutoff now lookbackDays) agentId ≠ [] :=
    List.ne_nil_of_mem (List.mem_filter.mpr
      ⟨Dict.get?_eq_some_iff.mp hget, decide_eq_true ⟨hends.mem_last.2, rfl⟩⟩)
  rw [Reports, queryRecentPnl, if_neg hrow, hs.realized_eq hends ha, hs.closedLots_eq hends ha]
  constructor
  · rintro ⟨recent, heq, hrealized, hclosed⟩
    obtain rfl := Option.some.inj heq
    exact ⟨Nat.add_eq_left.mp hclosed, hrealized⟩
  · rintro ⟨hclosed, hrealized⟩
    exact ⟨_, rfl, hrealized, Nat.add_eq_left.mpr hclosed⟩

/-! ### A week that is reported, and one that is not -/

instance (s : PnLHistory) (op : PnLOp) : Decidable (s.FreshLot op) := by
  cases op with
  | fill b => exact inferInstanceAs (Decidable (_ ∉ _))
  | snapshot date marketData => exact inferInstanceAs (Decidable True)

/-- Ten shares of Haiku's, bought or sold. -/
def tenShares (id : FillId) (side : OrderSide) (price : Decimal) : PnLOp :=
  .fill ⟨{ id := id, orderId := id, agentId := .haiku, symbol := "AAPL", side := side, qty := 10,
           price := price, timestamp := 0 }, id⟩

/-- A snapshot without marks. -/
def unmarked (date : Date) : PnLOp := .snapshot date fun _ => none

/-- The shares are bought before the first snapshot, and sold before the second. -/
theorem reports_soldInBetween : ∃ first last,
    (run step empty [tenShares 1 .buy 100, unmarked 0, tenShares 2 .sell 110, unmarked 1]).Ends
        (pnlCutoff microsPerDay 7) first last ∧
      (run step empty [tenShares 1 .buy 100, unmarked 0, tenShares 2 .sell 110,
        unmarked 1]).Reports microsPerDay 7 first last .haiku := by
  have hends : (run step empty [tenShares 1 .buy 100, unmarked 0, tenShares 2 .sell 110,
      unmarked 1]).Ends (pnlCutoff microsPerDay 7)
        ((run step empty [tenShares 1 .buy 100]).look 0 fun _ => none)
        ((run step empty [tenShares 1 .buy 100, unmarked 0, tenShares 2 .sell 110]).look 1
          fun _ => none) := ⟨rfl, rfl⟩
  have hfresh : Along step FreshLot empty [tenShares 1 .buy 100, unmarked 0,
      tenShares 2 .sell 110, unmarked 1] := by decide +kernel
  exact ⟨_, _, hends, (recentPnL_iff hfresh hends (by decide)).mpr
    ⟨by decide +kernel, by decide +kernel⟩⟩

/-- **A profit that comes back every day**: the shares are sold before the first snapshot of the
window, and nothing happens until the second. The summary has the profit twice, and two lots. -/
theorem not_reports_soldBefore : ∃ first last,
    Along step FreshLot empty [tenShares 1 .buy 100, tenShares 2 .sell 110, unmarked 0,
      unmarked 1] ∧
    (run step empty [tenShares 1 .buy 100, tenShares 2 .sell 110, unmarked 0, unmarked 1]).Ends
      (pnlCutoff microsPerDay 7) first last ∧
    gainBetween first last .haiku = 0 ∧ closedBetween first last .haiku = 0 ∧
    queryRecentPnl (run step empty [tenShares 1 .buy 100, tenShares 2 .sell 110, unmarked 0,
      unmarked 1]).store microsPerDay 7 .haiku = some ⟨200, 0, 2⟩ ∧
    ¬(run step empty [tenShares 1 .buy 100, tenShares 2 .sell 110, unmarked 0,
      unmarked 1]).Reports microsPerDay 7 first last .haiku := by
  have hends : (run step empty [tenShares 1 .buy 100, tenShares 2 .sell 110, unmarked 0,
      unmarked 1]).Ends (pnlCutoff microsPerDay 7)
        ((run step empty [tenShares 1 .buy 100, tenShares 2 .sell 110]).look 0 fun _ => none)
        ((run step empty [tenShares 1 .buy 100, tenShares 2 .sell 110, unmarked 0]).look 1
          fun _ => none) := ⟨rfl, rfl⟩
  have hquery : queryRecentPnl (run step empty [tenShares 1 .buy 100, tenShares 2 .sell 110,
      unmarked 0, unmarked 1]).store microsPerDay 7 .haiku = some ⟨200, 0, 2⟩ := by
    decide +kernel
  refine ⟨_, _, by decide +kernel, hends, by decide +kernel, by decide +kernel, hquery, ?_⟩
  rintro ⟨recent, hrecent, -, hclosed⟩
  rw [hquery, Option.some_inj] at hrecent
  subst hrecent
  exact absurd hclosed (by decide +kernel)

end PnLHistory

end TradingPlatform
