import TradingPlatform.Execution.Lots

/-!
# The lots on disk

The ledger writes through to a database of two tables, the lots and the fills that were booked,
and a new process loads both. Every write is a commit of its own, and booking a fill makes
several: the fill is noted first, then every lot it touched is written.

Between two of these commits the process can die. What it leaves behind is a fill that is noted
but whose lots are not all written, and since the note is what keeps a fill from being booked
twice, the missing lots are never written: `TradingPlatform.LotDb.not_crashAtomic` says so of
every ledger, every fill and every such moment.
-/

namespace TradingPlatform

/-- The database. A table lists its rows in the order in which SQLite scans them. -/
structure LotDb where
  lots : List Lot
  bookedFills : List FillId
  /-- The primary key of the lots. -/
  id_nodup : (lots.map (·.id)).Nodup
  /-- A column that is declared unique. -/
  entryFillId_nodup : (lots.map (·.entryFillId)).Nodup

/-- One commit. -/
inductive LotCommit
  | booked (fillId : FillId)
  | lot (lot : Lot)
  deriving DecidableEq

/-- The commits made while a fill is booked: the note first, then each lot. -/
def LotLedger.commits (l : LotLedger) (fill : Fill) (lotId : LotId) (method : LotMethod) :
    List LotCommit :=
  if fill.id ∈ l.booked then []
  else
    .booked fill.id ::
      match fill.side with
      | .buy => [.lot (.ofFill fill lotId)]
      | .sell =>
        match (l.markBooked fill.id).closeLots fill.agentId fill.symbol fill.qty fill method with
        | some (_, affected) => affected.map .lot
        | none => []

namespace LotLedger

variable {l : LotLedger} {fill : Fill} {method : LotMethod}

theorem commits_of_buy (hnew : fill.id ∉ l.booked) (hside : fill.side = .buy) (lotId : LotId) :
    l.commits fill lotId method = [.booked fill.id, .lot (.ofFill fill lotId)] := by
  rw [commits, if_neg hnew, hside]

/-- The commits of a sell that finds enough, by the lots it finds. -/
theorem commits_of_candidates (hnew : fill.id ∉ l.booked) (hside : fill.side = .sell)
    {lots : List Lot}
    (hcand : l.candidates fill.agentId (normalizeSymbol fill.symbol) method = lots)
    (hqty : fill.qty ≤ (lots.map (·.remainingQty)).sum) (lotId : LotId) :
    l.commits fill lotId method = .booked fill.id ::
      ((allocate (·.remainingQty) lots fill.qty).map fun p => p.1.consume p.2 fill).map .lot := by
  subst hcand
  have hclose : (l.markBooked fill.id).closeLots fill.agentId fill.symbol fill.qty fill method =
      _ := closeLots_of_le hside hqty
  rw [commits, if_neg hnew, hside, hclose]
  rfl

theorem commits_of_lt (hnew : fill.id ∉ l.booked) (hside : fill.side = .sell)
    (hless : ((l.candidates fill.agentId (normalizeSymbol fill.symbol) method).map
      (·.remainingQty)).sum < fill.qty) (lotId : LotId) :
    l.commits fill lotId method = [.booked fill.id] := by
  have hclose : (l.markBooked fill.id).closeLots fill.agentId fill.symbol fill.qty fill method =
      none := closeLots_of_lt hside hless
  rw [commits, if_neg hnew, hside, hclose]

end LotLedger

namespace LotDb

def empty : LotDb := ⟨[], [], List.nodup_nil, List.nodup_nil⟩

/-- Write a lot. `INSERT OR REPLACE` deletes the rows in conflict with it, and the new row
comes last. -/
def persistLot (db : LotDb) (lot : Lot) : LotDb where
  lots := (db.lots.filter fun row => row.id ≠ lot.id ∧ row.entryFillId ≠ lot.entryFillId) ++ [lot]
  bookedFills := db.bookedFills
  id_nodup := by
    rw [List.map_append, List.nodup_append]
    refine ⟨db.id_nodup.sublist (List.filter_sublist.map _), List.nodup_singleton _, ?_⟩
    rintro k hk k' hk' rfl
    obtain ⟨row, hrow, rfl⟩ := List.mem_map.mp hk
    obtain ⟨-, hne⟩ := List.mem_filter.mp hrow
    exact (of_decide_eq_true hne).1 (List.mem_singleton.mp hk')
  entryFillId_nodup := by
    rw [List.map_append, List.nodup_append]
    refine ⟨db.entryFillId_nodup.sublist (List.filter_sublist.map _), List.nodup_singleton _, ?_⟩
    rintro k hk k' hk' rfl
    obtain ⟨row, hrow, rfl⟩ := List.mem_map.mp hk
    obtain ⟨-, hne⟩ := List.mem_filter.mp hrow
    exact (of_decide_eq_true hne).2 (List.mem_singleton.mp hk')

/-- Note a fill. `INSERT OR IGNORE` does nothing if it is noted. -/
def persistBooked (db : LotDb) (fillId : FillId) : LotDb :=
  { db with
    bookedFills := if fillId ∈ db.bookedFills then db.bookedFills
      else db.bookedFills ++ [fillId] }

def commit (db : LotDb) : LotCommit → LotDb
  | .booked fillId => db.persistBooked fillId
  | .lot lot => db.persistLot lot

def commitAll (db : LotDb) (commits : List LotCommit) : LotDb := commits.foldl commit db

/-- What a new process loads. -/
def load (db : LotDb) : LotLedger where
  lots := db.lots.foldl (fun lots lot => lots.set lot.id lot) .empty
  booked := db.bookedFills

/-! ### What is loaded is what is there -/

section Load

variable {db : LotDb}

/-- Rows with keys of their own are loaded in their order. -/
theorem entries_load (db : LotDb) : db.load.lots.entries = db.lots.map fun lot => (lot.id, lot) :=
  Dict.entries_foldl_set (d := .empty) (fun _ _ => List.not_mem_nil) db.id_nodup

theorem get?_load {k : LotId} {lot : Lot} :
    db.load.lots.get? k = some lot ↔ lot ∈ db.lots ∧ lot.id = k := by
  rw [Dict.get?_eq_some_iff, entries_load, List.mem_map]
  constructor
  · rintro ⟨lot', hlot, heq⟩
    obtain ⟨rfl, rfl⟩ := Prod.mk.inj heq
    exact ⟨hlot, rfl⟩
  · rintro ⟨hlot, rfl⟩
    exact ⟨lot, hlot, rfl⟩

theorem allLots_load (db : LotDb) : db.load.allLots = db.lots := by
  rw [LotLedger.allLots, Dict.values, entries_load, List.map_map]
  exact List.map_id _

/-- Writing a lot, as long as its entry fill opened no other lot. -/
theorem get?_load_persistLot {lot : Lot}
    (hentry : ∀ row ∈ db.lots, row.entryFillId = lot.entryFillId → row.id = lot.id) (k : LotId) :
    (db.persistLot lot).load.lots.get? k =
      if k = lot.id then some lot else db.load.lots.get? k := by
  refine Option.ext fun row => ?_
  rw [get?_load, persistLot, List.mem_append, List.mem_filter, List.mem_singleton]
  split_ifs with hk
  · rw [Option.some_inj, hk]
    constructor
    · rintro ⟨⟨-, hne⟩ | rfl, hid⟩
      · exact absurd hid (of_decide_eq_true hne).1
      · rfl
    · rintro rfl
      exact ⟨Or.inr rfl, rfl⟩
  · rw [get?_load]
    constructor
    · rintro ⟨⟨hrow, -⟩ | rfl, hid⟩
      · exact ⟨hrow, hid⟩
      · exact absurd hid.symm hk
    · rintro ⟨hrow, rfl⟩
      exact ⟨Or.inl ⟨hrow, decide_eq_true ⟨hk, fun hc => hk (hentry row hrow hc)⟩⟩, rfl⟩

end Load

/-! ### The lots a sell writes -/

section Replace

variable {db : LotDb} {pairs : List (Lot × Lot)}

/-- Writing some lots again is replacing them: what the new process looks up is what the old one
had. -/
theorem get?_load_commitAll (hnd : (pairs.map fun p => p.1.id).Nodup)
    (hid : ∀ p ∈ pairs, p.2.id = p.1.id) (hentry : ∀ p ∈ pairs, p.2.entryFillId = p.1.entryFillId)
    {lots : Dict LotId Lot} (hmem : ∀ p ∈ pairs, lots.get? p.1.id = some p.1)
    (hlots : ∀ k, db.load.lots.get? k = lots.get? k) (k : LotId) :
    (db.commitAll (pairs.map fun p => .lot p.2)).load.lots.get? k =
      ((pairs.map Prod.snd).foldl (fun lots lot => lots.set lot.id lot) lots).get? k := by
  induction pairs generalizing db lots with
  | nil => exact hlots k
  | cons p pairs ih =>
    obtain ⟨hnot, hnd'⟩ := List.nodup_cons.mp hnd
    have hpid := hid p List.mem_cons_self
    have hold : p.1 ∈ db.lots :=
      (get?_load.mp ((hlots _).trans (hmem p List.mem_cons_self))).1
    -- the row that is replaced is the only one with that entry fill
    have hunique : ∀ row ∈ db.lots, row.entryFillId = p.2.entryFillId → row.id = p.2.id := by
      intro row hrow hfill
      rw [hentry p List.mem_cons_self] at hfill
      rw [List.inj_on_of_nodup_map db.entryFillId_nodup hrow hold hfill, hpid]
    refine ih hnd' (fun q hq => hid q (List.mem_cons_of_mem _ hq))
      (fun q hq => hentry q (List.mem_cons_of_mem _ hq)) (fun q hq => ?_) fun k' => ?_
    · have hne : q.1.id ≠ p.1.id := fun hc => hnot (List.mem_map.mpr ⟨q, hq, hc⟩)
      exact (Dict.get?_set_of_ne _ (hpid ▸ hne) _).trans (hmem q (List.mem_cons_of_mem _ hq))
    · rw [Dict.get?_set, ← hlots]
      exact get?_load_persistLot hunique k'

end Replace

/-! ### A crash between two commits -/

/-- **The database holds the ledger**: the lots and the fills that were booked. -/
structure Holds (db : LotDb) (l : LotLedger) : Prop where
  lots : ∀ k, db.load.lots.get? k = l.lots.get? k
  booked : ∀ fillId, fillId ∈ db.bookedFills ↔ fillId ∈ l.booked

/-- A ledger that is held by a database is keyed. -/
theorem Holds.keyed {db : LotDb} {l : LotLedger} (h : db.Holds l) : l.Keyed := by
  intro k lot hk
  rw [← h.lots] at hk
  exact (get?_load.mp hk).2

/-- A lot without its identifier, which is drawn anew whenever a lot is opened. -/
def anonymous (lot : Lot) : Lot := { lot with id := 0 }

/-- **The same lots**: quantities, remaining quantities, flags and exit fields. -/
def SameLots (l l' : LotLedger) : Prop :=
  (l.allLots.map anonymous).Perm (l'.allLots.map anonymous)

theorem SameLots.total {l l' : LotLedger} (h : SameLots l l') :
    l.total (·.remainingQty) = l'.total (·.remainingQty) := by
  have hsum := (h.map (·.remainingQty)).sum_eq
  rw [List.map_map, List.map_map] at hsum
  exact hsum

theorem SameLots.length {l l' : LotLedger} (h : SameLots l l') :
    l.allLots.length = l'.allLots.length := by
  simpa using h.length_eq

/-- **Crash-atomic**: the process dies after some of the commits; a new one loads what is there,
and is delivered the fill again. It then holds the lots an uninterrupted booking produces. -/
def CrashAtomic (db : LotDb) (l : LotLedger) (b : Booking) (method : LotMethod)
    (made : List LotCommit) (redelivered : LotId) : Prop :=
  SameLots ((db.commitAll made).load.bookFill b.fill redelivered method)
    (l.bookFill b.fill b.lotId method)

section Crash

variable {db : LotDb} {l : LotLedger} {b : Booking} {method : LotMethod} {redelivered : LotId}

theorem bookedFills_commitAll_lots (db : LotDb) (affected : List Lot) :
    (db.commitAll (affected.map .lot)).bookedFills = db.bookedFills := by
  induction affected generalizing db with
  | nil => rfl
  | cons lot affected ih => exact ih (db.persistLot lot)

variable (method redelivered) in
/-- A fill that is noted is not booked again. -/
theorem bookFill_load_of_booked (db : LotDb) (affected : List Lot) (fill : Fill) :
    (db.commitAll (.booked fill.id :: affected.map .lot)).load.bookFill fill redelivered method =
      ((db.persistBooked fill.id).commitAll (affected.map .lot)).load := by
  refine if_pos ?_
  change fill.id ∈ ((db.persistBooked fill.id).commitAll (affected.map .lot)).bookedFills
  rw [bookedFills_commitAll_lots, persistBooked]
  dsimp only
  split_ifs with h
  · exact h
  · exact List.mem_append_right _ (List.mem_singleton_self _)

/-- A buy whose lot was not written: there is one lot less. -/
theorem not_crashAtomic_of_buy (h : db.Holds l) (hnew : b.fill.id ∉ l.booked)
    (hside : b.fill.side = .buy) (hfresh : b.lotId ∉ l.lots.keys) :
    ¬db.CrashAtomic l b method [.booked b.fill.id] redelivered := by
  intro hsame
  have hcrashed := db.bookFill_load_of_booked method redelivered [] b.fill
  rw [List.map_nil] at hcrashed
  rw [CrashAtomic, hcrashed, LotLedger.bookFill_of_buy hnew hside] at hsame
  have hlength := hsame.length
  rw [allLots_load] at hlength
  have hrows : db.lots.length = l.lots.entries.length := by
    have hlen := (Dict.perm_of_get? h.lots).length_eq
    rwa [entries_load, List.length_map] at hlen
  have hopened : ((l.markBooked b.fill.id).openLot b.fill b.lotId).allLots.length =
      l.lots.entries.length + 1 := by
    rw [LotLedger.allLots, Dict.values, List.length_map]
    exact (congrArg List.length (Dict.entries_set_of_notMem _ hfresh _)).trans List.length_append
  rw [hopened, ← hrows] at hlength
  exact absurd hlength (Nat.ne_of_lt (Nat.lt_succ_self _))

/-- What is left of a lot is less than there was. -/
theorem remainingQty_consume_lt (lot : Lot) {taken : Decimal} (h : 0 < taken) (fill : Fill) :
    (lot.consume taken fill).remainingQty < lot.remainingQty := by
  rw [Lot.consume]
  dsimp only
  split_ifs with hdust
  · linarith [hdust.1]
  · linarith

/-- What the new process looks up, once the lots some quantities are taken from are written. -/
theorem get?_load_consumed {rows : LotDb} (h : ∀ k, rows.load.lots.get? k = l.lots.get? k)
    {consumed : List (Lot × Decimal)} (hnd : (consumed.map fun p => p.1.id).Nodup)
    (hmem : ∀ p ∈ consumed, l.lots.get? p.1.id = some p.1) (fill : Fill) (k : LotId) :
    (rows.commitAll ((consumed.map fun p => p.1.consume p.2 fill).map .lot)).load.lots.get? k =
      ((consumed.map fun p => p.1.consume p.2 fill).foldl
        (fun lots lot => lots.set lot.id lot) l.lots).get? k := by
  let pairs := consumed.map fun p => (p.1, p.1.consume p.2 fill)
  have hcommits : (consumed.map fun p => p.1.consume p.2 fill).map LotCommit.lot =
      pairs.map fun p => .lot p.2 := by
    rw [List.map_map, List.map_map]
    rfl
  have hsnd : (consumed.map fun p => p.1.consume p.2 fill) = pairs.map Prod.snd := by
    rw [List.map_map]
    rfl
  have hpairs : ∀ {P : Lot × Lot → Prop}, (∀ p ∈ consumed, P (p.1, p.1.consume p.2 fill)) →
      ∀ p ∈ pairs, P p := by
    rintro P hP p hp
    obtain ⟨q, hq, rfl⟩ := List.mem_map.mp hp
    exact hP q hq
  have hnd' : (pairs.map fun p => p.1.id).Nodup := by
    rw [List.map_map]
    exact hnd
  rw [hcommits, hsnd]
  exact get?_load_commitAll hnd' (hpairs fun _ _ => rfl) (hpairs fun _ _ => rfl) (hpairs hmem) h k

/-- Any sum over the lots, once the lots some quantities are taken from are written. -/
theorem total_load_commitAll {rows : LotDb} (h : ∀ k, rows.load.lots.get? k = l.lots.get? k)
    {consumed : List (Lot × Decimal)} (hnd : (consumed.map fun p => p.1.id).Nodup)
    (hmem : ∀ p ∈ consumed, l.lots.get? p.1.id = some p.1) (fill : Fill) (w : Lot → Decimal) :
    ((rows.commitAll ((consumed.map fun p => p.1.consume p.2 fill).map .lot)).load).total w =
      l.total w + (consumed.map fun p => w (p.1.consume p.2 fill) - w p.1).sum := by
  let pairs := consumed.map fun p => (p.1, p.1.consume p.2 fill)
  have hsnd : (consumed.map fun p => p.1.consume p.2 fill) = pairs.map Prod.snd := by
    rw [List.map_map]
    rfl
  have hpairs : ∀ {P : Lot × Lot → Prop}, (∀ p ∈ consumed, P (p.1, p.1.consume p.2 fill)) →
      ∀ p ∈ pairs, P p := by
    rintro P hP p hp
    obtain ⟨q, hq, rfl⟩ := List.mem_map.mp hp
    exact hP q hq
  have hnd' : (pairs.map fun p => p.1.id).Nodup := by
    rw [List.map_map]
    exact hnd
  have hperm := (Dict.perm_of_get? (get?_load_consumed h hnd hmem fill)).map fun e => w e.2
  rw [LotLedger.total_eq, LotLedger.total_eq, hperm.sum_eq, hsnd,
    LotLedger.sum_replace w hnd' (hpairs fun _ _ => rfl) (hpairs hmem), List.map_map]
  rfl

/-- A sell with a lot that was not written: more is left than should be. -/
theorem not_crashAtomic_of_sell (h : db.Holds l) (hnew : b.fill.id ∉ l.booked)
    (hside : b.fill.side = .sell)
    (hqty : b.fill.qty ≤ ((l.candidates b.fill.agentId (normalizeSymbol b.fill.symbol) method).map
      (·.remainingQty)).sum) {i : ℕ}
    (hi : i < (l.consumption b.fill.agentId b.fill.symbol b.fill.qty method).length) :
    ¬db.CrashAtomic l b method (.booked b.fill.id ::
      (((l.consumption b.fill.agentId b.fill.symbol b.fill.qty method).take i).map
        fun p => p.1.consume p.2 b.fill).map .lot) redelivered := by
  have hsells := LotLedger.bookFill_of_sell h.keyed hnew hside hqty b.lotId
  have hnd : ((l.consumption b.fill.agentId b.fill.symbol b.fill.qty method).map
      fun p => p.1.id).Nodup := LotLedger.nodup_consumption h.keyed b.fill.qty
  have hmem : ∀ p ∈ l.consumption b.fill.agentId b.fill.symbol b.fill.qty method,
      l.lots.get? p.1.id = some p.1 ∧ 0 < p.2 := by
    intro p hp
    obtain ⟨⟨hlot, -⟩, ht, -⟩ := LotLedger.of_mem_consumption hp
    exact ⟨h.keyed.get?_of_mem hlot, ht⟩
  generalize l.consumption b.fill.agentId b.fill.symbol b.fill.qty method = consumed at *
  intro hsame
  rw [CrashAtomic, bookFill_load_of_booked] at hsame
  have hrows : ∀ k, (db.persistBooked b.fill.id).load.lots.get? k = l.lots.get? k := h.lots
  have htaken := total_load_commitAll hrows
    (hnd.sublist ((List.take_sublist i consumed).map _))
    (fun p hp => (hmem p (List.mem_of_mem_take hp)).1) b.fill (·.remainingQty)
  have htotal := htaken.symm.trans (hsame.total.trans (hsells.total _))
  -- what the lots that were not written should have lost
  have hrest : 0 < ((consumed.drop i).map fun p =>
      -((p.1.consume p.2 b.fill).remainingQty - p.1.remainingQty)).sum := by
    refine List.sum_pos _ ?_ ?_
    · intro x hx
      obtain ⟨p, hp, rfl⟩ := List.mem_map.mp hx
      rw [neg_sub, sub_pos]
      exact remainingQty_consume_lt p.1 (hmem p (List.mem_of_mem_drop hp)).2 b.fill
    · rw [Ne, List.map_eq_nil_iff, List.drop_eq_nil_iff, not_le]
      exact hi
  have hsplit : (consumed.map fun p =>
      (p.1.consume p.2 b.fill).remainingQty - p.1.remainingQty).sum =
        ((consumed.take i).map fun p =>
          (p.1.consume p.2 b.fill).remainingQty - p.1.remainingQty).sum -
        ((consumed.drop i).map fun p =>
          -((p.1.consume p.2 b.fill).remainingQty - p.1.remainingQty)).sum := by
    have hneg := List.sum_neg ((consumed.drop i).map fun p =>
      (p.1.consume p.2 b.fill).remainingQty - p.1.remainingQty)
    rw [List.map_map] at hneg
    rw [show ((consumed.drop i).map fun p => -((p.1.consume p.2 b.fill).remainingQty -
      p.1.remainingQty)).sum = _ from hneg.symm, sub_neg_eq_add, ← List.sum_append,
      ← List.map_append, List.take_append_drop]
  rw [hsplit] at htotal
  have hmarked : (l.markBooked b.fill.id).total (·.remainingQty) = l.total (·.remainingQty) := rfl
  rw [hmarked] at htotal
  linarith

/-- A sell that touches lots found enough to consume, and touches what it consumes. -/
theorem of_closeLots_eq_some {qty : Decimal} {agentId : AgentId} {symbol : String}
    {fill : Fill} {l' : LotLedger} {affected : List Lot}
    (h : l.closeLots agentId symbol qty fill method = some (l', affected)) :
    qty ≤ ((l.candidates agentId (normalizeSymbol symbol) method).map (·.remainingQty)).sum ∧
      affected = (l.consumption agentId symbol qty method).map
        fun p => p.1.consume p.2 fill := by
  unfold LotLedger.closeLots at h
  split_ifs at h with hside hless
  dsimp only at h
  exact ⟨not_lt.mp hless, (Prod.mk.inj (Option.some.inj h)).2.symm⟩

/-- **Booking a fill is not crash-atomic.** Whatever the ledger and the fill, if the process dies
between any two of the commits that booking the fill makes, the ledger does not recover: the fill
is noted, so it is not booked again, and a lot it should have touched never is. -/
theorem not_crashAtomic (h : db.Holds l) (hfresh : b.lotId ∉ l.lots.keys) {j : ℕ} (hpos : 0 < j)
    (hlt : j < (l.commits b.fill b.lotId method).length) :
    ¬db.CrashAtomic l b method ((l.commits b.fill b.lotId method).take j) redelivered := by
  obtain ⟨i, rfl⟩ := Nat.exists_eq_succ_of_ne_zero hpos.ne'
  unfold LotLedger.commits at hlt ⊢
  split_ifs at hlt ⊢ with hnew
  · exact absurd hlt (Nat.not_lt_zero _)
  rw [List.length_cons, Nat.succ_lt_succ_iff] at hlt
  rw [List.take_succ_cons]
  cases hside : b.fill.side with
  | buy =>
    rw [hside] at hlt
    obtain rfl : i = 0 := Nat.lt_one_iff.mp hlt
    exact not_crashAtomic_of_buy h hnew hside hfresh
  | sell =>
    rw [hside] at hlt
    dsimp only at hlt ⊢
    rcases hclose : (l.markBooked b.fill.id).closeLots b.fill.agentId b.fill.symbol b.fill.qty
      b.fill method with _ | ⟨l', affected⟩
    · rw [hclose] at hlt
      exact absurd hlt (Nat.not_lt_zero _)
    · rw [hclose] at hlt
      obtain ⟨hqty, rfl⟩ := of_closeLots_eq_some hclose
      dsimp only at hlt ⊢
      rw [List.length_map, List.length_map] at hlt
      rw [← List.map_take, ← List.map_take]
      exact not_crashAtomic_of_sell h hnew hside hqty hlt

end Crash

/-! ### Two crashes -/

/-- Ten shares bought or sold, and the lot a purchase opens. -/
def tenShares (id : ℕ) (side : OrderSide) : Booking where
  fill :=
    { id := id, orderId := id, agentId := .sonnet, symbol := "AAPL", side := side, qty := 10,
      price := 100, timestamp := 0 }
  lotId := id

/-- The database once the ten shares are bought. -/
def boughtDb : LotDb :=
  empty.commitAll (LotLedger.empty.commits (tenShares 1 .buy).fill 1 .fifo)

/-- The process dies before the lot of the purchase is written. -/
theorem not_crashAtomic_firstBuy :
    ¬empty.CrashAtomic LotLedger.empty (tenShares 1 .buy) .fifo
      ((LotLedger.empty.commits (tenShares 1 .buy).fill 1 .fifo).take 1) 2 :=
  not_crashAtomic ⟨fun _ => rfl, fun _ => Iff.rfl⟩ (by decide) Nat.one_pos (by decide +kernel)

/-- The process dies between the note of the sale of all ten shares and the write of their lot. -/
def crashedSale : LotDb :=
  boughtDb.commitAll ((boughtDb.load.commits (tenShares 2 .sell).fill 2 .fifo).take 1)

/-- **Shares sold that are still there**: after the crash the sale is delivered again, and the ten
shares stay open for good. -/
theorem not_crashAtomic_soldTen :
    (boughtDb.load.commits (tenShares 2 .sell).fill 2 .fifo).length = 2 ∧
      ¬boughtDb.CrashAtomic boughtDb.load (tenShares 2 .sell) .fifo
        ((boughtDb.load.commits (tenShares 2 .sell).fill 2 .fifo).take 1) 3 ∧
      (crashedSale.load.bookFill (tenShares 2 .sell).fill 3 .fifo).totalOpenQty .sonnet "AAPL" =
        10 ∧
      (boughtDb.load.bookFill (tenShares 2 .sell).fill 2 .fifo).totalOpenQty .sonnet "AAPL" =
        0 := by
  refine ⟨by decide +kernel, fun h => ?_, by decide +kernel, by decide +kernel⟩
  exact absurd (SameLots.total h) (by decide +kernel)

end LotDb

end TradingPlatform
