import TradingPlatform.Execution.LotStore
import TradingPlatform.Execution.OmsBus
import TradingPlatform.Run

/-!
# From the log to the ledger

The order management system logs a fill and then publishes it; a handler of the application
books it into the lot ledger, which writes to a database of its own. So there are two stores,
written one after the other, and between the two writes the process can die.

When a new process is constructed it fills an empty ledger from the log, and when it is started
it replays the log, which publishes nothing. A fill that was logged and not noted before the
process died is therefore booked by the next one only if nothing else had been booked. The
condition under which no fill is lost is that no crash is of that kind
(`TradingPlatform.AppRun.Torn`), and in a run without such a crash the ledger of every process has
booked what is logged, and nothing else (`TradingPlatform.AppRun.allBooked_run`).
-/

namespace TradingPlatform

/-! ### The two stores -/

/-- What is on disk. -/
structure AppDisk where
  log : List LoggedEvent
  lots : LotDb

/-- A durable write: to the log, or to the database of the lots. -/
inductive AppWrite
  | log (event : LoggedEvent)
  | lot (commit : LotCommit)
  deriving DecidableEq

namespace AppDisk

def empty : AppDisk := ⟨[], .empty⟩

def write (disk : AppDisk) : AppWrite → AppDisk
  | .log event => { disk with log := disk.log ++ [event] }
  | .lot commit => { disk with lots := disk.lots.commit commit }

def writeAll (disk : AppDisk) (writes : List AppWrite) : AppDisk := writes.foldl write disk

end AppDisk

/-! ### Booking -/

/-- The identifiers drawn for new lots, by the fill that opens the lot. -/
abbrev LotIds := FillId → LotId

namespace LotLedger

/-- The handler of a published fill, for one fill after the other. -/
def onFillsReceived (lotIds : LotIds) (ledger : LotLedger) (fills : List Fill) : LotLedger :=
  fills.foldl (fun ledger fill => ledger.bookFill fill (lotIds fill.id) .fifo) ledger

/-- The commits made while some fills are booked. -/
def commitsAll (lotIds : LotIds) : LotLedger → List Fill → List LotCommit
  | _, [] => []
  | ledger, fill :: fills =>
    ledger.commits fill (lotIds fill.id) .fifo ++
      commitsAll lotIds (ledger.bookFill fill (lotIds fill.id) .fifo) fills

/-- The durable writes while the system logs some events: every event, and after a fill what its
handler commits. The handler returns before the system logs anything else. -/
def writes (lotIds : LotIds) : LotLedger → List LoggedEvent → List AppWrite
  | _, [] => []
  | ledger, event :: events =>
    .log event ::
      match event.fill? with
      | none => writes lotIds ledger events
      | some fill =>
        (ledger.commits fill (lotIds fill.id) .fifo).map .lot ++
          writes lotIds (ledger.bookFill fill (lotIds fill.id) .fifo) events

end LotLedger

/-! ### The process -/

/-- The system and the ledger of a process that has been started. -/
structure AppProcess where
  oms : Oms
  ledger : LotLedger

/-- An operation of the system, with the durable writes it makes. -/
def AppProcess.operate (p : AppProcess) (op : OmsOp) (lotIds : LotIds) :
    List AppWrite × AppProcess :=
  let oms := p.oms.step op
  (p.ledger.writes lotIds (oms.store.drop p.oms.store.length),
    { oms := oms
      ledger := p.ledger.onFillsReceived lotIds
        (fillsPublished (oms.bus.drop p.oms.bus.length)) })

namespace AppDisk

/-- Construct the ledger. One that has booked nothing is filled from the log. -/
def backfill (disk : AppDisk) (lotIds : LotIds) : List LotCommit × LotLedger :=
  if disk.lots.load.booked = [] then
    (disk.lots.load.commitsAll lotIds (fillsLogged disk.log),
      disk.lots.load.onFillsReceived lotIds (fillsLogged disk.log))
  else ([], disk.lots.load)

/-- Construct the application, and start it. -/
def boot (disk : AppDisk) (env : RecoveryEnv) (lotIds : LotIds) : List AppWrite × AppProcess :=
  let (commits, ledger) := disk.backfill lotIds
  match (Oms.reboot disk.log).recover env with
  | some (oms, _) =>
    (commits.map .lot ++ ledger.writes lotIds (oms.store.drop disk.log.length),
      { oms := oms, ledger := ledger.onFillsReceived lotIds (fillsPublished oms.bus) })
  -- the exception is logged, and the application runs on
  | none => (commits.map .lot, { oms := Oms.reboot disk.log, ledger := ledger })

end AppDisk

/-! ### Runs -/

/-- What is on disk, and the process if there is one. -/
structure AppRun where
  disk : AppDisk
  process : Option AppProcess

/-- The process performs an operation, or a new process is started. Either can be cut short by a
crash after a number of durable writes. -/
inductive AppEvent
  | operate (op : OmsOp) (lotIds : LotIds) (crash : Option ℕ)
  | start (env : RecoveryEnv) (lotIds : LotIds) (crash : Option ℕ)

namespace AppRun

/-- Nothing was ever started. -/
def start : AppRun := ⟨.empty, none⟩

/-- The writes are made, all of them or those before the crash. -/
def proceed (s : AppRun) (crash : Option ℕ) (result : List AppWrite × AppProcess) : AppRun :=
  match crash with
  | none => ⟨s.disk.writeAll result.1, some result.2⟩
  | some n => ⟨s.disk.writeAll (result.1.take n), none⟩

def step (s : AppRun) : AppEvent → AppRun
  | .operate op lotIds crash =>
    match s.process with
    | none => s
    | some p => s.proceed crash (p.operate op lotIds)
  | .start env lotIds crash => s.proceed crash (s.disk.boot env lotIds)

/-- **A crash between the two stores**: when the process dies after `n` of the writes, a fill is
logged that was still to be noted, and some other fill is noted. -/
def TornAt (disk : AppDisk) (writes : List AppWrite) (n : ℕ) : Prop :=
  (disk.writeAll (writes.take n)).lots.bookedFills ≠ [] ∧
    ∃ fill ∈ fillsLogged (disk.writeAll (writes.take n)).log,
      .lot (.booked fill.id) ∈ writes.drop n

instance (disk : AppDisk) (writes : List AppWrite) (n : ℕ) : Decidable (TornAt disk writes n) :=
  inferInstanceAs (Decidable (_ ∧ ∃ fill ∈ _, _))

/-- The event is cut short by a crash between the two stores. -/
def Torn (s : AppRun) : AppEvent → Prop
  | .operate op lotIds (some n) => ∃ p ∈ s.process, TornAt s.disk (p.operate op lotIds).1 n
  | .start env lotIds (some n) => TornAt s.disk (s.disk.boot env lotIds).1 n
  | .operate _ _ none | .start _ _ none => False

instance (s : AppRun) : (event : AppEvent) → Decidable (s.Torn event)
  | .operate op lotIds (some n) =>
    inferInstanceAs (Decidable (∃ p ∈ s.process, TornAt s.disk (p.operate op lotIds).1 n))
  | .start env lotIds (some n) =>
    inferInstanceAs (Decidable (TornAt s.disk (s.disk.boot env lotIds).1 n))
  | .operate _ _ none | .start _ _ none => isFalse id

/-- No process dies between the two stores. -/
def Whole (s : AppRun) (event : AppEvent) : Prop := ¬s.Torn event

instance (s : AppRun) (event : AppEvent) : Decidable (s.Whole event) :=
  inferInstanceAs (Decidable (¬_))

end AppRun

/-- **The ledger has booked what is logged**, and nothing else: the ledger and the system count the
same fills. -/
structure AppProcess.AllBooked (p : AppProcess) : Prop where
  booked : ∀ fill ∈ fillsLogged p.oms.store, fill.id ∈ p.ledger.booked
  logged : ∀ fillId ∈ p.ledger.booked, ∃ fill ∈ fillsLogged p.oms.store, fill.id = fillId

/-! ### What the writes leave on disk -/

/-- The event a write adds to the log. -/
def AppWrite.event? : AppWrite → Option LoggedEvent
  | .log event => some event
  | .lot _ => none

namespace AppDisk

theorem log_writeAll (disk : AppDisk) (writes : List AppWrite) :
    (disk.writeAll writes).log = disk.log ++ writes.filterMap AppWrite.event? := by
  induction writes generalizing disk with
  | nil => exact (List.append_nil _).symm
  | cons w writes ih =>
    rw [writeAll, List.foldl_cons, ← writeAll, ih]
    cases w with
    | log event => exact List.append_assoc _ _ _
    | lot commit =>
      rw [List.filterMap_cons_none rfl]
      cases commit <;> rfl

/-- A fill is noted if it was, or a write notes it. -/
theorem mem_bookedFills_writeAll {disk : AppDisk} {writes : List AppWrite} {fillId : FillId} :
    fillId ∈ (disk.writeAll writes).lots.bookedFills ↔
      fillId ∈ disk.lots.bookedFills ∨ .lot (.booked fillId) ∈ writes := by
  induction writes generalizing disk with
  | nil => simp [writeAll]
  | cons w writes ih =>
    rw [writeAll, List.foldl_cons, ← writeAll, ih, List.mem_cons]
    rcases w with event | (noted | lot)
    · simp [write]
    · have hnoted : fillId ∈ (disk.lots.persistBooked noted).bookedFills ↔
          fillId ∈ disk.lots.bookedFills ∨ fillId = noted := by
        rw [LotDb.persistBooked]
        dsimp only
        split_ifs with h
        · exact ⟨Or.inl, fun hor => hor.elim id fun heq => heq ▸ h⟩
        · rw [List.mem_append, List.mem_singleton]
      simp only [write, LotDb.commit, hnoted, AppWrite.lot.injEq, LotCommit.booked.injEq]
      tauto
    · simp [write, LotDb.commit, LotDb.persistLot]

end AppDisk

namespace LotLedger

variable {lotIds : LotIds} {l : LotLedger} {fillId : FillId}

/-- Booking a fill notes it. -/
theorem mem_booked_bookFill {fill : Fill} {lotId : LotId} {method : LotMethod} :
    fillId ∈ (l.bookFill fill lotId method).booked ↔ fillId ∈ l.booked ∨ fillId = fill.id := by
  rw [booked_bookFill]
  by_cases hnew : fill.id ∈ l.booked
  · rw [if_pos hnew]
    exact ⟨Or.inl, fun h => h.elim id fun heq => heq ▸ hnew⟩
  · rw [if_neg hnew, List.mem_append, List.mem_singleton]

/-- The commits of a fill note it, unless it was. -/
theorem mem_commits {fill : Fill} {lotId : LotId} {method : LotMethod} :
    .booked fillId ∈ l.commits fill lotId method ↔ fill.id ∉ l.booked ∧ fillId = fill.id := by
  by_cases hnew : fill.id ∈ l.booked
  · simp [commits, hnew]
  · have hcommits : ∃ lots : List Lot,
        l.commits fill lotId method = .booked fill.id :: lots.map .lot := by
      cases hside : fill.side with
      | buy => exact ⟨[.ofFill fill lotId], commits_of_buy hnew hside lotId⟩
      | sell =>
        rcases le_or_gt fill.qty ((l.candidates fill.agentId (normalizeSymbol fill.symbol)
          method).map (·.remainingQty)).sum with hqty | hless
        · exact ⟨_, commits_of_candidates hnew hside rfl hqty lotId⟩
        · exact ⟨[], commits_of_lt hnew hside hless lotId⟩
    obtain ⟨lots, hlots⟩ := hcommits
    rw [hlots]
    simp [hnew]

theorem mem_booked_onFillsReceived {fills : List Fill} :
    fillId ∈ (l.onFillsReceived lotIds fills).booked ↔
      fillId ∈ l.booked ∨ ∃ fill ∈ fills, fill.id = fillId := by
  induction fills generalizing l with
  | nil => simp [onFillsReceived]
  | cons fill fills ih =>
    rw [onFillsReceived, List.foldl_cons, ← onFillsReceived, ih, mem_booked_bookFill,
      List.exists_mem_cons_iff, or_assoc, eq_comm]

theorem mem_commitsAll {fills : List Fill} :
    .booked fillId ∈ l.commitsAll lotIds fills ↔
      fillId ∉ l.booked ∧ ∃ fill ∈ fills, fill.id = fillId := by
  induction fills generalizing l with
  | nil => simp [commitsAll]
  | cons fill fills ih =>
    rw [commitsAll, List.mem_append, ih, mem_commits, mem_booked_bookFill,
      List.exists_mem_cons_iff]
    by_cases heq : fillId = fill.id
    · subst heq
      tauto
    · tauto

/-- The writes note the fills among the events, unless they were noted. -/
theorem mem_writes {events : List LoggedEvent} :
    .lot (.booked fillId) ∈ l.writes lotIds events ↔
      fillId ∉ l.booked ∧ ∃ fill ∈ fillsLogged events, fill.id = fillId := by
  induction events generalizing l with
  | nil => simp [writes, fillsLogged]
  | cons event events ih =>
    rw [writes, List.mem_cons]
    rcases hfill : event.fill? with _ | fill
    · rw [fillsLogged, List.filterMap_cons_none hfill, ← fillsLogged, ← ih]
      simp
    · rw [fillsLogged, List.filterMap_cons_some hfill, ← fillsLogged, List.exists_mem_cons_iff]
      simp only [List.mem_append, List.mem_map, AppWrite.lot.injEq, exists_eq_right, ih,
        mem_commits, mem_booked_bookFill, reduceCtorEq, false_or]
      by_cases heq : fillId = fill.id
      · subst heq
        tauto
      · tauto

/-- Commits log nothing. -/
theorem event?_lots (commits : List LotCommit) :
    (commits.map AppWrite.lot).filterMap AppWrite.event? = [] := by
  rw [List.filterMap_map]
  exact List.filterMap_eq_nil_iff.mpr fun _ _ => rfl

theorem event?_writes (l : LotLedger) (lotIds : LotIds) (events : List LoggedEvent) :
    (l.writes lotIds events).filterMap AppWrite.event? = events := by
  induction events generalizing l with
  | nil => rfl
  | cons event events ih =>
    have hcons : AppWrite.event? (.log event) = some event := rfl
    rw [writes, List.filterMap_cons_some hcons]
    rcases event.fill? with _ | fill
    · rw [ih]
    · rw [List.filterMap_append, event?_lots, List.nil_append, ih]

/-- **A fill is logged before it is noted**, wherever the writes are cut short. -/
theorem logged_of_mem_take_writes {events : List LoggedEvent} {n : ℕ}
    (h : .lot (.booked fillId) ∈ (l.writes lotIds events).take n) :
    ∃ event fill, .log event ∈ (l.writes lotIds events).take n ∧ event.fill? = some fill ∧
      fill.id = fillId := by
  induction events generalizing l n with
  | nil => simp [writes] at h
  | cons event events ih =>
    rcases n with _ | n
    · simp at h
    rw [writes, List.take_succ_cons, List.mem_cons] at h
    rw [writes, List.take_succ_cons]
    have hrest := h.resolve_left (by simp)
    rcases hfill : event.fill? with _ | fill
    · rw [hfill] at hrest
      obtain ⟨event', fill', hmem, hfill', hid⟩ := ih hrest
      exact ⟨event', fill', List.mem_cons_of_mem _ hmem, hfill', hid⟩
    · rw [hfill] at hrest
      dsimp only at hrest ⊢
      rw [List.take_append, List.mem_append] at hrest
      rcases hrest with hmem | hmem
      · -- a commit of the fill that was just logged
        have hcommit : .booked fillId ∈ l.commits fill (lotIds fill.id) .fifo := by
          simpa using List.mem_of_mem_take hmem
        exact ⟨event, fill, List.mem_cons_self, hfill, (mem_commits.mp hcommit).2.symm⟩
      · obtain ⟨event', fill', hmem', hfill', hid⟩ := ih hmem
        refine ⟨event', fill', List.mem_cons_of_mem _ ?_, hfill', hid⟩
        rw [List.take_append]
        exact List.mem_append_right _ hmem'

end LotLedger

/-! ### The invariant -/

namespace AppProcess

/-- **The process is in step with the disk**, and has booked what is logged. -/
structure InStep (p : AppProcess) (disk : AppDisk) : Prop where
  durable : p.oms.Durable
  store : p.oms.store = disk.log
  noted : ∀ fillId, fillId ∈ p.ledger.booked ↔ fillId ∈ disk.lots.bookedFills
  booked : ∀ fill ∈ fillsLogged disk.log, fill.id ∈ p.ledger.booked

end AppProcess

namespace AppDisk

/-- What is noted is logged. -/
def Logged (disk : AppDisk) : Prop :=
  ∀ fillId ∈ disk.lots.bookedFills, ∃ fill ∈ fillsLogged disk.log, fill.id = fillId

/-- **The writes of a process that is not cut short.** At every moment the log can be started from
and what is noted is logged; at the end the process is in step with the disk. -/
structure Leads (disk : AppDisk) (writes : List AppWrite) (p : AppProcess) : Prop where
  restartable : ∀ n, Oms.Restartable (disk.writeAll (writes.take n)).log
  logged : ∀ n, (disk.writeAll (writes.take n)).Logged
  inStep : p.InStep (disk.writeAll writes)

end AppDisk

/-! ### What a process writes -/

namespace AppDisk

theorem writeAll_append (disk : AppDisk) (ws ws' : List AppWrite) :
    disk.writeAll (ws ++ ws') = (disk.writeAll ws).writeAll ws' :=
  List.foldl_append

variable {disk : AppDisk} {l : LotLedger} {lotIds : LotIds}

/-- Writes that come before others. -/
theorem Leads.after {ws ws' : List AppWrite} {p : AppProcess}
    (h : (disk.writeAll ws).Leads ws' p)
    (hrestartable : ∀ n, Oms.Restartable (disk.writeAll (ws.take n)).log)
    (hlogged : ∀ n, (disk.writeAll (ws.take n)).Logged) : disk.Leads (ws ++ ws') p := by
  have htake : ∀ n, disk.writeAll ((ws ++ ws').take n) = disk.writeAll (ws.take n) ∨
      disk.writeAll ((ws ++ ws').take n) =
        (disk.writeAll ws).writeAll (ws'.take (n - ws.length)) := by
    intro n
    rcases le_total n ws.length with hle | hle
    · exact Or.inl (by rw [List.take_append_of_le_length hle])
    · exact Or.inr (by rw [List.take_append, List.take_of_length_le hle, writeAll_append])
  constructor
  · intro n
    rcases htake n with heq | heq
    · exact heq ▸ hrestartable n
    · exact heq ▸ h.restartable _
  · intro n
    rcases htake n with heq | heq
    · exact heq ▸ hlogged n
    · exact heq ▸ h.logged _
  · rw [writeAll_append]
    exact h.inStep

/-- **The writes of a process that logs some events.** -/
theorem leads_writes {oms : Oms} {events : List LoggedEvent} (hd : oms.Durable)
    (hstore : oms.store = disk.log ++ events) (hids : ∀ e ∈ oms.store, e.IdAgrees)
    (hlogged : disk.Logged) (hnoted : ∀ fillId, fillId ∈ l.booked ↔
      fillId ∈ disk.lots.bookedFills)
    (hbooked : ∀ fill ∈ fillsLogged disk.log, fill.id ∈ l.booked) :
    disk.Leads (l.writes lotIds events)
      { oms := oms, ledger := l.onFillsReceived lotIds (fillsLogged events) } := by
  have hrestartable := hd.restartable hids
  have hlog : (disk.writeAll (l.writes lotIds events)).log = oms.store := by
    rw [log_writeAll, LotLedger.event?_writes, hstore]
  constructor
  case restartable =>
    intro n
    refine hrestartable.of_isPrefix ?_
    rw [← hlog, log_writeAll, log_writeAll, List.prefix_append_right_inj]
    exact (List.take_prefix n _).filterMap _
  case logged =>
    intro n fillId hid
    rw [log_writeAll, fillsLogged_append]
    rcases mem_bookedFills_writeAll.mp hid with hold | hnew
    · obtain ⟨fill, hfill, heq⟩ := hlogged fillId hold
      exact ⟨fill, List.mem_append_left _ hfill, heq⟩
    · obtain ⟨event, fill, hevent, hfill, heq⟩ := LotLedger.logged_of_mem_take_writes hnew
      refine ⟨fill, List.mem_append_right _ (List.mem_filterMap.mpr ⟨event, ?_, hfill⟩), heq⟩
      exact List.mem_filterMap.mpr ⟨_, hevent, rfl⟩
  case inStep =>
    constructor
    · exact hd
    · exact hlog.symm
    · intro fillId
      rw [mem_bookedFills_writeAll, LotLedger.mem_booked_onFillsReceived, LotLedger.mem_writes,
        ← hnoted]
      tauto
    · intro fill hfill
      rw [hlog, hstore, fillsLogged_append] at hfill
      rw [LotLedger.mem_booked_onFillsReceived]
      rcases List.mem_append.mp hfill with hold | hnew
      · exact Or.inl (hbooked fill hold)
      · exact Or.inr ⟨fill, hnew, rfl⟩

end AppDisk

/-- **An operation**: what it logs is booked. -/
theorem AppProcess.InStep.leads_operate {p : AppProcess} {disk : AppDisk} (hp : p.InStep disk)
    (hrestartable : Oms.Restartable disk.log) (hlogged : disk.Logged) (op : OmsOp)
    (lotIds : LotIds) : disk.Leads (p.operate op lotIds).1 (p.operate op lotIds).2 := by
  obtain ⟨log, bus, hstore, hbus, hfills, hids⟩ := Oms.emits_step p.oms op
  rw [AppProcess.operate]
  dsimp only
  rw [hstore, hbus, List.drop_left, List.drop_left, ← hfills]
  refine AppDisk.leads_writes (hp.durable.step op) (hstore.trans (by rw [hp.store])) ?_ hlogged
    hp.noted hp.booked
  intro e he
  rw [hstore, hp.store] at he
  rcases List.mem_append.mp he with he | he
  · exact hrestartable.idAgrees e he
  · exact hids e he

namespace AppDisk

variable {disk : AppDisk}

/-- **The ledger of a new process** has booked all that is logged, as long as nothing was noted or
all was. -/
theorem backfill_spec (lotIds : LotIds)
    (hnoted : disk.lots.bookedFills = [] ∨
      ∀ fill ∈ fillsLogged disk.log, fill.id ∈ disk.lots.bookedFills) :
    (∀ fillId, .booked fillId ∈ (disk.backfill lotIds).1 →
        ∃ fill ∈ fillsLogged disk.log, fill.id = fillId) ∧
      (∀ fillId, fillId ∈ (disk.backfill lotIds).2.booked ↔
        fillId ∈ disk.lots.bookedFills ∨ .booked fillId ∈ (disk.backfill lotIds).1) ∧
      ∀ fill ∈ fillsLogged disk.log, fill.id ∈ (disk.backfill lotIds).2.booked := by
  unfold backfill
  split_ifs with hempty
  · refine ⟨fun fillId h => (LotLedger.mem_commitsAll.mp h).2, fun fillId => ?_,
      fun fill hfill => ?_⟩
    · rw [LotLedger.mem_booked_onFillsReceived, LotLedger.mem_commitsAll]
      change fillId ∈ disk.lots.bookedFills ∨ _ ↔ _
      tauto
    · exact LotLedger.mem_booked_onFillsReceived.mpr (Or.inr ⟨fill, hfill, rfl⟩)
  · refine ⟨fun fillId h => absurd h List.not_mem_nil, fun fillId => ?_, ?_⟩
    · simp [LotDb.load]
    · exact hnoted.resolve_left hempty

/-- **A start**: the ledger is filled if it is empty, and what the recovery logs is booked. -/
theorem leads_boot (hrestartable : Oms.Restartable disk.log) (hlogged : disk.Logged)
    (hnoted : disk.lots.bookedFills = [] ∨
      ∀ fill ∈ fillsLogged disk.log, fill.id ∈ disk.lots.bookedFills)
    (env : RecoveryEnv) (lotIds : LotIds) :
    disk.Leads (disk.boot env lotIds).1 (disk.boot env lotIds).2 := by
  obtain ⟨hcommits, hbooked, hall⟩ := backfill_spec lotIds hnoted
  obtain ⟨r, hr, hd, log, bus, hstore, hbus, hfills, hids⟩ := hrestartable.exists_recover env
  have hstore' : r.1.store = disk.log ++ log := hstore
  have hbus' : r.1.bus = bus := hbus
  rw [boot, hr]
  dsimp only
  rw [hstore', hbus', List.drop_left, ← hfills]
  generalize (disk.backfill lotIds).1 = commits at hcommits hbooked ⊢
  have hlog : ∀ n, (disk.writeAll ((commits.map AppWrite.lot).take n)).log = disk.log := by
    intro n
    rw [← List.map_take, log_writeAll, LotLedger.event?_lots, List.append_nil]
  have hlogged' : ∀ n, (disk.writeAll ((commits.map AppWrite.lot).take n)).Logged := by
    intro n fillId hid
    rw [hlog]
    rcases mem_bookedFills_writeAll.mp hid with hold | hnew
    · exact hlogged fillId hold
    · exact hcommits fillId (by simpa using List.mem_of_mem_take hnew)
  have hend := hlog (commits.map AppWrite.lot).length
  have hendLogged := hlogged' (commits.map AppWrite.lot).length
  rw [List.take_length] at hend hendLogged
  refine Leads.after (leads_writes hd ?_ ?_ hendLogged ?_ ?_) ?_ hlogged'
  · rw [hend, hstore']
  · intro e he
    rw [hstore'] at he
    rcases List.mem_append.mp he with he | he
    · exact hrestartable.idAgrees e he
    · exact hids e he
  · intro fillId
    rw [hbooked, mem_bookedFills_writeAll]
    simp
  · rw [hend]
    exact hall
  · intro n
    rw [hlog]
    exact hrestartable

end AppDisk

/-! ### Runs -/

namespace AppRun

/-- **The invariant**: the log can be started from, what is noted is logged, all that is logged is
noted unless nothing is, and a process is in step with the disk. -/
structure Inv (s : AppRun) : Prop where
  restartable : Oms.Restartable s.disk.log
  logged : s.disk.Logged
  noted : s.disk.lots.bookedFills = [] ∨
    ∀ fill ∈ fillsLogged s.disk.log, fill.id ∈ s.disk.lots.bookedFills
  process : ∀ p, s.process = some p → p.InStep s.disk

theorem Inv.proceed {s : AppRun} {result : List AppWrite × AppProcess}
    (h : s.disk.Leads result.1 result.2) {crash : Option ℕ}
    (hcrash : ∀ n, crash = some n → ¬TornAt s.disk result.1 n) : (s.proceed crash result).Inv := by
  rcases crash with _ | n
  · have hall := h.inStep
    constructor
    case restartable => simpa [AppRun.proceed] using h.restartable result.1.length
    case logged => simpa [AppRun.proceed] using h.logged result.1.length
    case noted => exact Or.inr fun fill hfill => (hall.noted _).mp (hall.booked fill hfill)
    case process =>
      rintro p ⟨⟩
      exact hall
  · constructor
    case restartable => exact h.restartable n
    case logged => exact h.logged n
    case noted =>
      refine or_iff_not_imp_left.mpr fun hsome fill hfill => ?_
      by_contra hnot
      refine hcrash n rfl ⟨hsome, fill, hfill, ?_⟩
      -- the fill is noted in the end, so by one of the writes that were not made
      have hlogged : fill ∈ fillsLogged (s.disk.writeAll result.1).log := by
        have hprefix : (s.disk.writeAll (result.1.take n)).log ++
            (result.1.drop n).filterMap AppWrite.event? = (s.disk.writeAll result.1).log := by
          rw [AppDisk.log_writeAll, AppDisk.log_writeAll, List.append_assoc,
            ← List.filterMap_append, List.take_append_drop]
        rw [← hprefix, fillsLogged_append]
        exact List.mem_append_left _ hfill
      have hend := (h.inStep.noted _).mp (h.inStep.booked fill hlogged)
      rw [← List.take_append_drop n result.1, AppDisk.mem_bookedFills_writeAll,
        List.mem_append, ← or_assoc, ← AppDisk.mem_bookedFills_writeAll] at hend
      exact hend.resolve_left hnot
    case process => rintro p ⟨⟩

theorem inv_start : start.Inv where
  restartable := ⟨⟨Book.empty, rfl⟩, fun _ h => absurd h List.not_mem_nil⟩
  logged _ h := absurd h List.not_mem_nil
  noted := Or.inl rfl
  process _ h := by cases h

theorem Inv.step {s : AppRun} (hs : s.Inv) {event : AppEvent} (hwhole : s.Whole event) :
    (s.step event).Inv := by
  cases event with
  | operate op lotIds crash =>
    rcases hp : s.process with _ | p
    · rw [AppRun.step, hp]
      exact hs
    · have hstep : s.step (.operate op lotIds crash) = s.proceed crash (p.operate op lotIds) := by
        rw [AppRun.step, hp]
      rw [hstep]
      refine Inv.proceed ((hs.process p hp).leads_operate hs.restartable hs.logged op lotIds) ?_
      rintro n rfl htorn
      exact hwhole ⟨p, hp, htorn⟩
  | start env lotIds crash =>
    refine Inv.proceed (AppDisk.leads_boot hs.restartable hs.logged hs.noted env lotIds) ?_
    rintro n rfl htorn
    exact hwhole htorn

/-- **When no fill is lost between the stores.** In every history of operations, crashes and starts
in which no process dies between the log of a fill and its note while another fill is noted, the
ledger of every process that is running has booked what is logged, and nothing else. -/
theorem allBooked_run {events : List AppEvent} (hwhole : Along step Whole start events)
    {pre : List AppEvent} (hpre : pre <+: events) {p : AppProcess}
    (hp : (run step start pre).process = some p) : p.AllBooked := by
  have hinv := hwhole.invariant_reached (fun s event hs hok => Inv.step hs hok) inv_start hpre
  have hstep := hinv.process p hp
  constructor
  · intro fill hfill
    rw [hstep.store] at hfill
    exact hstep.booked fill hfill
  · intro fillId hid
    rw [hstep.store]
    exact hinv.logged fillId ((hstep.noted fillId).mp hid)

/-! ### Two crashes -/

/-- A broker that knows no order. -/
def noBroker : RecoveryEnv := ⟨fun _ => none, id, 0⟩

/-- A purchase of ten shares that is executed in two parts; the process dies after the given number
of the writes made for the second part, and a new one is started. -/
def crashedRun (n : ℕ) : List AppEvent :=
  [.start noBroker id none,
    .operate (.submitOrder (Oms.marketOrder 1 .buy 10) ⟨[], .returned "b-1"⟩ 0) id none,
    .operate (.brokerEvent (Oms.fillEventFor 100 1 .buy 4 .partiallyFilled) 1) id none,
    .operate (.brokerEvent (Oms.fillEventFor 101 1 .buy 6 .filled) 2) id (some n),
    .start noBroker id none]

/-- The identifiers of the fills in the log, and of those that the ledger has booked. -/
def counted (s : AppRun) : Option (List FillId × List FillId) :=
  s.process.map fun p => ((fillsLogged p.oms.store).map (·.id), p.ledger.booked)

/-- The process dies once the fill is noted, and the next one knows it. -/
theorem allBooked_notedRun :
    ∃ p, (run step start (crashedRun 2)).process = some p ∧ p.AllBooked := by
  have hwhole : Along step Whole start (crashedRun 2) := by decide +kernel
  have hstarted : (run step start (crashedRun 2)).process.isSome := by decide +kernel
  obtain ⟨p, hp⟩ := Option.isSome_iff_exists.mp hstarted
  exact ⟨p, hp, allBooked_run hwhole (List.prefix_refl _) hp⟩

/-- **A fill that is lost between the stores**: the process dies between the log of the second part
and its note, and no later process books it. -/
theorem not_allBooked_tornRun :
    (¬∀ p ∈ (run step start (crashedRun 1)).process, p.AllBooked) ∧
      counted (run step start (crashedRun 1)) = some ([100, 101], [100]) := by
  have hcounted : counted (run step start (crashedRun 1)) = some ([100, 101], [100]) := by
    decide +kernel
  refine ⟨fun h => ?_, hcounted⟩
  obtain ⟨p, hp, heq⟩ := Option.map_eq_some_iff.mp hcounted
  obtain ⟨hlogged, hbooked⟩ := Prod.mk.inj heq
  have hmem : 101 ∈ (fillsLogged p.oms.store).map (·.id) := hlogged ▸ by decide
  obtain ⟨fill, hfill, hid⟩ := List.mem_map.mp hmem
  have hin := (h p hp).booked fill hfill
  rw [hid, hbooked] at hin
  exact absurd hin (by decide)

end AppRun

end TradingPlatform
