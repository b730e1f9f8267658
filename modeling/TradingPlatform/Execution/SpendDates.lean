import TradingPlatform.Execution.Budget

/-!
# The spend of the latest date

A call of a language model is stamped before its request goes out and charged after the answer is
in, so around midnight a cost dated yesterday can reach the ledger after the reset to today. The
ledger takes the date of whatever it is given for the current one: `BudgetLedger.ensureDate` moves
to a *different* date, later or earlier, and drops what it had.

`TradingPlatform.SpendBook` is the ledger next to what it has been told so far – every entry, and
the latest date among the entries and the resets. `TradingPlatform.SpendBook.counts_along` says
that today's spend is the sum over the entries of the latest date, and that no entry lowers it,
as long as nothing is dated before the latest date. The first operation that is
(`TradingPlatform.SpendBook.counts_backdated_iff`) leaves the cost of the late entry alone, or
nothing, in the place of that sum.
-/

namespace TradingPlatform

/-- What the ledger is asked to do. -/
inductive SpendOp
  | recordSpend (agentId : String) (costUsd : Decimal) (callType : String) (ts : Time)
  | resetIfNewDay (today : Date)
  deriving DecidableEq

/-- The date an operation is about. -/
def SpendOp.date : SpendOp → Date
  | .recordSpend _ _ _ ts => ts.date
  | .resetIfNewDay today => today

/-- The entry an operation records. -/
def SpendOp.entry : SpendOp → List SpendEntry
  | .recordSpend agentId costUsd callType ts =>
    [{ ts := ts, agentId := agentId, callType := callType, costUsd := costUsd }]
  | .resetIfNewDay _ => []

/-- The cost of the entries of one date. -/
def spentOn (entries : List SpendEntry) (day : Date) : Decimal :=
  ((entries.filter (·.ts.date = day)).map (·.costUsd)).sum

theorem spentOn_append (entries entries' : List SpendEntry) (day : Date) :
    spentOn (entries ++ entries') day = spentOn entries day + spentOn entries' day := by
  simp [spentOn]

/-- Nothing is dated after the last date. -/
theorem spentOn_eq_zero {entries : List SpendEntry} {day : Date}
    (h : ∀ entry ∈ entries, entry.ts.date < day) : spentOn entries day = 0 := by
  have hnone : entries.filter (·.ts.date = day) = [] := by
    rw [List.filter_eq_nil_iff]
    intro entry hentry
    simpa using (h entry hentry).ne
  rw [spentOn, hnone, List.map_nil, List.sum_nil]

namespace BudgetLedger

variable (ledger : BudgetLedger)

def step (op : SpendOp) : BudgetLedger :=
  match op with
  | .recordSpend agentId costUsd callType ts => ledger.recordSpend agentId costUsd callType ts
  | .resetIfNewDay today => (ledger.resetIfNewDay today).1

/-- What either operation does: move to its date if that is another one, then add its entry. -/
theorem step_eq (op : SpendOp) :
    ledger.step op =
      { ledger.ensureDate op.date with
        total := (ledger.ensureDate op.date).total + (op.entry.map (·.costUsd)).sum
        entries := (ledger.ensureDate op.date).entries ++ op.entry } := by
  cases op with
  | recordSpend agentId costUsd callType ts =>
    simp [step, recordSpend, SpendOp.date, SpendOp.entry]
  | resetIfNewDay today =>
    obtain ⟨limit, day, total, entries⟩ := ledger
    by_cases h : day = some today
    · subst h
      simp [step, resetIfNewDay, ensureDate, SpendOp.date, SpendOp.entry]
    · simp [step, resetIfNewDay, ensureDate, SpendOp.date, SpendOp.entry, h]

theorem today_step (op : SpendOp) : (ledger.step op).today = some op.date := by
  rw [step_eq, ensureDate]
  split_ifs with h
  · rfl
  · exact not_not.mp h

/-- On the current date the cost is added. -/
theorem todaySpent_step_of_eq {op : SpendOp} (h : ledger.today = some op.date) :
    (ledger.step op).todaySpent = ledger.todaySpent + (op.entry.map (·.costUsd)).sum := by
  rw [step_eq, todaySpent, ensureDate, if_neg (not_not.mpr h), todaySpent]

/-- On any other date, later or earlier, the cost is all there is. -/
theorem todaySpent_step_of_ne {op : SpendOp} (h : ledger.today ≠ some op.date) :
    (ledger.step op).todaySpent = (op.entry.map (·.costUsd)).sum := by
  rw [step_eq, todaySpent, ensureDate, if_pos h]
  exact zero_add _

end BudgetLedger

/-- The ledger, all the entries there have been, and the latest date it has seen. -/
structure SpendBook where
  ledger : BudgetLedger
  recorded : List SpendEntry
  latest : Option Date
  deriving DecidableEq

namespace SpendBook

/-- A new ledger that has seen nothing. -/
def start (limit : Decimal) : SpendBook := ⟨.new limit, [], none⟩

def step (book : SpendBook) (op : SpendOp) : SpendBook where
  ledger := book.ledger.step op
  recorded := book.recorded ++ op.entry
  latest := some (book.latest.elim op.date (max op.date))

/-- **The ledger counts today's spend**: it reports the cost of the entries of the latest date. -/
def Counts (book : SpendBook) : Prop :=
  ∀ day, book.latest = some day → book.ledger.todaySpent = spentOn book.recorded day

/-- No entry lowers the spend, except by beginning a later date than any so far. -/
def NotReduced (book : SpendBook) : SpendOp → Prop
  | .recordSpend agentId costUsd callType ts =>
    0 ≤ costUsd → (∃ day, book.latest = some day ∧ ts.date ≤ day) →
      book.ledger.todaySpent ≤
        (book.step (.recordSpend agentId costUsd callType ts)).ledger.todaySpent
  | .resetIfNewDay _ => True

/-- The operation is dated no earlier than any before it. -/
def InOrder (book : SpendBook) (op : SpendOp) : Prop :=
  ∀ day, book.latest = some day → day ≤ op.date

/-! ### One operation -/

/-- The current date of the ledger is the latest, and its total is that date's. -/
structure Current (book : SpendBook) : Prop where
  today : book.ledger.today = book.latest
  counts : book.Counts
  within : ∀ entry ∈ book.recorded, ∃ day, book.latest = some day ∧ entry.ts.date ≤ day

variable {book : SpendBook} {op : SpendOp}

theorem SpendOp.date_of_mem_entry {op : SpendOp} {entry : SpendEntry} (h : entry ∈ op.entry) :
    entry.ts.date = op.date := by
  cases op with
  | recordSpend agentId costUsd callType ts => rw [List.mem_singleton.mp h]; rfl
  | resetIfNewDay today => cases h

theorem spentOn_entry (op : SpendOp) :
    spentOn op.entry op.date = (op.entry.map (·.costUsd)).sum := by
  cases op with
  | recordSpend agentId costUsd callType ts => simp [spentOn, SpendOp.entry, SpendOp.date]
  | resetIfNewDay today => rfl

/-- The costs an earlier date gets leave the latest one's alone. -/
theorem spentOn_entry_of_ne {day : Date} (h : op.date ≠ day) : spentOn op.entry day = 0 := by
  cases op with
  | recordSpend agentId costUsd callType ts =>
    have hts : ts.date ≠ day := h
    simp [spentOn, SpendOp.entry, hts]
  | resetIfNewDay today => rfl

theorem latest_step_of_inOrder (h : book.InOrder op) : (book.step op).latest = some op.date := by
  rw [step]
  cases hl : book.latest with
  | none => rfl
  | some day => exact congrArg some (max_eq_left (h day hl))

/-- **An operation in order keeps the ledger current.** -/
theorem Current.step (h : book.Current) (hop : book.InOrder op) : (book.step op).Current := by
  have hlatest := latest_step_of_inOrder hop
  refine ⟨?_, fun day hday => ?_, fun entry hentry => ?_⟩
  · rw [hlatest]
    exact book.ledger.today_step op
  · obtain rfl : op.date = day := Option.some.inj (hlatest.symm.trans hday)
    show (book.ledger.step op).todaySpent = spentOn (book.recorded ++ op.entry) op.date
    rw [spentOn_append, spentOn_entry]
    by_cases htoday : book.ledger.today = some op.date
    · rw [BudgetLedger.todaySpent_step_of_eq _ htoday, h.counts op.date (h.today ▸ htoday)]
    · -- a later date than any recorded: nothing has been spent on it yet
      have hbefore : ∀ entry ∈ book.recorded, entry.ts.date < op.date := by
        intro entry hentry
        obtain ⟨day, hday', hle⟩ := h.within entry hentry
        refine lt_of_le_of_ne (hle.trans (hop day hday')) fun heq => htoday ?_
        rw [h.today, hday', le_antisymm (hop day hday') (heq ▸ hle)]
      rw [BudgetLedger.todaySpent_step_of_ne _ htoday, spentOn_eq_zero hbefore, zero_add]
  · refine ⟨op.date, hlatest, ?_⟩
    rcases List.mem_append.mp hentry with hentry | hentry
    · obtain ⟨day, hday, hle⟩ := h.within entry hentry
      exact hle.trans (hop day hday)
    · exact (SpendOp.date_of_mem_entry hentry).le

theorem Current.notReduced (h : book.Current) (hop : book.InOrder op) : book.NotReduced op := by
  cases op with
  | resetIfNewDay today => trivial
  | recordSpend agentId costUsd callType ts =>
    rintro hcost ⟨day, hday, hle⟩
    have hsame : book.ledger.today =
        some (SpendOp.recordSpend agentId costUsd callType ts).date := by
      rw [h.today, hday]
      exact congrArg some (le_antisymm (hop day hday) hle)
    show _ ≤ (book.ledger.step _).todaySpent
    rw [BudgetLedger.todaySpent_step_of_eq _ hsame]
    simpa [SpendOp.entry] using hcost

theorem current_start (limit : Decimal) : (start limit).Current :=
  ⟨rfl, by rintro day ⟨⟩, by rintro entry ⟨⟩⟩

/-! ### Any sequence of operations -/

/-- **In order, the ledger counts today's spend**: whatever the entries and the resets, if none is
dated before the latest date seen, the ledger reports after each of them the cost of the entries
of the latest date, and no entry of that date lowers it. -/
theorem counts_along (limit : Decimal) {ops : List SpendOp}
    (h : Along step InOrder (start limit) ops) :
    Along step (fun book op => (book.step op).Counts ∧ book.NotReduced op) (start limit) ops := by
  refine h.imp_of_invariant (fun book op hcur hop => ?_) (current_start limit)
  exact ⟨⟨(hcur.step hop).counts, hcur.notReduced hop⟩, hcur.step hop⟩

/-- **The first operation out of order**: one dated before the latest date leaves the right spend
only where its own cost happens to be the whole spend of the latest date. -/
theorem counts_backdated_iff (h : book.Current) (hop : ¬book.InOrder op) :
    (book.step op).Counts ↔ (op.entry.map (·.costUsd)).sum = book.ledger.todaySpent := by
  obtain ⟨day, hday, hlt⟩ : ∃ day, book.latest = some day ∧ op.date < day := by
    simpa [InOrder] using hop
  have hlatest : (book.step op).latest = some day := by
    rw [step, hday]
    exact congrArg some (max_eq_right hlt.le)
  have hother : book.ledger.today ≠ some op.date := by
    rw [h.today, hday]
    exact fun heq => hlt.ne' (Option.some.inj heq)
  have hspent : spentOn (book.recorded ++ op.entry) day = book.ledger.todaySpent := by
    rw [spentOn_append, spentOn_entry_of_ne hlt.ne, add_zero, h.counts day hday]
  have htotal : (book.step op).ledger.todaySpent = (op.entry.map (·.costUsd)).sum :=
    BudgetLedger.todaySpent_step_of_ne _ hother
  constructor
  · intro hc
    rw [← htotal, hc day hlatest]
    exact hspent
  · intro heq day' hday'
    obtain rfl : day = day' := Option.some.inj (hlatest.symm.trans hday')
    rw [htotal, heq, ← hspent]
    rfl

/-! ### Two calls around midnight -/

/-- The ledger is reset to a new day and ninety cents are spent on it; then comes the charge for
a call that was stamped before midnight. -/
def lateCharge : List SpendOp :=
  [.recordSpend "opus" (50 / 100) "deep_dive" (12 * 3600 * microsPerSecond),
    .resetIfNewDay 1,
    .recordSpend "haiku" (90 / 100) "observe" (microsPerDay + 5 * microsPerSecond),
    .recordSpend "opus" (10 / 100) "deep_dive" (microsPerDay - microsPerSecond)]

/-- **A late charge wipes the day's spend out**: ninety cents of the new day are forgotten. -/
theorem not_counts_lateCharge :
    ¬Along step (fun book op => (book.step op).Counts ∧ book.NotReduced op)
      (start defaultDailyLimit) lateCharge := by
  intro h
  rw [show lateCharge = lateCharge.take 3 ++ [lateCharge[3]] from rfl, along_concat] at h
  have hcounts := h.2.1 1 (by decide +kernel)
  exact absurd hcounts (by decide +kernel)

/-- Two calls of one day, and the reset to the next. -/
theorem counts_along_two_days :
    Along step (fun book op => (book.step op).Counts ∧ book.NotReduced op)
      (start defaultDailyLimit)
      [.recordSpend "haiku" (3 / 10) "observe" 0,
        .recordSpend "haiku" (1 / 10) "observe" (5 * microsPerSecond), .resetIfNewDay 1] := by
  refine counts_along defaultDailyLimit ⟨?_, ?_, ?_, trivial⟩
  · rintro day ⟨⟩
  · rintro day ⟨⟩
    decide
  · rintro day ⟨⟩
    decide

end SpendBook

end TradingPlatform
