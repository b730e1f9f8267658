import TradingPlatform.Ops.EquitySnapshotter
import TradingPlatform.Run

/-!
# The positions on the dashboard

The dashboard shows the latest positions: the rows of the position table with the greatest
timestamp. The snapshotter writes a row for each position it is told of, so a tick that is told of
none writes nothing, and to the reader it is as if it had not been. An account that has been sold
out is shown with what it held before.

What is shown are the positions of the last tick that wrote some
(`TradingPlatform.currentPositions_run`). They are those the broker reported last, after every tick,
exactly if each answer of the broker is written down and has a position, or is what the broker
reported before (`TradingPlatform.currentPositions_iff`).
-/

namespace TradingPlatform

/-! ### The reader -/

/-- A position as the dashboard shows it. -/
structure PositionRow where
  symbol : String
  qty : Decimal
  marketValue : Decimal
  side : PositionSide
  unrealizedPl : Decimal
  deriving DecidableEq

def PositionSnapshot.positionRow (row : PositionSnapshot) : PositionRow where
  symbol := row.symbol
  qty := row.qty
  marketValue := row.marketValue
  side := row.side
  unrealizedPl := row.unrealizedPl

/-- The rows with the greatest timestamp. -/
def currentPositions (rows : List PositionSnapshot) : List PositionRow :=
  (rows.filter fun row => (rows.map (·.ts)).max? = some row.ts).map PositionSnapshot.positionRow

/-! ### The writer -/

/-- A call of the snapshotter: what the broker answers, the ledger it finds, and whether its rows
are committed. A write that fails is logged, and all rows of the tick are lost. -/
structure TickCall where
  ledger : LotLedger
  tick : SnapshotTick
  written : Bool

/-- The positions that the broker reports, if its list of positions comes. -/
def TickCall.reported (call : TickCall) : Option (List BrokerPosition) :=
  call.tick.broker.bind (·.positions)

namespace EquitySnapshotter

def tickCall (e : EquitySnapshotter) (call : TickCall) : EquitySnapshotter :=
  let ticked := e.tickOnce call.ledger call.tick
  if call.written then ticked
  else
    { ticked with
      equityRows := e.equityRows
      positionRows := e.positionRows
      agentPositionRows := e.agentPositionRows }

/-- The rows of positions that a call adds. -/
theorem positionRows_tickCall (e : EquitySnapshotter) (call : TickCall) :
    (e.tickCall call).positionRows =
      e.positionRows ++ if call.written then
        (call.reported.getD []).map (positionSnapshot call.tick.ts) else [] := by
  rw [tickCall]
  by_cases hwritten : call.written = true
  · rw [if_pos hwritten, if_pos hwritten]
    rfl
  · rw [if_neg hwritten, if_neg hwritten, List.append_nil]

end EquitySnapshotter

/-! ### What is shown -/

/-- A position of the broker as the dashboard would show it. -/
def BrokerPosition.row (p : BrokerPosition) : PositionRow := (positionSnapshot 0 p).positionRow

/-- What the broker reported last. -/
def lastReported (calls : List TickCall) : List BrokerPosition :=
  (calls.filterMap TickCall.reported).getLastD []

/-- The positions that a call leaves in the table. -/
def TickCall.stored (call : TickCall) : List BrokerPosition :=
  if call.written then call.reported.getD [] else []

/-- The positions of the last call that left some. -/
def lastStored (calls : List TickCall) : List BrokerPosition :=
  calls.foldl (fun last call => if call.stored = [] then last else call.stored) []

theorem currentPositions_append {rows new : List PositionSnapshot} {ts : Time}
    (hrows : ∀ row ∈ rows, row.ts < ts) (hnew : ∀ row ∈ new, row.ts = ts) (hne : new ≠ []) :
    currentPositions (rows ++ new) = new.map PositionSnapshot.positionRow := by
  obtain ⟨first, hfirst⟩ := List.exists_mem_of_ne_nil new hne
  have hmax : ((rows ++ new).map (·.ts)).max? = some ts := by
    refine List.max?_eq_some_iff.mpr ⟨?_, fun t ht => ?_⟩
    · rw [← hnew first hfirst]
      exact List.mem_map_of_mem (List.mem_append_right rows hfirst)
    · obtain ⟨row, hrow, rfl⟩ := List.mem_map.mp ht
      rcases List.mem_append.mp hrow with hold | hin
      · exact (hrows row hold).le
      · exact (hnew row hin).le
  have hold : rows.filter (fun row => some ts = some row.ts) = [] := by
    refine List.filter_eq_nil_iff.mpr fun row hrow hc => ?_
    exact (hrows row hrow).ne (Option.some.inj (of_decide_eq_true hc)).symm
  have hin : new.filter (fun row => some ts = some row.ts) = new :=
    List.filter_eq_self.mpr fun row hrow => decide_eq_true (by rw [hnew row hrow])
  rw [currentPositions, hmax, List.filter_append, hold, hin, List.nil_append]

/-- The rows are not later than the calls. -/
theorem exists_call_of_mem {e : EquitySnapshotter} (hfresh : e.positionRows = [])
    {calls : List TickCall} {row : PositionSnapshot}
    (h : row ∈ (run EquitySnapshotter.tickCall e calls).positionRows) :
    ∃ call ∈ calls, row.ts = call.tick.ts := by
  induction calls using List.reverseRecOn with
  | nil =>
    rw [run_nil, hfresh] at h
    exact absurd h List.not_mem_nil
  | append_singleton calls call ih =>
    rw [run_concat, EquitySnapshotter.positionRows_tickCall] at h
    rcases List.mem_append.mp h with hold | hnew
    · obtain ⟨call', hcall', hts⟩ := ih hold
      exact ⟨call', List.mem_append_left _ hcall', hts⟩
    · refine ⟨call, by simp, ?_⟩
      split at hnew
      · obtain ⟨p, -, rfl⟩ := List.mem_map.mp hnew
        rfl
      · exact absurd hnew List.not_mem_nil

/-- **What is shown**: the positions of the last call that left some. -/
theorem currentPositions_run {e : EquitySnapshotter} (hfresh : e.positionRows = [])
    {calls : List TickCall}
    (h : calls.Pairwise fun call call' => call.tick.ts < call'.tick.ts) :
    currentPositions (run EquitySnapshotter.tickCall e calls).positionRows =
      (lastStored calls).map BrokerPosition.row := by
  induction calls using List.reverseRecOn with
  | nil =>
    rw [run_nil, hfresh]
    rfl
  | append_singleton calls call ih =>
    obtain ⟨hcalls, -, hlast⟩ := List.pairwise_append.mp h
    have hrows : (run EquitySnapshotter.tickCall e (calls ++ [call])).positionRows =
        (run EquitySnapshotter.tickCall e calls).positionRows ++
          call.stored.map (positionSnapshot call.tick.ts) := by
      rw [run_concat, EquitySnapshotter.positionRows_tickCall, TickCall.stored]
      split <;> rfl
    rw [hrows, lastStored, List.foldl_append, List.foldl_cons, List.foldl_nil, ← lastStored]
    by_cases hnone : call.stored = []
    · rw [hnone, List.map_nil, List.append_nil, if_pos rfl]
      exact ih hcalls
    · rw [if_neg hnone, @currentPositions_append _ _ call.tick.ts, List.map_map]
      · rfl
      · intro row hrow
        obtain ⟨call', hcall', hts⟩ := exists_call_of_mem hfresh hrow
        rw [hts]
        exact hlast call' hcall' call (List.mem_singleton_self call)
      · intro row hrow
        obtain ⟨p, -, rfl⟩ := List.mem_map.mp hrow
        rfl
      · rwa [ne_eq, List.map_eq_nil_iff]

/-! ### When it is what was reported last -/

/-- An answer of the broker is shown: it is written down and has a position, or it is as before. -/
def ShowsUp (before : List TickCall) (call : TickCall) : Prop :=
  ∀ positions ∈ call.reported, (call.written ∧ positions ≠ []) ∨
    positions.map BrokerPosition.row = (lastReported before).map BrokerPosition.row

theorem lastReported_concat (calls : List TickCall) (call : TickCall) :
    lastReported (calls ++ [call]) = call.reported.getD (lastReported calls) := by
  rw [lastReported, List.filterMap_append]
  cases hcall : call.reported with
  | none => simp [hcall, lastReported]
  | some positions => simp [hcall]

/-- One call. -/
theorem shown_concat_iff {calls : List TickCall} (call : TickCall)
    (h : (lastStored calls).map BrokerPosition.row = (lastReported calls).map BrokerPosition.row) :
    (lastStored (calls ++ [call])).map BrokerPosition.row =
        (lastReported (calls ++ [call])).map BrokerPosition.row ↔ ShowsUp calls call := by
  rw [lastReported_concat, lastStored, List.foldl_append, List.foldl_cons, List.foldl_nil,
    ← lastStored, TickCall.stored, ShowsUp]
  cases hcall : call.reported with
  | none => simp [h]
  | some positions =>
    simp only [Option.mem_some_iff, forall_eq', Option.getD_some]
    by_cases hwritten : call.written = true
    · by_cases hnone : positions = []
      · subst hnone
        have hno : ¬(call.written = true ∧ ([] : List BrokerPosition) ≠ []) := fun hc => hc.2 rfl
        rw [if_pos hwritten, if_pos rfl, h, or_iff_right hno, eq_comm]
      · simp [hwritten, hnone]
    · have hno : ¬(call.written = true ∧ positions ≠ []) := fun hc => hwritten hc.1
      rw [if_neg hwritten, if_pos rfl, h, or_iff_right hno, eq_comm]

/-- **When the dashboard shows what the broker reported last**, after every tick. -/
theorem currentPositions_iff {e : EquitySnapshotter} (hfresh : e.positionRows = [])
    {calls : List TickCall}
    (h : calls.Pairwise fun call call' => call.tick.ts < call'.tick.ts) :
    (∀ pre, pre <+: calls →
      currentPositions (run EquitySnapshotter.tickCall e pre).positionRows =
        (lastReported pre).map BrokerPosition.row) ↔
      ∀ pre call, pre ++ [call] <+: calls → ShowsUp pre call := by
  -- the calls so far, as the state of a run of their own
  have hrun : ∀ pre : List TickCall,
      run (fun (pre : List TickCall) call => pre ++ [call]) [] pre = pre := by
    intro pre
    induction pre using List.reverseRecOn with
    | nil => rfl
    | append_singleton pre call ih => rw [run_concat, ih]
  let Shown : List TickCall → Prop := fun pre =>
    (lastStored pre).map BrokerPosition.row = (lastReported pre).map BrokerPosition.row
  have hiff : (∀ pre, pre <+: calls → Shown (run (fun pre call => pre ++ [call]) [] pre)) ↔
      Along (fun pre call => pre ++ [call]) ShowsUp [] calls :=
    @forall_reached_iff_along _ _ _ _ _ (fun _ => True) Shown (fun _ _ _ => trivial)
      (fun pre call _ hpre => shown_concat_iff call hpre) trivial rfl calls
  rw [along_iff_forall_before] at hiff
  simp only [hrun] at hiff
  rw [← hiff]
  refine forall₂_congr fun pre hpre => ?_
  rw [currentPositions_run hfresh (h.sublist hpre.sublist)]

/-- A snapshotter over an empty database. -/
def freshSnapshotter : EquitySnapshotter where
  tracker := .new 30000 true
  hasLotLedger := false

/-- A call in which the broker answers with some positions, or with none of its lists. -/
def callAt (ts : Time) (positions : Option (List BrokerPosition)) : TickCall where
  ledger := .empty
  tick := ⟨ts, some ⟨some 100000, positions⟩, fun _ => ts, fun _ => ts⟩
  written := true

def tenOfSpy : BrokerPosition := ⟨"SPY", 10, 400, 410, .equity⟩

/-- A call that fails after one that brought a position leaves it on the dashboard. -/
theorem currentPositions_iff_failedCall :
    currentPositions (run EquitySnapshotter.tickCall freshSnapshotter
        [callAt 1 (some [tenOfSpy]), callAt 2 none]).positionRows = [tenOfSpy.row] := by
  have hinc : [callAt 1 (some [tenOfSpy]), callAt 2 none].Pairwise
      fun call call' => call.tick.ts < call'.tick.ts := by decide
  refine (currentPositions_iff rfl hinc).mpr ?_ _ List.prefix_rfl
  intro pre call hpre positions hpositions
  have hmem : call ∈ [callAt 1 (some [tenOfSpy]), callAt 2 none] := hpre.subset (by simp)
  rcases List.mem_pair.mp hmem with rfl | rfl
  · obtain rfl := Option.some.inj hpositions
    exact .inl ⟨rfl, List.cons_ne_nil _ _⟩
  · exact absurd hpositions (Option.not_mem_none positions)

/-- **A flat account is not shown**: the broker reports a position, and then none, and the
dashboard shows it still. -/
theorem not_forall_currentPositions :
    ¬∀ (e : EquitySnapshotter) (calls : List TickCall), e.positionRows = [] →
      calls.Pairwise (fun call call' => call.tick.ts < call'.tick.ts) →
        currentPositions (run EquitySnapshotter.tickCall e calls).positionRows =
          (lastReported calls).map BrokerPosition.row := by
  intro h
  have hsorted : [callAt 1 (some [tenOfSpy]), callAt 2 (some [])].Pairwise
      fun call call' => call.tick.ts < call'.tick.ts := by decide
  have hshown := (currentPositions_run (e := freshSnapshotter) rfl hsorted).symm.trans
    (h _ _ rfl hsorted)
  exact absurd hshown (List.cons_ne_nil _ _)

end TradingPlatform
