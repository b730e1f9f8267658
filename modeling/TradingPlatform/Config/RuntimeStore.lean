import TradingPlatform.Execution.BudgetFile
import TradingPlatform.Execution.Planner

/-!
# The master capability while the program runs

One number scales what every agent may hold, and an operator may change it while the program runs.
It is let in at three places. A start takes it from the settings, and is refused if it is above
1.5 and there is no override; but if a file holds a number that was set before, the program runs
with that one, and nobody looks at it. The dashboard sets whatever decimal it is sent, and the
setter takes 1.5 for what is above it, again unless there is an override. And the sizing raises an
exception above 1.5, whether there is an override or not.

An exit is sized too, so a number that the sizing refuses keeps every position where it is. The
numbers that do not are the finite ones up to 1.5 (`TradingPlatform.neverBlocks_iff`): an override
blocks what it is for, and so do a file that was written with it, or by hand, and the infinities.

The arithmetic of the sizing is exact, as elsewhere here: a number that is below zero by more than
the exponents of the decimals allow is not told apart.
-/

namespace TradingPlatform

/-! ### Sizing with a number that may not be finite -/

/-- Why a sizing fails. -/
inductive SizingError
  /-- The number of the message is above the limit. -/
  | masterCapability (masterCapability : DecimalValue)
  /-- A decimal operation without a result. -/
  | invalidOperation
  deriving DecidableEq

/-- Whether a decimal is greater than a number. To compare what is not a number is an invalid
operation. -/
def DecimalValue.exceeds? (bound : Decimal) : DecimalValue → Option Bool
  | .finite d => some (bound < d.toRat)
  | .infinity negative => some !negative
  | .nan .. => none

/-- The source's `effective_max_gross`. -/
def effectiveMaxGrossOf (agentId : AgentId) (masterCapability : DecimalValue)
    (sleeveWeights : Dict AgentId Decimal) (vixBucket : VixBucket)
    (drawdownBucket : DrawdownBucket) : Except SizingError Decimal :=
  match masterCapability.exceeds? maxMasterCapability with
  | none => .error .invalidOperation
  | some true => .error (.masterCapability masterCapability)
  | some false =>
    match masterCapability with
    | .finite d =>
      (effectiveMaxGross agentId ⟨d.toRat, sleeveWeights⟩ vixBucket drawdownBucket).mapError
        fun _ => .masterCapability masterCapability
    -- nothing is a multiple of an infinite number, and a negative cap is none
    | _ => if drawdownScalars drawdownBucket = 0 then .error .invalidOperation else .ok 0

theorem effectiveMaxGrossOf_finite (agentId : AgentId) (d : FiniteDecimal)
    (sleeveWeights : Dict AgentId Decimal) (vixBucket : VixBucket)
    (drawdownBucket : DrawdownBucket) :
    effectiveMaxGrossOf agentId (.finite d) sleeveWeights vixBucket drawdownBucket =
      (effectiveMaxGross agentId ⟨d.toRat, sleeveWeights⟩ vixBucket drawdownBucket).mapError
        fun _ => .masterCapability (.finite d) := by
  rw [effectiveMaxGrossOf, DecimalValue.exceeds?]
  by_cases habove : maxMasterCapability < d.toRat
  · rw [decide_eq_true habove, effectiveMaxGross, if_pos habove]
    rfl
  · rw [decide_eq_false habove]

namespace ExecutionPlanner

variable (masterCapability : DecimalValue) (sleeveWeights : Dict AgentId Decimal)
  (ledger : LotLedger) (intent : Intent) (agentState : AgentState) (snapshot : MarketSnapshot)
  (orderId : OrderId) (now : Time)

/-- What the source's `_plan_close` returns. -/
def closeResult : Except SizingError PlanResult :=
  let symbol := normalizeSymbol intent.symbol
  let openQty := ledger.totalOpenQty intent.agentId symbol
  if openQty ≤ 0 then .ok (.error .noPosition)
  else
    match snapshot.mark? symbol with
    | none => .ok (.error .noMark)
    | some mark =>
      if openQty * mark < minNotional then .ok (.error .subMin)
      else
        (effectiveMaxGrossOf intent.agentId masterCapability sleeveWeights snapshot.vixBucket
          agentState.drawdownBucket).map fun _ =>
            let sized : SizedOrder := ⟨.sell, openQty, openQty * mark, 8 / 100, .close⟩
            .ok (orderFor { intent with legs := [] } sized orderId now)

/-- What the source's `plan` returns; `sizing` is what the sizing of an intent that is no exit
comes to. -/
def planResult (sizing : Except SizingError PlanResult) : Except SizingError PlanResult :=
  if intent.action = .close ∨ intent.action = .sell ∧ intent.targetWeight ≤ 0 then
    closeResult masterCapability sleeveWeights ledger intent agentState snapshot orderId now
  else sizing

variable {sleeveWeights ledger intent agentState snapshot orderId now} {d : FiniteDecimal}

/-- With a finite number it is the order, or the reason, of the planner. -/
theorem closeResult_finite (p : ExecutionPlanner) :
    closeResult (.finite d) sleeveWeights ledger intent agentState snapshot orderId now =
      ((p.planClose ledger ⟨d.toRat, sleeveWeights⟩ intent agentState snapshot orderId now).map
        Prod.snd).mapError fun _ => .masterCapability (.finite d) := by
  rw [closeResult, planClose]
  dsimp only
  by_cases hnone : ledger.totalOpenQty intent.agentId (normalizeSymbol intent.symbol) ≤ 0
  · rw [if_pos hnone, if_pos hnone]
    rfl
  rw [if_neg hnone, if_neg hnone]
  cases snapshot.mark? (normalizeSymbol intent.symbol) with
  | none => rfl
  | some mark =>
    dsimp only
    by_cases hsmall : ledger.totalOpenQty intent.agentId (normalizeSymbol intent.symbol) * mark <
      minNotional
    · rw [if_pos hsmall, if_pos hsmall]
      rfl
    rw [if_neg hsmall, if_neg hsmall, effectiveMaxGrossOf_finite]
    cases effectiveMaxGross intent.agentId ⟨d.toRat, sleeveWeights⟩ snapshot.vixBucket
      agentState.drawdownBucket with
    | error e => rfl
    | ok emg => rfl

/-- What is held of a symbol that has a mark, and is worth a dollar, can be sold if the cap can be
computed. -/
theorem closeResult_of_worth (masterCapability : DecimalValue) {mark : Decimal}
    (hopen : 0 < ledger.totalOpenQty intent.agentId (normalizeSymbol intent.symbol))
    (hmark : snapshot.mark? (normalizeSymbol intent.symbol) = some mark)
    (hworth : minNotional ≤
      ledger.totalOpenQty intent.agentId (normalizeSymbol intent.symbol) * mark) :
    closeResult masterCapability sleeveWeights ledger intent agentState snapshot orderId now =
      (effectiveMaxGrossOf intent.agentId masterCapability sleeveWeights snapshot.vixBucket
        agentState.drawdownBucket).map fun _ => .ok (orderFor { intent with legs := [] }
          ⟨.sell, ledger.totalOpenQty intent.agentId (normalizeSymbol intent.symbol),
            ledger.totalOpenQty intent.agentId (normalizeSymbol intent.symbol) * mark, 8 / 100,
            .close⟩ orderId now) := by
  rw [closeResult]
  dsimp only
  rw [if_neg hopen.not_ge, hmark]
  exact if_neg hworth.not_gt

/-- With a finite number every intent comes to what the planner makes of it. -/
theorem planResult_finite (p : ExecutionPlanner) :
    planResult (.finite d) sleeveWeights ledger intent agentState snapshot orderId now
        (((p.plan ledger ⟨d.toRat, sleeveWeights⟩ intent agentState snapshot orderId now).map
          Prod.snd).mapError fun _ => .masterCapability (.finite d)) =
      ((p.plan ledger ⟨d.toRat, sleeveWeights⟩ intent agentState snapshot orderId now).map
        Prod.snd).mapError fun _ => .masterCapability (.finite d) := by
  rw [planResult, plan]
  by_cases hexit : intent.action = .close ∨ intent.action = .sell ∧ intent.targetWeight ≤ 0
  · rw [if_pos hexit, if_pos hexit, closeResult_finite p]
  · rw [if_neg hexit]

end ExecutionPlanner

/-! ### What a number must not do -/

/-- **The number never blocks trading**: every agent's cap can be computed in every market and at
every drawdown, and what is held of a symbol that has a mark can be sold, all of it, if it is worth
a dollar. -/
structure NeverBlocks (masterCapability : DecimalValue) : Prop where
  sizes : ∀ agentId sleeveWeights vixBucket drawdownBucket, ∃ emg,
    effectiveMaxGrossOf agentId masterCapability sleeveWeights vixBucket drawdownBucket = .ok emg
  exits : ∀ (sleeveWeights : Dict AgentId Decimal) (ledger : LotLedger) (intent : Intent)
    (agentState : AgentState) (snapshot : MarketSnapshot) (orderId : OrderId) (now : Time)
    (sizing : Except SizingError PlanResult) (mark : Decimal), intent.action = .close →
      0 < ledger.totalOpenQty intent.agentId (normalizeSymbol intent.symbol) →
      snapshot.mark? (normalizeSymbol intent.symbol) = some mark →
      minNotional ≤ ledger.totalOpenQty intent.agentId (normalizeSymbol intent.symbol) * mark →
      ∃ order, ExecutionPlanner.planResult masterCapability sleeveWeights ledger intent agentState
          snapshot orderId now sizing = .ok (.ok order) ∧
        order.agentId = intent.agentId ∧ order.symbol = normalizeSymbol intent.symbol ∧
        order.side = .sell ∧
        order.qty = ledger.totalOpenQty intent.agentId (normalizeSymbol intent.symbol)

/-- **Above the limit no position can be left**, even if it could be sold otherwise. -/
theorem closeResult_of_lt {d : FiniteDecimal} (habove : maxMasterCapability < d.toRat)
    {sleeveWeights : Dict AgentId Decimal} {ledger : LotLedger} {intent : Intent}
    {agentState : AgentState} {snapshot : MarketSnapshot} {orderId : OrderId} {now : Time}
    {mark : Decimal}
    (hopen : 0 < ledger.totalOpenQty intent.agentId (normalizeSymbol intent.symbol))
    (hmark : snapshot.mark? (normalizeSymbol intent.symbol) = some mark)
    (hworth : minNotional ≤
      ledger.totalOpenQty intent.agentId (normalizeSymbol intent.symbol) * mark) :
    ExecutionPlanner.closeResult (.finite d) sleeveWeights ledger intent agentState snapshot orderId
      now = .error (.masterCapability (.finite d)) := by
  rw [ExecutionPlanner.closeResult_of_worth _ hopen hmark hworth, effectiveMaxGrossOf_finite,
    effectiveMaxGross, if_pos habove]
  rfl

/-- A finite number up to the limit. -/
def DecimalValue.Moderate (masterCapability : DecimalValue) : Prop :=
  ∃ d, masterCapability = .finite d ∧ d.toRat ≤ maxMasterCapability

/-- An exit needs nothing of the number but that the cap can be computed. -/
theorem NeverBlocks.of_sizes {masterCapability : DecimalValue}
    (h : ∀ agentId sleeveWeights vixBucket drawdownBucket, ∃ emg,
      effectiveMaxGrossOf agentId masterCapability sleeveWeights vixBucket drawdownBucket =
        .ok emg) : NeverBlocks masterCapability := by
  refine ⟨h, ?_⟩
  intro sleeveWeights ledger intent agentState snapshot orderId now sizing mark hclose hopen hmark
    hworth
  obtain ⟨emg, hemg⟩ := h intent.agentId sleeveWeights snapshot.vixBucket agentState.drawdownBucket
  rw [ExecutionPlanner.planResult, if_pos (.inl hclose),
    ExecutionPlanner.closeResult_of_worth _ hopen hmark hworth, hemg]
  exact ⟨_, rfl, rfl, rfl, rfl, rfl⟩

/-- **The numbers that never block trading** are the finite ones up to the limit. -/
theorem neverBlocks_iff (masterCapability : DecimalValue) :
    NeverBlocks masterCapability ↔ masterCapability.Moderate := by
  constructor
  · -- an agent in forced cash is enough to tell
    intro h
    obtain ⟨emg, hemg⟩ := h.sizes .haiku .empty .crisis .forcedCash
    cases masterCapability with
    | finite d =>
      refine ⟨d, rfl, not_lt.mp fun habove => ?_⟩
      rw [effectiveMaxGrossOf_finite, effectiveMaxGross, if_pos habove] at hemg
      cases hemg
    | infinity negative => cases negative <;> cases hemg
    | nan negative signaling payload => cases hemg
  · rintro ⟨d, rfl, hle⟩
    refine .of_sizes fun agentId sleeveWeights vixBucket drawdownBucket => ?_
    rw [effectiveMaxGrossOf_finite, effectiveMaxGross, if_neg hle.not_gt]
    exact ⟨_, rfl⟩

/-! ### Where numbers come from -/

/-- The limit, as a decimal of the program. -/
def masterCapabilityLimit : FiniteDecimal := ⟨false, 15, -1, by decide⟩

theorem toRat_masterCapabilityLimit : masterCapabilityLimit.toRat = maxMasterCapability := by
  norm_num [FiniteDecimal.toRat, masterCapabilityLimit, maxMasterCapability]

/-- The number of a running program, and the file. -/
structure RuntimeStore where
  masterCapability : Option DecimalValue
  file : FileContent

namespace RuntimeStore

variable {F : Type} (ff : FloatFormat F) (tables : UnicodeTables)

/-- What the source's `_persist` writes. -/
def persistText (value : DecimalValue) : List Char :=
  dumps ff .compact (.ofRecord [("master_capability", .str (value.text.map .scalar))])

/-- The number that a file holds, if it can be read. -/
def persisted? (file : FileContent) : Option DecimalValue :=
  match file with
  | .absent | .undecodable => none
  | .text cs =>
    match loads ff cs with
    | none => none
    | some raw =>
      ((raw.getItem "master_capability").bind (JsonValue.strToDecimal ff tables)).toOption

/-- The source's `_load_persisted_mc`. -/
def loadPersistedMc (file : FileContent) (default : FiniteDecimal) : DecimalValue :=
  (persisted? ff tables file).getD (.finite default)

/-- **What was set is what a restart finds**, if it is finite. -/
theorem loadPersistedMc_persistText (d default : FiniteDecimal) :
    loadPersistedMc ff tables (.text (persistText ff (.finite d))) default = .finite d := by
  have hproper : (JsonValue.ofRecord (F := F)
      [("master_capability", .str (d.text.map .scalar))]).Proper := by
    refine JsonValue.proper_ofRecord (List.nodup_singleton _) fun field hfield => ?_
    obtain rfl := List.mem_singleton.mp hfield
    exact .str (Str.apart_map_scalar _)
  have hloads : loads ff (persistText ff (.finite d)) = some _ := loads_dumps ff .compact hproper
  rw [loadPersistedMc, persisted?, hloads]
  dsimp only
  rw [JsonValue.getItem_ofRecord_self, Except.bind, JsonValue.strToDecimal, DecimalValue.text,
    decimalOfText_text]
  rfl

variable (s : RuntimeStore)

/-- The setter; `failed` is what a write that fails leaves behind. -/
def setMasterCapability (value : DecimalValue) (overrideKey : Bool) (failed : Option FileContent) :
    RuntimeStore :=
  match value.exceeds? maxMasterCapability with
  -- the comparison raises an exception, and the number stays what it was
  | none => s
  | some exceeds =>
    let value := if exceeds && !overrideKey then .finite masterCapabilityLimit else value
    ⟨some value, failed.getD (.text (persistText ff value))⟩

/-- What happens to the number. -/
inductive Op
  /-- A start, with the number and the override of the settings. -/
  | start (masterCapability : FiniteDecimal) (overrideKey : Bool)
  | stop
  /-- The dashboard is sent a decimal; the override is that of the environment. -/
  | set (value : DecimalValue) (overrideKey : Bool) (failed : Option FileContent)
  /-- The file is written by something else than the program. -/
  | edit (file : FileContent)

/-- What it comes to. -/
def step : Op → RuntimeStore
  | .start masterCapability overrideKey =>
    -- the guard of `main`
    if maxMasterCapability < masterCapability.toRat ∧ overrideKey = false then
      { s with masterCapability := none }
    else { s with masterCapability := some (loadPersistedMc ff tables s.file masterCapability) }
  | .stop => { s with masterCapability := none }
  | .set value overrideKey failed =>
    if s.masterCapability = none then s else s.setMasterCapability ff value overrideKey failed
  | .edit file => { s with file := file }

/-- **Only moderate numbers are let in**: a start finds one in the file, or if it finds none there,
in the settings, or the guard refuses it; and what the dashboard is sent is one, or no number, or
it is cut down to the limit. -/
def LetsInModerate : Op → Prop
  | .start masterCapability overrideKey =>
    (maxMasterCapability < masterCapability.toRat ∧ overrideKey = false) ∨
      (loadPersistedMc ff tables s.file masterCapability).Moderate
  | .set value overrideKey _ => s.masterCapability ≠ none →
      value.Moderate ∨ value.exceeds? maxMasterCapability = none ∨
        (value.exceeds? maxMasterCapability = some true ∧ overrideKey = false)
  | .stop | .edit _ => True

/-- Whether the number that runs, if one does, blocks nothing. -/
def Open : Prop := ∀ value ∈ s.masterCapability, NeverBlocks value

variable {s}

theorem open_of_eq_none (h : s.masterCapability = none) : s.Open := by
  intro value hvalue
  rw [h] at hvalue
  cases hvalue

theorem open_iff_of_eq_some {value : DecimalValue} (h : s.masterCapability = some value) :
    s.Open ↔ value.Moderate := by
  rw [Open, h, ← neverBlocks_iff]
  constructor
  · exact fun hopen => hopen value rfl
  · rintro hvalue _ ⟨⟩
    exact hvalue

theorem moderate_limit : (DecimalValue.finite masterCapabilityLimit).Moderate :=
  ⟨_, rfl, toRat_masterCapabilityLimit.le⟩

/-- **A set number**, in a program whose number blocks nothing. -/
theorem open_setMasterCapability_iff (hs : s.Open) (value : DecimalValue) (overrideKey : Bool)
    (failed : Option FileContent) :
    (s.setMasterCapability ff value overrideKey failed).Open ↔
      value.Moderate ∨ value.exceeds? maxMasterCapability = none ∨
        (value.exceeds? maxMasterCapability = some true ∧ overrideKey = false) := by
  rw [setMasterCapability]
  cases hexceeds : value.exceeds? maxMasterCapability with
  | none => exact iff_of_true hs (.inr (.inl rfl))
  | some exceeds =>
    dsimp only
    rw [open_iff_of_eq_some rfl]
    cases exceeds with
    | false => simp
    | true =>
      cases overrideKey with
      | false => exact iff_of_true moderate_limit (.inr (.inr ⟨rfl, rfl⟩))
      | true => simp

/-- **One step**: nothing is blocked after it if and only if it lets in a moderate number. -/
theorem open_step_iff (s : RuntimeStore) (op : Op) (hs : s.Open) :
    (s.step ff tables op).Open ↔ s.LetsInModerate ff tables op := by
  cases op with
  | start masterCapability overrideKey =>
    rw [step, LetsInModerate]
    by_cases hrefused : maxMasterCapability < masterCapability.toRat ∧ overrideKey = false
    · rw [if_pos hrefused]
      exact iff_of_true (open_of_eq_none rfl) (.inl hrefused)
    · rw [if_neg hrefused, open_iff_of_eq_some rfl]
      exact ⟨.inr, fun h => h.resolve_left hrefused⟩
  | stop => exact iff_of_true (open_of_eq_none rfl) trivial
  | set value overrideKey failed =>
    rw [step, LetsInModerate]
    by_cases hstopped : s.masterCapability = none
    · rw [if_pos hstopped]
      exact iff_of_true hs fun hrunning => absurd hstopped hrunning
    · rw [if_neg hstopped, open_setMasterCapability_iff ff hs]
      exact ⟨fun h _ => h, fun h => h hstopped⟩
  | edit file => exact iff_of_true hs trivial

/-- **When the number never blocks trading**, in every state of a run, whatever the file was. -/
theorem neverBlocks_run_iff (file : FileContent) (ops : List Op) :
    (∀ pre, pre <+: ops → (run (step ff tables) ⟨none, file⟩ pre).Open) ↔
      Along (step ff tables) (LetsInModerate ff tables) ⟨none, file⟩ ops :=
  @forall_reached_iff_along _ _ _ _ _ (fun _ => True) Open (fun _ _ _ => trivial)
    (fun s op _ hs => open_step_iff ff tables s op hs) trivial (open_of_eq_none rfl) ops

/-- A number that only an override lets in. -/
def two : FiniteDecimal := ⟨false, 2, 0, by decide⟩

/-- **With an override nothing can be traded**: a start with 2 is not refused, and no position can
be left. -/
theorem not_forall_neverBlocks : ¬∀ (file : FileContent) (ops : List Op),
    (run (step decimalFloats .ascii) ⟨none, file⟩ ops).Open := by
  intro h
  have hrun : (run (step decimalFloats .ascii) ⟨none, .absent⟩ [.start two true]).masterCapability =
      some (.finite two) := by
    rw [run_cons, run_nil, step, if_neg (by simp)]
    rfl
  obtain ⟨d, hd, hle⟩ := (open_iff_of_eq_some hrun).mp (h .absent [.start two true])
  obtain rfl := DecimalValue.finite.inj hd
  revert hle
  norm_num [FiniteDecimal.toRat, two, maxMasterCapability]

end RuntimeStore

end TradingPlatform
