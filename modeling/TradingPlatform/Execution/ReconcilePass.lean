import TradingPlatform.Execution.Positions

/-!
# A pass over the positions, and the break it lifts

A pass trips the kill switch when the books are apart in some symbol and lifts a break when
they are apart in none. What "none" means is worked out here. Comparing the symbols one
after the other adopts the orphans on the way
(`TradingPlatform.Reconciler.netQty_compareSymbols`), so a pass that counts no mismatch
leaves every symbol within tolerance, the adopted ones to the last share
(`TradingPlatform.Reconciler.inSync_of_no_mismatch`).

A pass also runs the heartbeat watchdog, and lifts a break when there are no positions to
compare. `TradingPlatform.Reconciler.break_lifted_by_evidence` says what remains: a pass that
had the positions lifts a break only when the books agree at its end, and one that had not
leaves any other state to the watchdog.
-/

namespace TradingPlatform

namespace Reconciler

variable (cfg : ReconcilerConfig) (env : ReconcileEnv)

/-! ### Orders: no order appears -/

theorem applyStatus_eq (s : Oms) (order : Order) (status : BrokerOrderStatus) (fillId : FillId) :
    (applyStatus s order status fillId).1 = s ∨
      (applyStatus s order status fillId).1 = s.forceCloseFilled order.id status.updatedAt ∨
      ∃ fill, (applyStatus s order status fillId).1 =
        s.onBrokerEvent (statusEvent status fill) status.updatedAt := by
  unfold applyStatus
  dsimp only
  split_ifs
  · exact Or.inr (Or.inr ⟨_, rfl⟩)
  · exact Or.inr (Or.inl rfl)
  · exact Or.inr (Or.inr ⟨_, rfl⟩)
  · exact Or.inl rfl

theorem keyed_reconcileOrder {s : Oms} (hs : s.Keyed) (order : Order) :
    (reconcileOrder env s order).1.Keyed ∧
      (reconcileOrder env s order).1.orders.keys = s.orders.keys := by
  unfold reconcileOrder
  split
  · exact ⟨hs, rfl⟩
  · split
    · exact ⟨hs, rfl⟩
    · rename_i status _
      rcases applyStatus_eq s order status (env.fillId order.id) with h | h | ⟨fill, h⟩
      · rw [h]
        exact ⟨hs, rfl⟩
      · have hq := Oms.quiet_forceCloseFilled hs order.id status.updatedAt
        rw [h]
        exact ⟨hq.keyed hs, hq.keys⟩
      · rw [h]
        exact ⟨hs.onBrokerEvent _ _, Oms.keys_onBrokerEvent hs _ _⟩

/-- A pass polls the orders one after the other. -/
theorem fst_reconcileOrders (s : Oms) (orders : List Order) :
    (reconcileOrders env s orders).1 =
      run (fun s order => (reconcileOrder env s order).1) s orders :=
  (List.foldl_hom Prod.fst fun _ _ => rfl).symm

theorem keyed_reconcileOrders {s : Oms} (hs : s.Keyed) (openOrders : List Order) :
    (reconcileOrders env s openOrders).1.Keyed ∧
      (reconcileOrders env s openOrders).1.orders.keys = s.orders.keys := by
  have hstep : ∀ (s' : Oms) (order : Order), s'.Keyed ∧ s'.orders.keys = s.orders.keys → True →
      (reconcileOrder env s' order).1.Keyed ∧
        (reconcileOrder env s' order).1.orders.keys = s.orders.keys := by
    rintro s' order ⟨hs', hkeys⟩ -
    obtain ⟨h, hk⟩ := keyed_reconcileOrder env hs' order
    exact ⟨h, hk.trans hkeys⟩
  rw [fst_reconcileOrders]
  exact (along_of_forall (fun _ _ => trivial) openOrders).invariant hstep ⟨hs, rfl⟩

/-! ### Positions: the orphans are adopted -/

/-- What a pass adopts in a symbol. -/
def SymbolCheck.adopted : SymbolCheck → Decimal
  | .orphan qty _ => qty
  | .agrees | .mismatch _ => 0

/-- The mismatch a pass notes in a symbol. -/
def SymbolCheck.mismatch? : SymbolCheck → Option PositionMismatch
  | .mismatch details => some details
  | .agrees | .orphan .. => none

/-- The identifiers a pass draws for its orphans are new, and all different. -/
structure FreshGhosts (env : ReconcileEnv) (s : Oms) : Prop where
  notMem : ∀ sym, (env.ghostIds sym).order ∉ s.orders.keys
  injective : ∀ sym sym', (env.ghostIds sym).order = (env.ghostIds sym').order → sym = sym'

variable (expected : Dict String Decimal) (positions : Dict String BrokerPosition)

/-- Comparing one symbol notes its mismatch. -/
theorem mismatches_compareSymbol (acc : Oms × List PositionMismatch) (sym : String) :
    (compareSymbol cfg env expected positions acc sym).2 =
      acc.2 ++ (checkSymbol cfg expected positions sym).mismatch?.toList := by
  unfold compareSymbol
  cases checkSymbol cfg expected positions sym <;> simp [SymbolCheck.mismatch?]

/-- Comparing the symbols notes their mismatches, in their order. -/
theorem mismatches_compareSymbols (syms : List String) (acc : Oms × List PositionMismatch) :
    (syms.foldl (compareSymbol cfg env expected positions) acc).2 =
      acc.2 ++ syms.filterMap fun sym => (checkSymbol cfg expected positions sym).mismatch? := by
  induction syms generalizing acc with
  | nil => simp
  | cons sym syms ih =>
    rw [List.foldl_cons, ih, mismatches_compareSymbol, List.append_assoc, List.filterMap_cons]
    cases (checkSymbol cfg expected positions sym).mismatch? <;> rfl

/-- Comparing one symbol. -/
theorem netQty_compareSymbol {s : Oms} (hs : s.Keyed) {sym : String}
    (hfresh : (env.ghostIds sym).order ∉ s.orders.keys) (ms : List PositionMismatch) :
    let result := compareSymbol cfg env expected positions (s, ms) sym
    result.1.Keyed ∧
      (∀ k, k ∈ result.1.orders.keys → k = (env.ghostIds sym).order ∨ k ∈ s.orders.keys) ∧
      ∀ sym', result.1.netQty sym' =
        s.netQty sym' + if sym' = sym then (checkSymbol cfg expected positions sym).adopted
          else 0 := by
  dsimp only
  unfold compareSymbol
  cases checkSymbol cfg expected positions sym with
  | agrees | mismatch _ =>
    refine ⟨hs, fun k hk => Or.inr hk, fun sym' => ?_⟩
    simp [SymbolCheck.adopted]
  | orphan qty price =>
    refine ⟨hs.adoptOrphanPosition _ _ _ _ _, fun k hk => ?_, fun sym' => ?_⟩
    · exact (Oms.keys_adoptOrphanPosition _ _ _ _ _ hs k).mp hk
    · exact Oms.netQty_adoptOrphanPosition _ _ _ _ _ hs hfresh sym'

/-- **Comparing the symbols** adopts the orphans among them. -/
theorem netQty_compareSymbols (hinj : ∀ sym sym', (env.ghostIds sym).order =
      (env.ghostIds sym').order → sym = sym') {syms : List String} (hnd : syms.Nodup) {s : Oms}
    (hs : s.Keyed) (hfresh : ∀ sym ∈ syms, (env.ghostIds sym).order ∉ s.orders.keys)
    (ms : List PositionMismatch) :
    let result := syms.foldl (compareSymbol cfg env expected positions) (s, ms)
    result.1.Keyed ∧
      ∀ sym, result.1.netQty sym =
        s.netQty sym + if sym ∈ syms then (checkSymbol cfg expected positions sym).adopted
          else 0 := by
  induction syms generalizing s ms with
  | nil => simpa using hs
  | cons sym syms ih =>
    obtain ⟨hnot, hnd'⟩ := List.nodup_cons.mp hnd
    obtain ⟨hk₁, hkeys₁, hnet₁⟩ :=
      netQty_compareSymbol cfg env expected positions hs (hfresh sym List.mem_cons_self) ms
    have hfresh₁ : ∀ sym' ∈ syms, (env.ghostIds sym').order ∉
        (compareSymbol cfg env expected positions (s, ms) sym).1.orders.keys := by
      intro sym' hsym' hmem
      rcases hkeys₁ _ hmem with heq | hmem'
      · exact hnot (hinj _ _ heq ▸ hsym')
      · exact hfresh sym' (List.mem_cons_of_mem _ hsym') hmem'
    obtain ⟨hk, hnet⟩ := ih hnd' hk₁ hfresh₁
      (compareSymbol cfg env expected positions (s, ms) sym).2
    refine ⟨hk, fun sym' => ?_⟩
    rw [List.foldl_cons, hnet, hnet₁]
    by_cases h : sym' = sym
    · subst h
      simp [hnot]
    · simp [h]

theorem nodup_allSymbols : (allSymbols expected positions).Nodup := by
  rw [allSymbols]
  refine List.nodup_append.mpr ⟨expected.nodup_keys, positions.nodup_keys.filter _, ?_⟩
  rintro sym hsym sym' hsym' rfl
  simp only [List.mem_filter, decide_eq_true_eq] at hsym'
  exact hsym'.2 hsym

/-- A pass looks at the symbols of both sides. -/
theorem mem_allSymbols {expected : Dict String Decimal} {positions : Dict String BrokerPosition}
    {sym : String} :
    sym ∈ allSymbols expected positions ↔ sym ∈ expected.keys ∨ sym ∈ positions.keys := by
  rw [allSymbols, List.mem_append, List.mem_filter, decide_eq_true_eq]
  by_cases hkey : sym ∈ expected.keys <;> simp [hkey]

/-- In a symbol the pass does not look at, neither side has anything. -/
theorem qty_of_notMem_allSymbols {expected : Dict String Decimal}
    {positions : Dict String BrokerPosition} {sym : String}
    (h : sym ∉ allSymbols expected positions) :
    ourQty expected sym = 0 ∧ brokerQty positions sym = 0 := by
  rw [mem_allSymbols, not_or, ← Dict.get?_eq_none_iff, ← Dict.get?_eq_none_iff] at h
  rw [ourQty, brokerQty, h.1, h.2]
  exact ⟨rfl, rfl⟩

/-- A symbol in which a pass notes no mismatch: the books agree, or adopting an orphan makes
them agree. -/
theorem checkSymbol_of_no_mismatch {sym : String}
    (h : (checkSymbol cfg expected positions sym).mismatch? = none) :
    (Within cfg (ourQty expected sym) (brokerQty positions sym) (brokerPrice positions sym) ∧
        (checkSymbol cfg expected positions sym).adopted = 0) ∨
      ourQty expected sym + (checkSymbol cfg expected positions sym).adopted =
        brokerQty positions sym := by
  revert h
  unfold checkSymbol
  dsimp only
  split_ifs with hw ho
  · exact fun _ => Or.inl ⟨hw, rfl⟩
  · exact fun _ => Or.inr (by rw [ho.1, zero_add]; rfl)
  · exact fun h => absurd h (Option.some_ne_none _)

/-! ### What a pass leaves behind -/

/-- **The books agree in a symbol**: within tolerance, or to the last share. -/
def InSync (cfg : ReconcilerConfig) (s : Oms) (positions : Dict String BrokerPosition)
    (sym : String) : Prop :=
  Within cfg (ourQty s.computeExpectedPositions sym) (brokerQty positions sym)
      (brokerPrice positions sym) ∨
    ourQty s.computeExpectedPositions sym = brokerQty positions sym

/-- **No mismatch is evidence**: when comparing the positions notes none, the books agree in
every symbol afterwards. -/
theorem inSync_of_no_mismatch {s : Oms} (hs : s.Keyed) (hfresh : FreshGhosts env s)
    (h : ((allSymbols s.computeExpectedPositions positions).foldl
      (compareSymbol cfg env s.computeExpectedPositions positions) (s, [])).2 = [])
    (sym : String) :
    InSync cfg ((allSymbols s.computeExpectedPositions positions).foldl
      (compareSymbol cfg env s.computeExpectedPositions positions) (s, [])).1 positions sym := by
  obtain ⟨hk, hnet⟩ := netQty_compareSymbols cfg env s.computeExpectedPositions positions
    hfresh.injective (nodup_allSymbols _ _) hs (fun sym _ => hfresh.notMem sym) []
  rw [InSync, Oms.ourQty_computeExpectedPositions hk, hnet,
    ← Oms.ourQty_computeExpectedPositions hs]
  by_cases hsym : sym ∈ allSymbols s.computeExpectedPositions positions
  · rw [if_pos hsym]
    rw [mismatches_compareSymbols, List.nil_append, List.filterMap_eq_nil_iff] at h
    rcases checkSymbol_of_no_mismatch cfg _ positions (h sym hsym) with ⟨hw, ha⟩ | heq
    · rw [ha, add_zero]
      exact Or.inl hw
    · exact Or.inr heq
  · obtain ⟨hour, hbroker⟩ := qty_of_notMem_allSymbols hsym
    rw [if_neg hsym, add_zero, hour, hbroker]
    exact Or.inr rfl

/-- Positions that cannot be fetched are not compared. -/
theorem reconcilePositions_of_unfetched (r : Reconciler) (h : env.listPositions = none) :
    reconcilePositions cfg env r = (r, 0, false) := by
  rw [reconcilePositions, h]

/-- **What comparing the positions comes to**: the mismatches are counted, and trip the kill switch
if there is one. -/
theorem reconcilePositions_of_fetched (r : Reconciler) {brokerPositions : List BrokerPosition}
    (h : env.listPositions = some brokerPositions) :
    let positions := positionsBySymbol brokerPositions
    let expected := r.oms.computeExpectedPositions
    let compared := (allSymbols expected positions).foldl (compareSymbol cfg env expected positions)
      (r.oms, [])
    let result := reconcilePositions cfg env r
    result.1.oms = compared.1 ∧
      ((compared.2 = [] ∧ result.2 = (0, false) ∧ result.1.kill = r.kill) ∨
        (compared.2 ≠ [] ∧ result.2 = (compared.2.length, true) ∧
          result.1.kill = r.kill.tripReconciliationBreak)) := by
  dsimp only
  rw [reconcilePositions, h]
  dsimp only
  split
  · rename_i hms
    exact ⟨rfl, Or.inl ⟨hms, rfl, rfl⟩⟩
  · rename_i hms
    exact ⟨rfl, Or.inr ⟨hms, rfl, rfl⟩⟩

/-- What comparing the positions does to the kill switch, and what it then leaves behind. -/
theorem reconcilePositions_cases {r : Reconciler} (hs : r.oms.Keyed)
    (hfresh : FreshGhosts env r.oms) :
    let result := reconcilePositions cfg env r
    (env.listPositions = none ∧ result = (r, 0, false)) ∨
      ∃ positions, env.listPositions = some positions ∧ result.1.oms.Keyed ∧
        (result.2.1 = 0 ∧ result.1.kill = r.kill ∧
            (∀ sym, InSync cfg result.1.oms (positionsBySymbol positions) sym) ∨
          result.2.1 ≠ 0 ∧ result.1.kill.state = .reconciliationBreak) := by
  dsimp only
  cases hfetched : env.listPositions with
  | none => exact Or.inl ⟨rfl, reconcilePositions_of_unfetched cfg env r hfetched⟩
  | some positions =>
    refine Or.inr ⟨positions, rfl, ?_⟩
    obtain ⟨homs, hresult⟩ := reconcilePositions_of_fetched cfg env r hfetched
    obtain ⟨hkeyed, -⟩ := netQty_compareSymbols cfg env r.oms.computeExpectedPositions
      (positionsBySymbol positions) hfresh.injective (nodup_allSymbols _ _) hs
      (fun sym _ => hfresh.notMem sym) []
    rw [homs]
    rcases hresult with ⟨hms, hcount, hkill⟩ | ⟨hms, hcount, hkill⟩
    · rw [hcount, hkill]
      exact ⟨hkeyed, Or.inl ⟨rfl, rfl, inSync_of_no_mismatch cfg env _ hs hfresh hms⟩⟩
    · rw [hcount, hkill]
      exact ⟨hkeyed, Or.inr ⟨fun hc => hms (List.length_eq_zero_iff.mp hc), rfl⟩⟩

@[simp] theorem oms_publishStateChange (r : Reconciler) (tripped : Bool) :
    (publishStateChange cfg r tripped).oms = r.oms := by
  rw [publishStateChange]
  split_ifs <;> rfl

@[simp] theorem kill_publishStateChange (r : Reconciler) (tripped : Bool) :
    (publishStateChange cfg r tripped).kill = r.kill := by
  rw [publishStateChange]
  split_ifs <;> rfl

/-- The reconciler as a pass comes to the positions: the watchdog has run, and the open orders are
polled. -/
def beforePositions (r : Reconciler) : Reconciler :=
  { checkHeartbeat cfg env r with oms := (reconcileOrders env r.oms r.oms.listOpenOrders).1 }

/-- After the positions a pass changes the books no more. -/
theorem oms_of_pass (r : Reconciler) : (reconcileOnce cfg env r).1.oms =
    (reconcilePositions cfg env (beforePositions cfg env r)).1.oms := by
  dsimp only [reconcileOnce]
  rw [oms_publishStateChange]
  split_ifs <;> rfl

/-- After the positions a pass lifts a break, if there was no mismatch. -/
theorem kill_of_pass (r : Reconciler) : (reconcileOnce cfg env r).1.kill =
    let compared := reconcilePositions cfg env (beforePositions cfg env r)
    if compared.2.1 = 0 then compared.1.kill.clearReconciliationBreak else compared.1.kill := by
  dsimp only [reconcileOnce]
  rw [kill_publishStateChange, apply_ite kill]
  rfl

/-- **What a pass does to the kill switch.** A pass that could not fetch the positions runs
the watchdog and clears a break; one that could either leaves the books in agreement and
does the same, or leaves a break. -/
theorem reconcileOnce_cases {r : Reconciler} (hs : r.oms.Keyed) (hfresh : FreshGhosts env r.oms) :
    let r' := (reconcileOnce cfg env r).1
    let watched := r.kill.checkHeartbeat env.ts
    r'.oms.Keyed ∧
      ((env.listPositions = none ∧ r'.kill = watched.clearReconciliationBreak) ∨
        ∃ positions, env.listPositions = some positions ∧
          ((∀ sym, InSync cfg r'.oms (positionsBySymbol positions) sym) ∨
            r'.kill.state = .reconciliationBreak)) := by
  obtain ⟨hs', hkeys⟩ := keyed_reconcileOrders env hs r.oms.listOpenOrders
  have hfresh' : FreshGhosts env (reconcileOrders env r.oms r.oms.listOpenOrders).1 :=
    ⟨fun sym => hkeys ▸ hfresh.notMem sym, hfresh.injective⟩
  dsimp only
  rw [oms_of_pass, kill_of_pass]
  rcases reconcilePositions_cases cfg env (r := beforePositions cfg env r) hs' hfresh' with
    ⟨hnone, heq⟩ | ⟨positions, hsome, hk, ⟨-, -, hsync⟩ | ⟨hne, hstate⟩⟩
  · rw [heq]
    exact ⟨hs', Or.inl ⟨hnone, rfl⟩⟩
  · exact ⟨hk, Or.inr ⟨positions, hsome, Or.inl hsync⟩⟩
  · refine ⟨hk, Or.inr ⟨positions, hsome, Or.inr ?_⟩⟩
    rw [if_neg hne]
    exact hstate

end Reconciler

/-! ### Runs of passes -/

/-- A pass of the reconciler, or something else that happens to the components it works on
between two passes. -/
inductive ReconcilerOp
  | pass (env : ReconcileEnv)
  | oms (op : OmsOp)
  | kill (op : KillSwitchOp)

namespace Reconciler

variable (cfg : ReconcilerConfig)

/-- A reconciler over components that are new. -/
def new (heartbeatTimeoutSecs : ℤ) : Reconciler where
  oms := .empty
  kill := .new heartbeatTimeoutSecs
  lastKillState := .ok
  alertedBreaks := []
  published := []

def step (r : Reconciler) : ReconcilerOp → Reconciler
  | .pass env => (reconcileOnce cfg env r).1
  | .oms op => { r with oms := r.oms.step op }
  | .kill op => { r with kill := r.kill.step op }

/-- The identifiers a pass draws are fresh. -/
def Fresh (r : Reconciler) : ReconcilerOp → Prop
  | .pass env => FreshGhosts env r.oms
  | .oms _ | .kill _ => True

/-- **A pass lifts a break only by evidence.** If it had the broker's positions and lifted a
break, the books agree in every symbol when it ends. If it had not, a switch that was in
another state than a break stays in that state, unless the heartbeat is overdue. -/
def LiftsByEvidence (r : Reconciler) : ReconcilerOp → Prop
  | .pass env =>
    let r' := r.step cfg (.pass env)
    (∀ positions, env.listPositions = some positions →
        r.kill.state = .reconciliationBreak → r'.kill.state ≠ .reconciliationBreak →
        ∀ sym, InSync cfg r'.oms (positionsBySymbol positions) sym) ∧
      (env.listPositions = none → r.kill.state ≠ .reconciliationBreak →
        r'.kill.state =
          if r.kill.heartbeatOverdue env.ts then .heartbeatMissed else r.kill.state)
  | .oms _ | .kill _ => True

variable {cfg}

theorem liftsByEvidence_of_fresh {r : Reconciler} (hs : r.oms.Keyed) {op : ReconcilerOp}
    (hfresh : r.Fresh op) : r.LiftsByEvidence cfg op ∧ (r.step cfg op).oms.Keyed := by
  cases op with
  | oms op =>
    refine ⟨trivial, ?_⟩
    change (r.oms.step op).Keyed
    rw [Oms.step_eq_run]
    exact run_invariant (fun s h hs => hs.handle h) hs _
  | kill op => exact ⟨trivial, hs⟩
  | pass env =>
    obtain ⟨hk, hcases⟩ := reconcileOnce_cases cfg env hs hfresh
    refine ⟨⟨fun positions hsome _ hlifted => ?_, fun hnone hst => ?_⟩, hk⟩
    · rcases hcases with ⟨hnone, -⟩ | ⟨positions', hsome', hsync | hstate⟩
      · rw [hnone] at hsome
        exact absurd hsome.symm (Option.some_ne_none _)
      · obtain rfl : positions' = positions := Option.some.inj (hsome'.symm.trans hsome)
        exact hsync
      · exact absurd hstate hlifted
    · rcases hcases with ⟨-, hkill⟩ | ⟨positions', hsome', -⟩
      · rw [step, hkill, KillSwitchEngine.clearReconciliationBreak,
          KillSwitchEngine.checkHeartbeat]
        by_cases ho : r.kill.heartbeatOverdue env.ts
        · simp [ho]
        · simp [ho, hst]
      · rw [hnone] at hsome'
        exact absurd hsome'.symm (Option.some_ne_none _)

/-- **In every run, every pass lifts a break only by evidence.** -/
theorem break_lifted_by_evidence (heartbeatTimeoutSecs : ℤ) (ops : List ReconcilerOp)
    (hfresh : Along (step cfg) Fresh (new heartbeatTimeoutSecs) ops) :
    Along (step cfg) (LiftsByEvidence cfg) (new heartbeatTimeoutSecs) ops := by
  have hs : (new heartbeatTimeoutSecs).oms.Keyed := Oms.WellFormed.empty.toKeyed
  have hstep : ∀ (r : Reconciler) op, r.oms.Keyed → r.Fresh op →
      r.LiftsByEvidence cfg op ∧ (r.step cfg op).oms.Keyed :=
    fun r op hs hop => liftsByEvidence_of_fresh hs hop
  exact hfresh.imp_of_invariant hstep hs

/-- A broker that answers about positions only. -/
def positionsEnv (listPositions : Option (List BrokerPosition)) (ts : Time) : ReconcileEnv where
  getOrder _ := none
  listPositions := listPositions
  fillId _ := 0
  ghostIds sym := ⟨Encodable.encode (sym.toList.map Char.toNat), 0, 0⟩
  ts := ts

/-- Ten shares the order management system has no record of. -/
def orphanPosition : BrokerPosition where
  symbol := "AAPL"
  qty := 10
  avgEntryPrice := 100
  currentPrice := 100
  assetClass := .equity

/-- A break, and a pass that finds a position nobody has a record of. -/
def adoptingRun : List ReconcilerOp :=
  [.kill .tripReconciliationBreak, .pass (positionsEnv (some [orphanPosition]) 0)]

/-- The run adopts it: the break is lifted, and the books agree. -/
theorem liftsByEvidence_adoptingRun :
    Along (step {}) (LiftsByEvidence {}) (new 120) adoptingRun := by
  refine break_lifted_by_evidence 120 adoptingRun ⟨trivial, ⟨fun sym hc => ?_, ?_⟩, trivial⟩
  · simp [step, new, Oms.empty, Book.empty, Dict.keys, Dict.empty] at hc
  · intro sym sym' h
    have hchar : Function.Injective Char.toNat := fun c c' hc => Char.toNat_inj.mp hc
    have hmap := Encodable.encode_injective h
    exact String.toList_injective (List.map_injective_iff.mpr hchar hmap)

/-- **Lifted with a symbol out of tolerance**: that pass finds ten shares on one side and
none on the other, and lifts the break. And a pass that has no positions to compare does
not leave the switch alone if the heartbeat is overdue. -/
theorem break_lifted_out_of_tolerance :
    let r := (new 120).step {} (.kill .tripReconciliationBreak)
    let beating := (new 120).step {} (.kill (.recordHeartbeat 0))
    (r.kill.state = .reconciliationBreak ∧
        (r.step {} (.pass (positionsEnv (some [orphanPosition]) 0))).kill.state = .ok ∧
        ¬Within {} (ourQty r.oms.computeExpectedPositions "AAPL")
          (brokerQty (positionsBySymbol [orphanPosition]) "AAPL")
          (brokerPrice (positionsBySymbol [orphanPosition]) "AAPL")) ∧
      beating.kill.state = .ok ∧
      (beating.step {} (.pass (positionsEnv none (121 * microsPerSecond)))).kill.state =
        .heartbeatMissed := by
  decide +kernel

end Reconciler

end TradingPlatform
