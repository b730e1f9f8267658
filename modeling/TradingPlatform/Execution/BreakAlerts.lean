import TradingPlatform.Execution.ReconcilePass

/-!
# One alert for each break

A pass of the reconciler that finds the books apart in a symbol announces it once: it remembers
the symbols it has announced, for as long as they are apart. Who is announced when several symbols
are apart depends on the order in which a set of symbols comes, and on adoptions that raise. The
pass is modelled here with both; without them it is the pass of before
(`TradingPlatform.Reconciler.reconcilePositionsRaising_eq`).

Two things keep a symbol from being announced. The pass looks at the first five symbols that are
apart, and takes the announced ones away then, so five symbols that stay apart hide the others. And
a symbol whose adoption failed is apart without details: when its turn comes, the pass stops
announcing. So in an outage a symbol is announced exactly once if a pass gets to it at all, and
otherwise never (`TradingPlatform.Reconciler.alertsFor_outage_iff`).
-/

namespace TradingPlatform

/-- What a pass gets from outside, with what the source leaves open. -/
structure PassEnv extends ReconcileEnv where
  /-- The order in which a set of symbols comes. -/
  setOrder : List String → List String
  setOrder_perm : ∀ symbols, (setOrder symbols).Perm symbols
  /-- The symbols whose adoption raises. -/
  adoptionRaises : String → Bool

/-- What comparing the positions shows. -/
structure Comparison where
  oms : Oms
  mismatches : List String
  mismatchDetails : Dict String PositionMismatch

namespace Reconciler

/-- Compare one symbol: adopt an orphan, note a mismatch or a failed adoption. -/
def compareSymbolRaising (cfg : ReconcilerConfig) (env : PassEnv) (expected : Dict String Decimal)
    (positions : Dict String BrokerPosition) (c : Comparison) (sym : String) : Comparison :=
  match checkSymbol cfg expected positions sym with
  | .agrees => c
  | .orphan qty price =>
    if env.adoptionRaises sym then { c with mismatches := c.mismatches ++ [sym] }
    else { c with oms := c.oms.adoptOrphanPosition (env.ghostIds sym) sym qty price
                    cfg.orphanAgentId env.ts }
  | .mismatch details =>
    { c with
      mismatches := c.mismatches ++ [sym]
      mismatchDetails := c.mismatchDetails.set sym details }

/-- Compare all symbols, unless the positions cannot be fetched. -/
def comparison (cfg : ReconcilerConfig) (env : PassEnv) (s : Oms) : Option Comparison :=
  env.listPositions.map fun brokerPositions =>
    let expected := s.computeExpectedPositions
    let positions := positionsBySymbol brokerPositions
    (env.setOrder (allSymbols expected positions)).foldl
      (compareSymbolRaising cfg env expected positions) ⟨s, [], .empty⟩

/-- Announce one symbol after the other. One without details is a `KeyError`, which is caught
around the loop. -/
def publishBreaks (details : Dict String PositionMismatch) (r : Reconciler) :
    List String → Reconciler
  | [] => r
  | sym :: symbols =>
    match details.get? sym with
    | none => r
    | some m =>
      publishBreaks details
        { r with
          alertedBreaks := r.alertedBreaks ++ [sym]
          published := r.published ++
            [.reconciliationBreak sym m.localQty m.brokerQty m.deltaUsd] } symbols

/-- Compare all positions, and announce the new breaks. -/
def reconcilePositionsRaising (cfg : ReconcilerConfig) (env : PassEnv) (r : Reconciler) :
    Reconciler × ℕ × Bool :=
  match comparison cfg env r.oms with
  | none => (r, 0, false)
  | some c =>
    let alerted := r.alertedBreaks.filter (· ∈ c.mismatches)
    if c.mismatches = [] then ({ r with oms := c.oms, alertedBreaks := alerted }, 0, false)
    else
      let newBreaks := (c.mismatches.take 5).filter (· ∉ alerted)
      let r := { r with
        oms := c.oms
        kill := r.kill.tripReconciliationBreak
        alertedBreaks := alerted }
      (if cfg.hasBus then publishBreaks c.mismatchDetails r newBreaks else r,
        c.mismatches.length, true)

/-- One pass. -/
def reconcileOnceRaising (cfg : ReconcilerConfig) (env : PassEnv) (r : Reconciler) :
    Reconciler × ReconcileResult :=
  let r := checkHeartbeat cfg env.toReconcileEnv r
  let openOrders := r.oms.listOpenOrders
  let (oms, ordersUpdated) := reconcileOrders env.toReconcileEnv r.oms openOrders
  let (r, mismatches, tripped) := reconcilePositionsRaising cfg env { r with oms := oms }
  let r := if mismatches = 0 then { r with kill := r.kill.clearReconciliationBreak } else r
  (publishStateChange cfg r tripped,
    { ordersChecked := openOrders.length, ordersUpdated := ordersUpdated,
      positionMismatches := mismatches, killSwitchTripped := tripped })

/-! ### Passes without surprises -/

section Plain

variable {cfg : ReconcilerConfig} {env : PassEnv} {expected : Dict String Decimal}
  {positions : Dict String BrokerPosition}

theorem symbol_of_checkSymbol {sym : String} {m : PositionMismatch}
    (h : checkSymbol cfg expected positions sym = .mismatch m) : m.symbol = sym := by
  unfold checkSymbol at h
  dsimp only at h
  split_ifs at h
  cases h
  rfl

/-- A comparison with the mismatches of another. -/
structure Refines (c : Comparison) (acc : Oms × List PositionMismatch) : Prop where
  oms : c.oms = acc.1
  mismatches : c.mismatches = acc.2.map (·.symbol)
  details : ∀ m ∈ acc.2, c.mismatchDetails.get? m.symbol = some m

theorem Refines.compareSymbol (hraises : ∀ sym, env.adoptionRaises sym = false) {c : Comparison}
    {acc : Oms × List PositionMismatch} (h : Refines c acc) {sym : String}
    (hsym : sym ∉ c.mismatches) :
    Refines (compareSymbolRaising cfg env expected positions c sym)
      (Reconciler.compareSymbol cfg env.toReconcileEnv expected positions acc sym) := by
  unfold compareSymbolRaising Reconciler.compareSymbol
  cases hcheck : checkSymbol cfg expected positions sym with
  | agrees => exact h
  | orphan qty price =>
    dsimp only
    rw [hraises, if_neg Bool.false_ne_true]
    exact ⟨congrArg (Oms.adoptOrphanPosition · _ _ _ _ _ _) h.oms, h.mismatches, h.details⟩
  | mismatch m =>
    have hm : m.symbol = sym := symbol_of_checkSymbol hcheck
    refine ⟨h.oms, ?_, fun m' hm' => ?_⟩
    · dsimp only
      rw [h.mismatches, List.map_append, List.map_singleton, hm]
    · rcases List.mem_append.mp hm' with hold | hlast
      · -- the symbol is compared once, so it overwrites no details
        have hne : m'.symbol ≠ sym := by
          rintro rfl
          exact hsym (h.mismatches ▸ List.mem_map_of_mem hold)
        exact (Dict.get?_set_of_ne _ hne _).trans (h.details m' hold)
      · obtain rfl := List.mem_singleton.mp hlast
        rw [hm]
        exact Dict.get?_set_self _ _ _

/-- Comparing a symbol notes no other. -/
theorem mismatches_compareSymbolRaising (c : Comparison) (sym : String) :
    (compareSymbolRaising cfg env expected positions c sym).mismatches = c.mismatches ∨
      (compareSymbolRaising cfg env expected positions c sym).mismatches =
        c.mismatches ++ [sym] := by
  unfold compareSymbolRaising
  cases checkSymbol cfg expected positions sym with
  | agrees => exact Or.inl rfl
  | orphan qty price =>
    dsimp only
    split_ifs
    · exact Or.inr rfl
    · exact Or.inl rfl
  | mismatch m => exact Or.inr rfl

theorem Refines.compareSymbols (hraises : ∀ sym, env.adoptionRaises sym = false)
    {symbols : List String} (hnd : symbols.Nodup) {c : Comparison}
    {acc : Oms × List PositionMismatch} (h : Refines c acc)
    (hnew : ∀ sym ∈ symbols, sym ∉ c.mismatches) :
    Refines (symbols.foldl (compareSymbolRaising cfg env expected positions) c)
      (symbols.foldl (Reconciler.compareSymbol cfg env.toReconcileEnv expected positions)
        acc) := by
  induction symbols generalizing c acc with
  | nil => exact h
  | cons sym symbols ih =>
    obtain ⟨hsym, hnd'⟩ := List.nodup_cons.mp hnd
    refine ih hnd' (h.compareSymbol hraises (hnew sym List.mem_cons_self)) fun other ho hmem => ?_
    have hold := hnew other (List.mem_cons_of_mem _ ho)
    rcases @mismatches_compareSymbolRaising cfg env expected positions c sym with heq | heq
    · exact hold (heq ▸ hmem)
    · rcases List.mem_append.mp (heq ▸ hmem) with hmem | hmem
      · exact hold hmem
      · exact hsym (List.mem_singleton.mp hmem ▸ ho)

/-- Announcing symbols with their details. -/
theorem publishBreaks_map {details : Dict String PositionMismatch} {ms : List PositionMismatch}
    (h : ∀ m ∈ ms, details.get? m.symbol = some m) (r : Reconciler) :
    publishBreaks details r (ms.map (·.symbol)) =
      { r with
        alertedBreaks := r.alertedBreaks ++ ms.map (·.symbol)
        published := r.published ++ ms.map fun m =>
          .reconciliationBreak m.symbol m.localQty m.brokerQty m.deltaUsd } := by
  induction ms generalizing r with
  | nil => simp [publishBreaks]
  | cons m ms ih =>
    rw [List.map_cons, publishBreaks, h m List.mem_cons_self]
    dsimp only
    rw [ih fun m' hm' => h m' (List.mem_cons_of_mem _ hm')]
    simp

/-- **Without surprises the two models of a pass agree.** -/
theorem reconcilePositionsRaising_eq (hraises : ∀ sym, env.adoptionRaises sym = false)
    (horder : ∀ symbols, env.setOrder symbols = symbols) (r : Reconciler) :
    reconcilePositionsRaising cfg env r = reconcilePositions cfg env.toReconcileEnv r := by
  rw [reconcilePositionsRaising, reconcilePositions, comparison]
  rcases env.listPositions with _ | brokerPositions
  · rfl
  rw [Option.map_some]
  dsimp only
  rw [horder]
  have h : Refines ⟨r.oms, [], .empty⟩ (r.oms, []) :=
    ⟨rfl, rfl, fun m hm => absurd hm List.not_mem_nil⟩
  generalize r.oms.computeExpectedPositions = expected
  generalize positionsBySymbol brokerPositions = positions
  have hc : Refines
      ((allSymbols expected positions).foldl (compareSymbolRaising cfg env expected positions)
        ⟨r.oms, [], .empty⟩)
      ((allSymbols expected positions).foldl
        (compareSymbol cfg env.toReconcileEnv expected positions) (r.oms, [])) :=
    h.compareSymbols hraises (nodup_allSymbols _ _) fun _ _ => List.not_mem_nil
  revert hc
  generalize (allSymbols expected positions).foldl
    (compareSymbolRaising cfg env expected positions) ⟨r.oms, [], .empty⟩ = c
  generalize (allSymbols expected positions).foldl
    (compareSymbol cfg env.toReconcileEnv expected positions) (r.oms, []) = acc
  intro hc
  obtain ⟨oms, ms⟩ := acc
  obtain ⟨homs, hms, hdetails⟩ := hc
  rw [homs, hms, List.length_map]
  dsimp only
  by_cases hempty : ms = []
  · rw [if_pos (List.map_eq_nil_iff.mpr hempty), if_pos hempty]
  · rw [if_neg (mt List.map_eq_nil_iff.mp hempty), if_neg hempty]
    by_cases hbus : cfg.hasBus = true
    · rw [if_pos hbus, if_pos hbus, if_pos hbus, ← List.map_take, List.filter_map,
        publishBreaks_map fun m hm => hdetails m
          (List.mem_of_mem_take (List.mem_of_mem_filter hm))]
      rfl
    · rw [if_neg hbus, if_neg hbus, if_neg hbus, List.append_nil]

end Plain

end Reconciler

/-! ### What a pass announces -/

/-- The symbol a break is announced for. -/
def ReconcilerEvent.breakSymbol? : ReconcilerEvent → Option String
  | .reconciliationBreak symbol .. => some symbol
  | .heartbeatMissed | .killSwitchReset | .killSwitchTripped .. => none

namespace Reconciler

/-- The symbols that were announced, oldest first. -/
def announced (r : Reconciler) : List String := r.published.filterMap (·.breakSymbol?)

/-- The symbols a pass gets to announce: the new ones among the first five, up to the first that
has no details. -/
def newAlerts (alerted : List String) (c : Comparison) : List String :=
  ((c.mismatches.take 5).filter (· ∉ alerted)).takeWhile fun sym =>
    (c.mismatchDetails.get? sym).isSome

/-- A pass, and the books and the kill switch it finds. Anything may have happened to them since
the pass before. -/
structure Pass where
  books : Oms
  kill : KillSwitchEngine
  env : PassEnv

/-- What the pass sees when it compares the positions, if it can. -/
def Pass.comparison (cfg : ReconcilerConfig) (p : Pass) : Option Comparison :=
  Reconciler.comparison cfg p.env
    (reconcileOrders p.env.toReconcileEnv p.books p.books.listOpenOrders).1

/-- The reconciler after a pass. -/
def afterPass (cfg : ReconcilerConfig) (r : Reconciler) (p : Pass) : Reconciler :=
  (reconcileOnceRaising cfg p.env { r with oms := p.books, kill := p.kill }).1

variable {cfg : ReconcilerConfig} {r : Reconciler} {p : Pass} {c : Comparison} {sym : String}

theorem announced_checkHeartbeat (env : ReconcileEnv) :
    (checkHeartbeat cfg env r).announced = r.announced := by
  rw [announced, checkHeartbeat]
  dsimp only
  rw [List.filterMap_append]
  split_ifs <;> exact List.append_nil _

/-- Forwarding a change of the kill switch announces nothing. -/
theorem alerts_publishStateChange (tripped : Bool) :
    (publishStateChange cfg r tripped).alertedBreaks = r.alertedBreaks ∧
      (publishStateChange cfg r tripped).announced = r.announced := by
  unfold publishStateChange
  by_cases hchange : cfg.hasBus ∧ r.kill.state ≠ r.lastKillState
  · rw [if_pos hchange]
    refine ⟨rfl, ?_⟩
    rw [announced]
    dsimp only
    rw [List.filterMap_append]
    split_ifs <;> exact List.append_nil _
  · rw [if_neg hchange]
    exact ⟨rfl, rfl⟩

/-- **What announcing leaves**: the symbols up to the first without details are announced, and
remembered. -/
theorem alerts_publishBreaks (details : Dict String PositionMismatch) (symbols : List String) :
    let new := symbols.takeWhile fun sym => (details.get? sym).isSome
    (publishBreaks details r symbols).alertedBreaks = r.alertedBreaks ++ new ∧
      (publishBreaks details r symbols).announced = r.announced ++ new := by
  induction symbols generalizing r with
  | nil => exact ⟨(List.append_nil _).symm, (List.append_nil _).symm⟩
  | cons sym symbols ih =>
    dsimp only
    rw [publishBreaks, List.takeWhile_cons]
    rcases hdetails : details.get? sym with _ | m
    · exact ⟨(List.append_nil _).symm, (List.append_nil _).symm⟩
    · obtain ⟨halerted, hannounced⟩ := ih (r := { r with
        alertedBreaks := r.alertedBreaks ++ [sym]
        published := r.published ++
          [.reconciliationBreak sym m.localQty m.brokerQty m.deltaUsd] })
      refine ⟨halerted.trans (List.append_assoc _ _ _), hannounced.trans ?_⟩
      rw [announced]
      dsimp only
      rw [List.filterMap_append]
      exact List.append_assoc _ _ _

/-- The books a pass compares, with the alerts and the switch as they are then. -/
def beforeComparison (cfg : ReconcilerConfig) (r : Reconciler) (p : Pass) : Reconciler :=
  { checkHeartbeat cfg p.env.toReconcileEnv { r with oms := p.books, kill := p.kill } with
    oms := (reconcileOrders p.env.toReconcileEnv p.books p.books.listOpenOrders).1 }

/-- Only the comparison of the positions touches the alerts. -/
theorem alerts_afterPass_eq (cfg : ReconcilerConfig) (r : Reconciler) (p : Pass) :
    let r' := (reconcilePositionsRaising cfg p.env (beforeComparison cfg r p)).1
    (afterPass cfg r p).alertedBreaks = r'.alertedBreaks ∧
      (afterPass cfg r p).announced = r'.announced := by
  dsimp only
  generalize hresult : reconcilePositionsRaising cfg p.env (beforeComparison cfg r p) = result
  have hpass : afterPass cfg r p = publishStateChange cfg
      (if result.2.1 = 0
        then { result.1 with kill := result.1.kill.clearReconciliationBreak }
        else result.1) result.2.2 := by
    rw [← hresult]
    rfl
  rw [hpass, (alerts_publishStateChange _).1, (alerts_publishStateChange _).2]
  split_ifs <;> exact ⟨rfl, rfl⟩

/-- A pass that cannot fetch the positions leaves the alerts alone. -/
theorem alerts_afterPass_of_none (hcomp : p.comparison cfg = none) :
    (afterPass cfg r p).alertedBreaks = r.alertedBreaks ∧
      (afterPass cfg r p).announced = r.announced := by
  have hcomp' : Reconciler.comparison cfg p.env (beforeComparison cfg r p).oms = none := hcomp
  obtain ⟨halerted, hannounced⟩ := alerts_afterPass_eq cfg r p
  rw [halerted, hannounced, reconcilePositionsRaising, hcomp']
  exact ⟨rfl, announced_checkHeartbeat _⟩

/-- **What a pass that compares the positions does to the alerts.** -/
theorem alerts_afterPass (hbus : cfg.hasBus = true) (hcomp : p.comparison cfg = some c) :
    let kept := r.alertedBreaks.filter (· ∈ c.mismatches)
    (afterPass cfg r p).alertedBreaks = kept ++ newAlerts kept c ∧
      (afterPass cfg r p).announced = r.announced ++ newAlerts kept c := by
  have hcomp' : Reconciler.comparison cfg p.env (beforeComparison cfg r p).oms = some c := hcomp
  have hbefore : (beforeComparison cfg r p).announced = r.announced := announced_checkHeartbeat _
  obtain ⟨halerted, hannounced⟩ := alerts_afterPass_eq cfg r p
  dsimp only
  rw [halerted, hannounced, reconcilePositionsRaising, hcomp']
  dsimp only
  by_cases hempty : c.mismatches = []
  · have hnone : newAlerts (r.alertedBreaks.filter (· ∈ c.mismatches)) c = [] := by
      rw [newAlerts, hempty]
      rfl
    rw [if_pos hempty, hnone, List.append_nil, List.append_nil]
    exact ⟨rfl, hbefore⟩
  · rw [if_neg hempty, if_pos hbus]
    obtain ⟨halerted', hannounced'⟩ := alerts_publishBreaks c.mismatchDetails _
    exact ⟨halerted', hannounced'.trans (congrArg (· ++ _) hbefore)⟩

/-- The symbols that are apart are symbols of the pass, each once. -/
theorem exists_mismatches (cfg : ReconcilerConfig) (env : PassEnv)
    (expected : Dict String Decimal) (positions : Dict String BrokerPosition)
    (symbols : List String) (c : Comparison) :
    ∃ new, new.Sublist symbols ∧
      (symbols.foldl (compareSymbolRaising cfg env expected positions) c).mismatches =
        c.mismatches ++ new := by
  induction symbols generalizing c with
  | nil => exact ⟨[], List.Sublist.refl [], (List.append_nil _).symm⟩
  | cons sym symbols ih =>
    obtain ⟨new, hsub, hnew⟩ := ih (compareSymbolRaising cfg env expected positions c sym)
    rw [List.foldl_cons, hnew]
    rcases @mismatches_compareSymbolRaising cfg env expected positions c sym with heq | heq
    · exact ⟨new, hsub.cons sym, by rw [heq]⟩
    · exact ⟨sym :: new, hsub.cons_cons sym, by rw [heq, List.append_assoc]; rfl⟩

theorem nodup_mismatches (hcomp : p.comparison cfg = some c) : c.mismatches.Nodup := by
  obtain ⟨brokerPositions, -, rfl⟩ := Option.map_eq_some_iff.mp hcomp
  obtain ⟨new, hsub, hnew⟩ := exists_mismatches cfg p.env _ _ (p.env.setOrder _)
    ⟨(reconcileOrders p.env.toReconcileEnv p.books p.books.listOpenOrders).1, [], .empty⟩
  rw [hnew]
  exact ((p.env.setOrder_perm _).nodup_iff.mpr (nodup_allSymbols _ _)).sublist hsub

/-- The details of a comparison are those of its mismatches, and a failed adoption has none. -/
theorem get?_mismatchDetails (cfg : ReconcilerConfig) (env : PassEnv)
    (expected : Dict String Decimal) (positions : Dict String BrokerPosition)
    (symbols : List String) {c : Comparison}
    (h : ∀ sym, c.mismatchDetails.get? sym =
      if sym ∈ c.mismatches then (checkSymbol cfg expected positions sym).mismatch? else none) :
    let c' := symbols.foldl (compareSymbolRaising cfg env expected positions) c
    ∀ sym, c'.mismatchDetails.get? sym =
      if sym ∈ c'.mismatches then (checkSymbol cfg expected positions sym).mismatch? else none := by
  induction symbols generalizing c with
  | nil => exact h
  | cons sym symbols ih =>
    refine ih fun other => ?_
    unfold compareSymbolRaising
    cases hcheck : checkSymbol cfg expected positions sym with
    | agrees => exact h other
    | orphan qty price =>
      dsimp only
      split_ifs with hraises hmem hmem
      · -- an adoption that fails notes a mismatch, and no details of it
        rw [h other]
        rcases List.mem_append.mp hmem with hmem | hmem
        · rw [if_pos hmem]
        · obtain rfl := List.mem_singleton.mp hmem
          rw [hcheck]
          split_ifs <;> rfl
      · rw [h other, if_neg fun hc => hmem (List.mem_append_left _ hc)]
      · rw [h other, if_pos hmem]
      · rw [h other, if_neg hmem]
    | mismatch m =>
      dsimp only
      by_cases hsym : other = sym
      · subst hsym
        rw [Dict.get?_set_self, hcheck, if_pos (by simp)]
        rfl
      · rw [Dict.get?_set_of_ne _ hsym, h other]
        simp [hsym]

/-- **A symbol that is apart has details exactly if it is a mismatch**: an orphan that could not be
adopted has none. -/
theorem isSome_details_iff (hcomp : p.comparison cfg = some c) :
    ∃ brokerPositions, p.env.listPositions = some brokerPositions ∧ ∀ sym ∈ c.mismatches,
      ((c.mismatchDetails.get? sym).isSome ↔ ∃ m, checkSymbol cfg
        (reconcileOrders p.env.toReconcileEnv p.books
          p.books.listOpenOrders).1.computeExpectedPositions
        (positionsBySymbol brokerPositions) sym = .mismatch m) := by
  obtain ⟨brokerPositions, hpositions, rfl⟩ := Option.map_eq_some_iff.mp hcomp
  refine ⟨brokerPositions, hpositions, fun sym hsym => ?_⟩
  rw [get?_mismatchDetails cfg p.env _ _ _ (fun _ => rfl), if_pos hsym]
  cases hcheck : checkSymbol cfg _ (positionsBySymbol brokerPositions) sym with
  | mismatch m => exact iff_of_true rfl ⟨m, rfl⟩
  | agrees | orphan => exact iff_of_false Bool.false_ne_true (by rintro ⟨_, ⟨⟩⟩)

/-- **A pass gets to a symbol**: it is among the first five that are apart, it has details, and so
has every symbol before it that was not announced yet. -/
def GetsTo (cfg : ReconcilerConfig) (sym : String) (r : Reconciler) (p : Pass) : Prop :=
  ∃ c, p.comparison cfg = some c ∧ (c.mismatchDetails.get? sym).isSome ∧
    ∃ before after, c.mismatches.take 5 = before ++ sym :: after ∧
      ∀ other ∈ before, other ∈ r.alertedBreaks ∨ (c.mismatchDetails.get? other).isSome

/-- What is left of the part of a filtered list before the first element that fails a test. -/
theorem mem_takeWhile_filter_iff {α : Type} {test keep : α → Bool} {l : List α} {a : α} :
    a ∈ (l.filter keep).takeWhile test ↔ keep a ∧ test a ∧
      ∃ before after, l = before ++ a :: after ∧ ∀ b ∈ before, keep b → test b := by
  induction l with
  | nil =>
    refine iff_of_false List.not_mem_nil ?_
    rintro ⟨-, -, before, after, h, -⟩
    exact List.cons_ne_nil _ _ (List.append_eq_nil_iff.mp h.symm).2
  | cons b l ih =>
    -- the list is split at its head, or further on behind a head that passes the test
    have hsplit : (∃ before after, b :: l = before ++ a :: after ∧
          ∀ b' ∈ before, keep b' → test b') ↔
        b = a ∨ (keep b → test b) ∧ ∃ before after, l = before ++ a :: after ∧
          ∀ b' ∈ before, keep b' → test b' := by
      constructor
      · rintro ⟨before, after, h, hbefore⟩
        rcases before with _ | ⟨b', before⟩
        · exact Or.inl (List.cons.inj h).1
        · obtain ⟨rfl, rfl⟩ := List.cons.inj h
          exact Or.inr ⟨hbefore b List.mem_cons_self, before, after, rfl,
            fun b' hb' => hbefore b' (List.mem_cons_of_mem _ hb')⟩
      · rintro (rfl | ⟨hb, before, after, rfl, hbefore⟩)
        · exact ⟨[], l, rfl, fun _ h => absurd h List.not_mem_nil⟩
        · refine ⟨b :: before, after, rfl, fun b' hb' => ?_⟩
          rcases List.mem_cons.mp hb' with rfl | hb'
          · exact hb
          · exact hbefore b' hb'
    rw [hsplit, List.filter_cons]
    by_cases hkeep : keep b
    · rw [if_pos hkeep, List.takeWhile_cons]
      by_cases htest : test b
      · rw [if_pos htest, List.mem_cons, ih]
        constructor
        · rintro (rfl | ⟨ha, ht, h⟩)
          · exact ⟨hkeep, htest, Or.inl rfl⟩
          · exact ⟨ha, ht, Or.inr ⟨fun _ => htest, h⟩⟩
        · rintro ⟨ha, ht, rfl | ⟨-, h⟩⟩
          · exact Or.inl rfl
          · exact Or.inr ⟨ha, ht, h⟩
      · rw [if_neg htest]
        refine iff_of_false List.not_mem_nil ?_
        rintro ⟨-, ht, rfl | ⟨hb, -⟩⟩
        · exact htest ht
        · exact htest (hb hkeep)
    · rw [if_neg hkeep, ih]
      constructor
      · rintro ⟨ha, ht, h⟩
        exact ⟨ha, ht, Or.inr ⟨fun hc => absurd hc hkeep, h⟩⟩
      · rintro ⟨ha, ht, rfl | ⟨-, h⟩⟩
        · exact absurd ha hkeep
        · exact ⟨ha, ht, h⟩

/-- A symbol that is apart and not announced yet is announced by a pass that gets to it. -/
theorem mem_newAlerts_iff (hcomp : p.comparison cfg = some c) (hapart : sym ∈ c.mismatches)
    (hnew : sym ∉ r.alertedBreaks) :
    sym ∈ newAlerts (r.alertedBreaks.filter (· ∈ c.mismatches)) c ↔ GetsTo cfg sym r p := by
  have hkept : ∀ other ∈ c.mismatches, other ∈ r.alertedBreaks.filter (· ∈ c.mismatches) ↔
      other ∈ r.alertedBreaks := by
    intro other ho
    rw [List.mem_filter, decide_eq_true_eq, and_iff_left ho]
  rw [newAlerts, mem_takeWhile_filter_iff, GetsTo]
  constructor
  · rintro ⟨-, hdetails, before, after, hsplit, hbefore⟩
    refine ⟨c, hcomp, hdetails, before, after, hsplit, fun other ho => ?_⟩
    have hmem : other ∈ c.mismatches :=
      List.mem_of_mem_take (hsplit ▸ List.mem_append_left _ ho : other ∈ c.mismatches.take 5)
    by_cases halerted : other ∈ r.alertedBreaks
    · exact Or.inl halerted
    · exact Or.inr (hbefore other ho (decide_eq_true (mt (hkept other hmem).mp halerted)))
  · rintro ⟨c', hcomp', hdetails, before, after, hsplit, hbefore⟩
    obtain rfl := Option.some.inj (hcomp.symm.trans hcomp')
    refine ⟨decide_eq_true (mt (hkept sym hapart).mp hnew), hdetails, before, after, hsplit,
      fun other ho hkeep => ?_⟩
    have hmem : other ∈ c.mismatches :=
      List.mem_of_mem_take (hsplit ▸ List.mem_append_left _ ho : other ∈ c.mismatches.take 5)
    exact (hbefore other ho).resolve_left
      (mt (hkept other hmem).mpr (of_decide_eq_true hkeep))

/-! ### Outages -/

/-- How often a symbol was announced. -/
def alertsFor (sym : String) (r : Reconciler) : ℕ := r.announced.count sym

/-- A pass in which the symbol is not apart forgets it, and announces it not. -/
theorem alerts_of_healed (hbus : cfg.hasBus = true) (hcomp : p.comparison cfg = some c)
    (hsym : sym ∉ c.mismatches) :
    sym ∉ (afterPass cfg r p).alertedBreaks := by
  rw [(alerts_afterPass hbus hcomp).1, List.mem_append, not_or]
  refine ⟨fun h => hsym (of_decide_eq_true (List.mem_filter.mp h).2), fun h => hsym ?_⟩
  exact List.mem_of_mem_take (List.mem_of_mem_filter ((List.takeWhile_sublist _).subset h))

/-- A symbol that is apart and was announced stays so, and is not announced again. -/
theorem alerts_of_announced (hbus : cfg.hasBus = true)
    (hapart : ∀ c ∈ p.comparison cfg, sym ∈ c.mismatches) (hsym : sym ∈ r.alertedBreaks) :
    sym ∈ (afterPass cfg r p).alertedBreaks ∧
      alertsFor sym (afterPass cfg r p) = alertsFor sym r := by
  rcases hcomp : p.comparison cfg with _ | c
  · obtain ⟨halerted, hannounced⟩ := alerts_afterPass_of_none (r := r) hcomp
    rw [alertsFor, halerted, hannounced]
    exact ⟨hsym, rfl⟩
  · obtain ⟨halerted, hannounced⟩ := alerts_afterPass (r := r) hbus hcomp
    have hkept : sym ∈ r.alertedBreaks.filter (· ∈ c.mismatches) :=
      List.mem_filter.mpr ⟨hsym, decide_eq_true (hapart c hcomp)⟩
    have hnot : sym ∉ newAlerts (r.alertedBreaks.filter (· ∈ c.mismatches)) c := fun h =>
      of_decide_eq_true (List.mem_filter.mp ((List.takeWhile_sublist _).subset h)).2 hkept
    rw [alertsFor, halerted, hannounced, List.count_append, List.count_eq_zero_of_not_mem hnot]
    exact ⟨List.mem_append_left _ hkept, rfl⟩

/-- A symbol that is apart and was not announced is announced by a pass that gets to it, and by no
other. -/
theorem alerts_of_new (hbus : cfg.hasBus = true)
    (hapart : ∀ c ∈ p.comparison cfg, sym ∈ c.mismatches) (hsym : sym ∉ r.alertedBreaks) :
    (GetsTo cfg sym r p → sym ∈ (afterPass cfg r p).alertedBreaks ∧
      alertsFor sym (afterPass cfg r p) = alertsFor sym r + 1) ∧
    (¬GetsTo cfg sym r p → sym ∉ (afterPass cfg r p).alertedBreaks ∧
      alertsFor sym (afterPass cfg r p) = alertsFor sym r) := by
  rcases hcomp : p.comparison cfg with _ | c
  · -- the broker could not be asked, and nothing is announced or forgotten
    obtain ⟨halerted, hannounced⟩ := alerts_afterPass_of_none (r := r) hcomp
    rw [alertsFor, halerted, hannounced]
    refine ⟨?_, fun _ => ⟨hsym, rfl⟩⟩
    rintro ⟨c, hc, -⟩
    exact absurd (hcomp.symm.trans hc) (Option.some_ne_none c).symm
  · obtain ⟨halerted, hannounced⟩ := alerts_afterPass (r := r) hbus hcomp
    have hnew := mem_newAlerts_iff hcomp (hapart c hcomp) hsym
    have hnd : (newAlerts (r.alertedBreaks.filter (· ∈ c.mismatches)) c).Nodup :=
      (nodup_mismatches hcomp).sublist ((List.takeWhile_sublist _).trans
        (List.filter_sublist.trans (List.take_sublist _ _)))
    rw [alertsFor, halerted, hannounced, List.count_append]
    refine ⟨fun h => ⟨List.mem_append_right _ (hnew.mpr h), ?_⟩, fun h => ⟨?_, ?_⟩⟩
    · rw [List.count_eq_one_of_mem hnd (hnew.mpr h)]
      rfl
    · rw [List.mem_append, not_or]
      exact ⟨fun hc => hsym (List.mem_of_mem_filter hc), mt hnew.mp h⟩
    · rw [List.count_eq_zero_of_not_mem (mt hnew.mp h)]
      rfl

/-- The symbols that were apart, in each comparison of some passes. -/
def seen (cfg : ReconcilerConfig) (passes : List Pass) : List (List String) :=
  passes.filterMap fun p => (p.comparison cfg).map (·.mismatches)

/-- **An outage of a symbol** among the passes of a process: it is apart in every comparison of the
outage, of which there is one, and in neither the last comparison before nor the first after. -/
structure Outage (cfg : ReconcilerConfig) (sym : String) (pre mid post : List Pass) : Prop where
  begins : ∀ symbols ∈ (seen cfg pre).getLast?, sym ∉ symbols
  apart : ∀ symbols ∈ seen cfg mid, sym ∈ symbols
  nonempty : seen cfg mid ≠ []
  ends : ∀ symbols ∈ (seen cfg post).head?, sym ∉ symbols

theorem apart_of_seen {passes : List Pass} (h : ∀ symbols ∈ seen cfg passes, sym ∈ symbols)
    (hp : p ∈ passes) : ∀ c ∈ p.comparison cfg, sym ∈ c.mismatches := by
  intro c hc
  refine h _ (List.mem_filterMap.mpr ⟨p, hp, ?_⟩)
  rw [hc]
  rfl

/-- A symbol that is not apart any more is forgotten. -/
theorem forgotten_run (hbus : cfg.hasBus = true) (hsym : sym ∉ r.alertedBreaks)
    {passes : List Pass} (hlast : ∀ symbols ∈ (seen cfg passes).getLast?, sym ∉ symbols) :
    sym ∉ (run (afterPass cfg) r passes).alertedBreaks := by
  induction passes using List.reverseRecOn with
  | nil => exact hsym
  | append_singleton passes p ih =>
    rw [run_concat]
    rw [seen, List.filterMap_append, ← seen] at hlast
    rcases hcomp : p.comparison cfg with _ | c
    · rw [List.filterMap_cons_none (by rw [hcomp]; rfl), List.filterMap_nil,
        List.append_nil] at hlast
      rw [(alerts_afterPass_of_none hcomp).1]
      exact ih hlast
    · rw [List.filterMap_cons_some (b := c.mismatches) (by rw [hcomp]; rfl), List.filterMap_nil,
        List.getLast?_concat] at hlast
      exact alerts_of_healed hbus hcomp (hlast _ rfl)

/-- An announced symbol is not announced again while it is apart. -/
theorem alertsFor_run_of_announced (hbus : cfg.hasBus = true) {passes : List Pass}
    (hapart : ∀ p ∈ passes, ∀ c ∈ p.comparison cfg, sym ∈ c.mismatches)
    (hsym : sym ∈ r.alertedBreaks) :
    alertsFor sym (run (afterPass cfg) r passes) = alertsFor sym r := by
  induction passes generalizing r with
  | nil => rfl
  | cons p passes ih =>
    obtain ⟨hkept, hcount⟩ := alerts_of_announced hbus (hapart p List.mem_cons_self) hsym
    rw [run_cons, ih (fun p' hp' => hapart p' (List.mem_cons_of_mem _ hp')) hkept, hcount]

/-- A symbol that is not announced yet is announced once, by the first pass that gets to it. -/
theorem alertsFor_run_iff (hbus : cfg.hasBus = true) {passes : List Pass}
    (hapart : ∀ p ∈ passes, ∀ c ∈ p.comparison cfg, sym ∈ c.mismatches)
    (hsym : sym ∉ r.alertedBreaks) :
    alertsFor sym (run (afterPass cfg) r passes) = alertsFor sym r + 1 ↔
      ∃ before p, before ++ [p] <+: passes ∧
        GetsTo cfg sym (run (afterPass cfg) r before) p := by
  induction passes generalizing r with
  | nil =>
    refine iff_of_false (by simp) ?_
    rintro ⟨before, p, hp, -⟩
    simp at hp
  | cons p passes ih =>
    have hapart' : ∀ p' ∈ passes, ∀ c ∈ p'.comparison cfg, sym ∈ c.mismatches :=
      fun p' hp' => hapart p' (List.mem_cons_of_mem _ hp')
    obtain ⟨hgets, hmisses⟩ := alerts_of_new hbus (hapart p List.mem_cons_self) hsym
    rw [run_cons]
    by_cases h : GetsTo cfg sym r p
    · -- announced now, and never again
      obtain ⟨halerted, hcount⟩ := hgets h
      rw [alertsFor_run_of_announced hbus hapart' halerted, hcount]
      exact iff_of_true rfl ⟨[], p, by simp, h⟩
    · -- not announced now, so the later passes decide
      obtain ⟨hnew, hcount⟩ := hmisses h
      rw [← hcount, ih hapart' hnew]
      constructor
      · rintro ⟨before, p', hp', h'⟩
        exact ⟨p :: before, p', List.cons_prefix_cons.mpr ⟨rfl, hp'⟩, h'⟩
      · rintro ⟨before, p', hp', h'⟩
        rcases before with _ | ⟨q, before⟩
        · obtain rfl : p' = p := by simpa using hp'
          exact absurd h' h
        · obtain ⟨rfl, htail⟩ := List.cons_prefix_cons.mp hp'
          exact ⟨before, p', htail, h'⟩

/-- **When a break is announced exactly once**: for every sequence of passes of a process, with
whatever books and positions they find, in whatever order the symbols come and whichever adoptions
and fetches fail, a symbol is announced exactly once in an outage exactly if one of its passes gets
to it. -/
theorem alertsFor_outage_iff (hbus : cfg.hasBus = true) (heartbeatTimeoutSecs : ℤ)
    {pre mid post : List Pass} (h : Outage cfg sym pre mid post) :
    alertsFor sym (run (afterPass cfg) (run (afterPass cfg) (new heartbeatTimeoutSecs) pre) mid) =
        alertsFor sym (run (afterPass cfg) (new heartbeatTimeoutSecs) pre) + 1 ↔
      ∃ before p, before ++ [p] <+: mid ∧ GetsTo cfg sym
        (run (afterPass cfg) (run (afterPass cfg) (new heartbeatTimeoutSecs) pre) before) p := by
  have hsym : sym ∉ (run (afterPass cfg) (new heartbeatTimeoutSecs) pre).alertedBreaks :=
    forgotten_run hbus List.not_mem_nil h.begins
  exact alertsFor_run_iff hbus (fun p hp => apart_of_seen h.apart hp) hsym

/-- Short positions that the books know nothing of. -/
def shortPositions (symbols : List String) : List BrokerPosition :=
  symbols.map fun sym => ⟨sym, -10, 100, 100, .equity⟩

/-- A pass that finds such positions, and no books. -/
def shortPass (symbols : List String) : Pass where
  books := .empty
  kill := .new 60
  env :=
    { getOrder := fun _ => none
      listPositions := some (shortPositions symbols)
      fillId := fun _ => 0
      ghostIds := fun _ => ⟨0, 0, 0⟩
      ts := 0
      setOrder := id
      setOrder_perm := fun symbols => List.Perm.refl symbols
      adoptionRaises := fun _ => false }

/-- One symbol that stays apart for two passes, and agrees then. -/
theorem alertsFor_oneShort :
    alertsFor "A" (run (afterPass {}) (new 60) [shortPass ["A"], shortPass ["A"]]) = 1 := by
  have houtage : Outage {} "A" [] [shortPass ["A"], shortPass ["A"]] [shortPass []] := by
    have hseen : seen {} [shortPass ["A"], shortPass ["A"]] = [["A"], ["A"]] := by decide +kernel
    have hafter : seen {} [shortPass []] = [[]] := by decide +kernel
    refine ⟨by simp [seen], ?_, ?_, ?_⟩
    · rw [hseen]
      decide
    · rw [hseen]
      decide
    · rw [hafter]
      decide
  refine (alertsFor_outage_iff rfl 60 houtage).mpr ⟨[], shortPass ["A"], by simp, ?_⟩
  have hcomp : ((shortPass ["A"]).comparison {}).map (fun c =>
      (c.mismatches.take 5, (c.mismatchDetails.get? "A").isSome)) = some (["A"], true) := by
    decide +kernel
  obtain ⟨c, hc, hpair⟩ := Option.map_eq_some_iff.mp hcomp
  obtain ⟨htake, hdetails⟩ := Prod.mk.inj hpair
  exact ⟨c, hc, hdetails, [], [], htake, fun _ h => absurd h List.not_mem_nil⟩

/-- **The sixth symbol**: six symbols are apart for two passes, and the last of them is never
announced. -/
theorem alertsFor_sixShorts :
    Outage {} "F" [] [shortPass ["A", "B", "C", "D", "E", "F"],
        shortPass ["A", "B", "C", "D", "E", "F"]] [shortPass []] ∧
      alertsFor "F" (run (afterPass {}) (new 60) [shortPass ["A", "B", "C", "D", "E", "F"],
        shortPass ["A", "B", "C", "D", "E", "F"]]) = 0 := by
  have hseen : seen {} [shortPass ["A", "B", "C", "D", "E", "F"],
      shortPass ["A", "B", "C", "D", "E", "F"]] =
        [["A", "B", "C", "D", "E", "F"], ["A", "B", "C", "D", "E", "F"]] := by
    decide +kernel
  have hafter : seen {} [shortPass []] = [[]] := by decide +kernel
  refine ⟨⟨by simp [seen], ?_, ?_, ?_⟩, by decide +kernel⟩
  · rw [hseen]
    decide
  · rw [hseen]
    decide
  · rw [hafter]
    decide

end Reconciler

end TradingPlatform
