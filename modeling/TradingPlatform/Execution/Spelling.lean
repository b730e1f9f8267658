import TradingPlatform.Execution.ReconcilePass

/-!
# Two spellings of one symbol

The broker may report a pair of currencies with a slash or without one. The rest of the platform
takes the slash out (`TradingPlatform.normalizeSymbol`); a pass of the reconciler compares the
symbols as they come. `TradingPlatform.Reconciler.SpellingFree` is what normalizing first would
give: no matter how the broker spells its symbols, the pass adopts the same positions, reports the
same ones and leaves the kill switch in the same state, and it lets the positions alone that agree
once they are normalized.

The decisions a pass takes about the broker's positions are those it takes about the list with
normalized symbols, as long as no two spellings of one symbol matter
(`TradingPlatform.Reconciler.Harmless`): a position that shares its normalized symbol with the
books must weigh as much against nothing as against the books. This is far from how an account
looks: a pair that both sides hold in the same quantity is enough to break it. And it is exactly
what is needed (`TradingPlatform.Reconciler.spellingFree_iff`), as every symbol has a spelling that
neither side uses yet.
-/

namespace TradingPlatform

/-! ### Spellings -/

section Spellings

/-- Slashes in front of a symbol. -/
def slashed (sym : String) (n : ℕ) : String := String.ofList (List.replicate n '/' ++ sym.toList)

theorem normalizeSymbol_slashed (sym : String) (n : ℕ) :
    normalizeSymbol (slashed sym n) = normalizeSymbol sym := by
  have hnone : (List.replicate n '/').filter (fun c => decide (c ≠ '/')) = [] :=
    List.filter_eq_nil_iff.mpr fun c hc => by simp [List.eq_of_mem_replicate hc]
  rw [normalizeSymbol, normalizeSymbol, slashed, String.toList_ofList, List.filter_append, hnone,
    List.nil_append]

theorem slashed_injective (sym : String) : Function.Injective (slashed sym) := by
  intro n n' h
  have hlength := congrArg (fun s => s.toList.length) h
  simpa [slashed] using hlength

/-- **Every symbol has a new spelling**: one that is not among those given. -/
theorem exists_spelling_notMem (sym : String) (used : List String) :
    ∃ sym', normalizeSymbol sym' = normalizeSymbol sym ∧ sym' ∉ used := by
  obtain ⟨_, ⟨n, rfl⟩, hn⟩ :=
    (Set.infinite_range_of_injective (slashed_injective sym)).exists_notMem_finset used.toFinset
  exact ⟨slashed sym n, normalizeSymbol_slashed sym n, fun hc => hn (List.mem_toFinset.mpr hc)⟩

end Spellings

namespace Reconciler

/-- **The same positions, under other spellings of their symbols.** -/
def Respelling (positions positions' : List BrokerPosition) : Prop :=
  positions'.map BrokerPosition.canonical = positions.map BrokerPosition.canonical

/-! ### What a pass decides -/

/-- The position in the `i`-th place is the last one under its symbol. It is the one a pass
looks at. -/
def Takes (positions : List BrokerPosition) (i : ℕ) (p : BrokerPosition) : Prop :=
  positions[i]? = some p ∧ ∀ j q, i < j → positions[j]? = some q → q.symbol ≠ p.symbol

def SymbolCheck.Adopts (check : SymbolCheck) : Prop := ∃ qty price, check = .orphan qty price

def SymbolCheck.Reports (check : SymbolCheck) : Prop := ∃ details, check = .mismatch details

section Decisions

variable (cfg : ReconcilerConfig) (expected : Dict String Decimal)
  (positions : List BrokerPosition)

/-- The pass adopts the position in the `i`-th place. -/
def AdoptedAt (i : ℕ) : Prop :=
  ∃ p, Takes positions i p ∧
    (checkSymbol cfg expected (positionsBySymbol positions) p.symbol).Adopts

/-- The pass reports the position in the `i`-th place as a mismatch. -/
def ReportedAt (i : ℕ) : Prop :=
  ∃ p, Takes positions i p ∧
    (checkSymbol cfg expected (positionsBySymbol positions) p.symbol).Reports

/-- The pass reports a symbol of the books as a mismatch. -/
def ReportedFor (sym : String) : Prop :=
  (checkSymbol cfg expected (positionsBySymbol positions) sym).Reports

/-- What the books hold under all spellings of a symbol. -/
def spelledQty (sym : String) : Decimal :=
  ((expected.keys.filter fun k => normalizeSymbol k = normalizeSymbol sym).map
    (ourQty expected)).sum

/-- The two sides agree in a symbol once all symbols are normalized. -/
def AgreesNormalized (sym : String) : Prop :=
  let normalized := positionsBySymbol (positions.map BrokerPosition.canonical)
  Within cfg (spelledQty expected sym) (brokerQty normalized (normalizeSymbol sym))
    (brokerPrice normalized (normalizeSymbol sym))

end Decisions

/-- The books a pass compares: polling the open orders has brought them up to date. -/
def polledBooks (env : ReconcileEnv) (r : Reconciler) : Oms :=
  (reconcileOrders env r.oms r.oms.listOpenOrders).1

/-- The positions on those books. -/
def polledPositions (env : ReconcileEnv) (r : Reconciler) : Dict String Decimal :=
  (polledBooks env r).computeExpectedPositions

/-- A pass in which the broker reports these positions. -/
def ReconcileEnv.reporting (env : ReconcileEnv) (positions : List BrokerPosition) : ReconcileEnv :=
  { env with listPositions := some positions }

/-- **A pass does not depend on the spelling of the symbols.** -/
structure SpellingFree (cfg : ReconcilerConfig) (env : ReconcileEnv) (r : Reconciler)
    (positions : List BrokerPosition) : Prop where
  adopted : ∀ positions', Respelling positions positions' → ∀ i,
    AdoptedAt cfg (polledPositions env r) positions' i ↔
      AdoptedAt cfg (polledPositions env r) positions i
  reported : ∀ positions', Respelling positions positions' → ∀ i,
    ReportedAt cfg (polledPositions env r) positions' i ↔
      ReportedAt cfg (polledPositions env r) positions i
  /-- The same for the positions only the books may have. -/
  reportedFor : ∀ positions', Respelling positions positions' →
    ∀ sym ∈ (polledPositions env r).keys,
      ReportedFor cfg (polledPositions env r) positions' sym ↔
        ReportedFor cfg (polledPositions env r) positions sym
  kill : ∀ positions', Respelling positions positions' →
    (reconcileOnce cfg (ReconcileEnv.reporting env positions') r).1.kill.state =
      (reconcileOnce cfg (ReconcileEnv.reporting env positions) r).1.kill.state
  /-- A position that agrees once it is normalized is let alone. -/
  agreeing : ∀ sym ∈ allSymbols (polledPositions env r) (positionsBySymbol positions),
    AgreesNormalized cfg (polledPositions env r) positions sym →
      checkSymbol cfg (polledPositions env r) (positionsBySymbol positions) sym = .agrees

/-- **The spelling can do no harm.** The symbols of the positions given are normalized. -/
structure Harmless (cfg : ReconcilerConfig) (expected : Dict String Decimal)
    (positions : List BrokerPosition) : Prop where
  /-- A position that is followed by another one in its symbol is negligible. -/
  earlier : ∀ (i j : ℕ) (p q : BrokerPosition), i < j → positions[i]? = some p →
    positions[j]? = some q → q.symbol = p.symbol → Within cfg 0 p.qty p.currentPrice
  /-- A position whose symbol the books have too, in whatever spelling, weighs the same against
  nothing as against the books, and the books the same against the position as against nothing;
  and it is not a long position that matters. -/
  shared : ∀ p ∈ positions, ∀ sym ∈ expected.keys, normalizeSymbol sym = p.symbol →
    (0 < p.qty → Within cfg 0 p.qty p.currentPrice) ∧
      (Within cfg 0 p.qty p.currentPrice ↔
        Within cfg (ourQty expected sym) p.qty p.currentPrice) ∧
      (Within cfg (ourQty expected sym) p.qty p.currentPrice ↔
        Within cfg (ourQty expected sym) 0 0)
  /-- Where the two sides agree once normalized, no spelling on the books matters. -/
  spread : ∀ sym ∈ expected.keys,
    Within cfg (spelledQty expected sym)
      (brokerQty (positionsBySymbol positions) (normalizeSymbol sym))
      (brokerPrice (positionsBySymbol positions) (normalizeSymbol sym)) →
    Within cfg (ourQty expected sym) 0 0

/-! ### The check of one symbol -/

section Check

variable {cfg : ReconcilerConfig} {expected : Dict String Decimal}
  {positions : List BrokerPosition} {i : ℕ} {p : BrokerPosition}

/-- What makes a pass adopt a position. -/
def Adoptable (cfg : ReconcilerConfig) (our qty price : Decimal) : Prop :=
  ¬Within cfg our qty price ∧ our = 0 ∧ 0 < qty

/-- What makes it report one. -/
def Reportable (cfg : ReconcilerConfig) (our qty price : Decimal) : Prop :=
  ¬Within cfg our qty price ∧ ¬(our = 0 ∧ 0 < qty)

theorem within_iff_of_not {our qty price : Decimal} :
    Within cfg our qty price ↔ ¬Adoptable cfg our qty price ∧ ¬Reportable cfg our qty price := by
  rw [Adoptable, Reportable]
  tauto

theorem adoptable_zero {qty price : Decimal} :
    Adoptable cfg 0 qty price ↔ ¬Within cfg 0 qty price ∧ 0 < qty := by
  simp [Adoptable]

theorem reportable_zero {qty price : Decimal} :
    Reportable cfg 0 qty price ↔ ¬Within cfg 0 qty price ∧ ¬0 < qty := by
  simp [Reportable]

theorem not_adoptable_of_ne {our qty price : Decimal} (h : our ≠ 0) :
    ¬Adoptable cfg our qty price :=
  fun hc => h hc.2.1

theorem reportable_of_ne {our qty price : Decimal} (h : our ≠ 0) :
    Reportable cfg our qty price ↔ ¬Within cfg our qty price :=
  and_iff_left fun hc => h hc.1

section

variable (cfg) (expected) (d : Dict String BrokerPosition) (sym : String)

theorem adopts_checkSymbol_iff : (checkSymbol cfg expected d sym).Adopts ↔
    Adoptable cfg (ourQty expected sym) (brokerQty d sym) (brokerPrice d sym) := by
  rw [SymbolCheck.Adopts, Adoptable, checkSymbol]
  split_ifs with hw ho
  · simp [hw]
  · exact iff_of_true ⟨_, _, rfl⟩ ⟨hw, ho⟩
  · simpa [hw] using ho

theorem reports_checkSymbol_iff : (checkSymbol cfg expected d sym).Reports ↔
    Reportable cfg (ourQty expected sym) (brokerQty d sym) (brokerPrice d sym) := by
  rw [SymbolCheck.Reports, Reportable, checkSymbol]
  split_ifs with hw ho
  · simp [hw]
  · simp [ho]
  · exact iff_of_true ⟨_, rfl⟩ ⟨hw, ho⟩

theorem checkSymbol_eq_agrees_iff : checkSymbol cfg expected d sym = .agrees ↔
    Within cfg (ourQty expected sym) (brokerQty d sym) (brokerPrice d sym) := by
  rw [checkSymbol]
  split_ifs with hw ho
  · simp [hw]
  · simp [hw]
  · simp [hw]

end

/-- Under a symbol stands the position the list has last for it. -/
theorem get?_positionsBySymbol_iff {sym : String} :
    (positionsBySymbol positions).get? sym = some p ↔ ∃ i, Takes positions i p ∧ p.symbol = sym :=
  Dict.get?_foldl_set_empty_iff

theorem Takes.get? (h : Takes positions i p) :
    (positionsBySymbol positions).get? p.symbol = some p :=
  get?_positionsBySymbol_iff.mpr ⟨i, h, rfl⟩

theorem brokerQty_of_get? {d : Dict String BrokerPosition} {sym : String}
    (h : d.get? sym = some p) : brokerQty d sym = p.qty := by
  rw [brokerQty, h]
  rfl

theorem brokerPrice_of_get? {d : Dict String BrokerPosition} {sym : String}
    (h : d.get? sym = some p) : brokerPrice d sym = p.currentPrice := by
  rw [brokerPrice, h]
  rfl

/-- The decision about a position a pass looks at. -/
theorem Takes.decided (h : Takes positions i p) (cfg : ReconcilerConfig)
    (expected : Dict String Decimal) :
    (AdoptedAt cfg expected positions i ↔
        Adoptable cfg (ourQty expected p.symbol) p.qty p.currentPrice) ∧
      (ReportedAt cfg expected positions i ↔
        Reportable cfg (ourQty expected p.symbol) p.qty p.currentPrice) ∧
      (ReportedFor cfg expected positions p.symbol ↔
        Reportable cfg (ourQty expected p.symbol) p.qty p.currentPrice) := by
  have honly : ∀ q, Takes positions i q → q = p := fun q hq =>
    Option.some.inj (hq.1.symm.trans h.1)
  have hadopts := adopts_checkSymbol_iff cfg expected (positionsBySymbol positions) p.symbol
  have hreports := reports_checkSymbol_iff cfg expected (positionsBySymbol positions) p.symbol
  rw [brokerQty_of_get? h.get?, brokerPrice_of_get? h.get?] at hadopts hreports
  rw [← hadopts, ← hreports]
  refine ⟨⟨?_, fun ha => ⟨p, h, ha⟩⟩, ⟨?_, fun hr => ⟨p, h, hr⟩⟩, Iff.rfl⟩
  · rintro ⟨q, hq, ha⟩
    exact honly q hq ▸ ha
  · rintro ⟨q, hq, hr⟩
    exact honly q hq ▸ hr

/-- A symbol only the books have is compared with nothing. -/
theorem reportedFor_of_unreported {sym : String}
    (h : (positionsBySymbol positions).get? sym = none) :
    ReportedFor cfg expected positions sym ↔ Reportable cfg (ourQty expected sym) 0 0 := by
  rw [ReportedFor, reports_checkSymbol_iff, brokerQty, brokerPrice, h]
  rfl

end Check

/-! ### Where the spelling can do no harm -/

section Harmless

variable {cfg : ReconcilerConfig} {expected : Dict String Decimal}
  {positions positions' : List BrokerPosition} {i : ℕ} {p c : BrokerPosition}

theorem ourQty_of_notMem {sym : String} (h : sym ∉ expected.keys) : ourQty expected sym = 0 := by
  rw [ourQty, Dict.get?_eq_none_iff.mpr h]
  rfl

theorem getElem?_canonical (hp : positions[i]? = some p) :
    (positions.map BrokerPosition.canonical)[i]? = some p.canonical := by
  rw [List.getElem?_map, hp]
  rfl

theorem exists_of_getElem?_canonical
    (h : (positions.map BrokerPosition.canonical)[i]? = some c) :
    ∃ p, positions[i]? = some p ∧ p.canonical = c := by
  rw [List.getElem?_map] at h
  exact Option.map_eq_some_iff.mp h

theorem mem_canonical (hp : positions[i]? = some p) :
    p.canonical ∈ positions.map BrokerPosition.canonical :=
  List.mem_map_of_mem (List.mem_of_getElem? hp)

/-- The last position in a normalized symbol is the last one in its own spelling of it. -/
theorem Takes.of_canonical (hp : positions[i]? = some p)
    (h : Takes (positions.map BrokerPosition.canonical) i p.canonical) : Takes positions i p :=
  ⟨hp, fun j q hj hq hc =>
    h.2 j q.canonical hj (getElem?_canonical hq) (congrArg normalizeSymbol hc)⟩

namespace Harmless

/-- What matters is the last position in its normalized symbol. -/
theorem takes_canonical (h : Harmless cfg expected (positions.map BrokerPosition.canonical))
    (hp : positions[i]? = some p) (hw : ¬Within cfg 0 p.qty p.currentPrice) :
    Takes (positions.map BrokerPosition.canonical) i p.canonical :=
  ⟨getElem?_canonical hp, fun j q hj hq hc =>
    hw (h.earlier i j p.canonical q hj (getElem?_canonical hp) hq hc)⟩

theorem reportable_iff
    (h : Harmless cfg expected (positions.map BrokerPosition.canonical))
    (hne : ∀ sym ∈ expected.keys, ourQty expected sym ≠ 0)
    (hp : positions[i]? = some p) :
    Reportable cfg (ourQty expected p.symbol) p.qty p.currentPrice ↔
      Reportable cfg 0 p.qty p.currentPrice := by
  by_cases hsym : p.symbol ∈ expected.keys
  · obtain ⟨hlong, hsame, -⟩ := h.shared p.canonical (mem_canonical hp) p.symbol hsym rfl
    rw [reportable_of_ne (hne _ hsym), reportable_zero]
    exact ⟨fun hw => ⟨fun hc => hw (hsame.mp hc), fun hc => hw (hsame.mp (hlong hc))⟩,
      fun hw hc => hw.1 (hsame.mpr hc)⟩
  · rw [ourQty_of_notMem hsym]

/-- A pass adopts what it would adopt if the symbols were normalized. -/
theorem adoptedAt_iff (h : Harmless cfg expected (positions.map BrokerPosition.canonical)) :
    AdoptedAt cfg expected positions i ↔
      ∃ c, Takes (positions.map BrokerPosition.canonical) i c ∧
        (∀ sym ∈ expected.keys, normalizeSymbol sym ≠ c.symbol) ∧
          Adoptable cfg 0 c.qty c.currentPrice := by
  constructor
  · rintro ⟨p, hp, ha⟩
    have ha := (hp.decided cfg expected).1.mp ⟨p, hp, ha⟩
    rw [ha.2.1] at ha
    exact ⟨p.canonical, h.takes_canonical hp.1 ha.1, fun sym hsym hc =>
      ha.1 ((h.shared p.canonical (mem_canonical hp.1) sym hsym hc).1 ha.2.2), ha⟩
  · rintro ⟨c, hc, hnone, ha⟩
    obtain ⟨p, hp, rfl⟩ := exists_of_getElem?_canonical hc.1
    refine ((hc.of_canonical hp).decided cfg expected).1.mpr ?_
    rw [ourQty_of_notMem fun hsym => hnone _ hsym rfl]
    exact ha

/-- A pass reports what it would report if the symbols were normalized. -/
theorem reportedAt_iff
    (h : Harmless cfg expected (positions.map BrokerPosition.canonical))
    (hne : ∀ sym ∈ expected.keys, ourQty expected sym ≠ 0) :
    ReportedAt cfg expected positions i ↔
      ∃ c, Takes (positions.map BrokerPosition.canonical) i c ∧
        Reportable cfg 0 c.qty c.currentPrice := by
  constructor
  · rintro ⟨p, hp, hr⟩
    have hr := (h.reportable_iff hne hp.1).mp ((hp.decided cfg expected).2.1.mp ⟨p, hp, hr⟩)
    exact ⟨p.canonical, h.takes_canonical hp.1 hr.1, hr⟩
  · rintro ⟨c, hc, hr⟩
    obtain ⟨p, hp, rfl⟩ := exists_of_getElem?_canonical hc.1
    exact ((hc.of_canonical hp).decided cfg expected).2.1.mpr ((h.reportable_iff hne hp).mpr hr)

/-- A pass reports a symbol of the books as if the broker had nothing under it. -/
theorem reportedFor_iff
    (h : Harmless cfg expected (positions.map BrokerPosition.canonical))
    (hne : ∀ sym ∈ expected.keys, ourQty expected sym ≠ 0) {sym : String}
    (hsym : sym ∈ expected.keys) :
    ReportedFor cfg expected positions sym ↔ ¬Within cfg (ourQty expected sym) 0 0 := by
  rcases hget : (positionsBySymbol positions).get? sym with _ | p
  · rw [reportedFor_of_unreported hget, reportable_of_ne (hne sym hsym)]
  · obtain ⟨i, hp, rfl⟩ := get?_positionsBySymbol_iff.mp hget
    obtain ⟨-, -, hnothing⟩ := h.shared p.canonical (mem_canonical hp.1) p.symbol hsym rfl
    rw [(hp.decided cfg expected).2.2, reportable_of_ne (hne _ hsym)]
    exact not_congr hnothing

/-- Where the two sides agree once normalized, a pass does nothing. -/
theorem agrees_of_normalized
    (h : Harmless cfg expected (positions.map BrokerPosition.canonical)) {sym : String}
    (hsym : sym ∈ allSymbols expected (positionsBySymbol positions))
    (ha : AgreesNormalized cfg expected positions sym) :
    checkSymbol cfg expected (positionsBySymbol positions) sym = .agrees := by
  rw [checkSymbol_eq_agrees_iff]
  rcases hget : (positionsBySymbol positions).get? sym with _ | p
  · -- only the books have it
    have hkey : sym ∈ expected.keys :=
      (mem_allSymbols.mp hsym).resolve_right (Dict.get?_eq_none_iff.mp hget)
    rw [brokerQty, brokerPrice, hget]
    exact h.spread sym hkey ha
  · obtain ⟨i, hp, rfl⟩ := get?_positionsBySymbol_iff.mp hget
    rw [brokerQty_of_get? hget, brokerPrice_of_get? hget]
    have hshared := h.shared p.canonical (mem_canonical hp.1)
    by_cases hkey : p.symbol ∈ expected.keys
    · exact (hshared p.symbol hkey rfl).2.2.mpr (h.spread p.symbol hkey ha)
    · rw [ourQty_of_notMem hkey]
      by_cases hother : ∃ k ∈ expected.keys, normalizeSymbol k = p.canonical.symbol
      · -- the books have it under another spelling
        obtain ⟨k, hk, hspelled⟩ := hother
        obtain ⟨-, hsame, hnothing⟩ := hshared k hk hspelled
        refine hsame.mpr (hnothing.mpr (h.spread k hk ?_))
        rw [AgreesNormalized, spelledQty] at ha
        rw [spelledQty, hspelled]
        exact ha
      · by_contra hw
        have hlast : (positionsBySymbol (positions.map BrokerPosition.canonical)).get?
            (normalizeSymbol p.symbol) = some p.canonical := (h.takes_canonical hp.1 hw).get?
        have hzero : spelledQty expected p.symbol = 0 := by
          rw [spelledQty, List.filter_eq_nil_iff.mpr]
          · rfl
          · exact fun k hk hc => hother ⟨k, hk, of_decide_eq_true hc⟩
        rw [AgreesNormalized, hzero, brokerQty_of_get? hlast, brokerPrice_of_get? hlast] at ha
        exact hw ha

end Harmless

end Harmless

/-! ### The kill switch -/

section Kill

variable (cfg : ReconcilerConfig) (env : ReconcileEnv) (expected : Dict String Decimal)

theorem mismatch?_eq_none_iff (check : SymbolCheck) : check.mismatch? = none ↔ ¬check.Reports := by
  cases check <;> simp [SymbolCheck.mismatch?, SymbolCheck.Reports]

/-- A pass reports a position of the broker, or a symbol of the books. -/
def ReportsAny (positions : List BrokerPosition) : Prop :=
  (∃ i, ReportedAt cfg expected positions i) ∨
    ∃ sym ∈ expected.keys, ReportedFor cfg expected positions sym

/-- The mismatches are empty exactly when nothing is reported. -/
theorem mismatches_eq_nil_iff (positions : List BrokerPosition) (s : Oms) :
    ((allSymbols expected (positionsBySymbol positions)).foldl
        (compareSymbol cfg env expected (positionsBySymbol positions)) (s, [])).2 = [] ↔
      ¬ReportsAny cfg expected positions := by
  rw [mismatches_compareSymbols, List.nil_append, List.filterMap_eq_nil_iff]
  constructor
  · rintro hnone (⟨i, p, hp, hr⟩ | ⟨sym, hsym, hr⟩)
    · have hkey := Dict.mem_keys_of_get? hp.get?
      exact (mismatch?_eq_none_iff _).mp (hnone _ (mem_allSymbols.mpr (Or.inr hkey))) hr
    · exact (mismatch?_eq_none_iff _).mp (hnone _ (mem_allSymbols.mpr (Or.inl hsym))) hr
  · intro hnone sym hsym
    refine (mismatch?_eq_none_iff _).mpr fun hr => hnone ?_
    rcases mem_allSymbols.mp hsym with hkey | hkey
    · exact Or.inr ⟨sym, hkey, hr⟩
    · obtain ⟨p, hget⟩ := Dict.mem_keys_iff.mp hkey
      obtain ⟨i, hp, rfl⟩ := get?_positionsBySymbol_iff.mp hget
      exact Or.inl ⟨i, p, hp, hr⟩

/-- What comparing the positions does to the kill switch. -/
theorem kill_reconcilePositions_iff (r : Reconciler) {positions : List BrokerPosition}
    (hpositions : env.listPositions = some positions) :
    let result := reconcilePositions cfg env r
    (ReportsAny cfg r.oms.computeExpectedPositions positions →
        result.2.1 ≠ 0 ∧ result.1.kill = r.kill.tripReconciliationBreak) ∧
      (¬ReportsAny cfg r.oms.computeExpectedPositions positions →
        result.2.1 = 0 ∧ result.1.kill = r.kill) := by
  have hnil := mismatches_eq_nil_iff cfg env r.oms.computeExpectedPositions positions r.oms
  dsimp only
  obtain ⟨-, ⟨hms, hcount, hkill⟩ | ⟨hms, hcount, hkill⟩⟩ :=
    reconcilePositions_of_fetched cfg env r hpositions
  · rw [hcount, hkill]
    exact ⟨fun hc => absurd hc (hnil.mp hms), fun _ => ⟨rfl, rfl⟩⟩
  · rw [hcount, hkill]
    exact ⟨fun _ => ⟨fun hc => hms (List.length_eq_zero_iff.mp hc), rfl⟩,
      fun hc => absurd (hnil.mpr hc) hms⟩

/-- What the broker reports about positions has no part in the polling of the orders. -/
theorem polledBooks_reporting (r : Reconciler) (positions : List BrokerPosition) :
    polledBooks (ReconcileEnv.reporting env positions) r = polledBooks env r :=
  rfl

/-- A pass that reports a position trips the switch, one that reports none lifts a break. -/
theorem kill_reconcileOnce (r : Reconciler) (positions : List BrokerPosition) :
    let result := (reconcileOnce cfg (ReconcileEnv.reporting env positions) r).1.kill
    let watched := r.kill.checkHeartbeat env.ts
    (ReportsAny cfg (polledPositions env r) positions →
        result = watched.tripReconciliationBreak) ∧
      (¬ReportsAny cfg (polledPositions env r) positions →
        result = watched.clearReconciliationBreak) := by
  rw [polledPositions, ← polledBooks_reporting env r positions]
  have hts : env.ts = (ReconcileEnv.reporting env positions).ts := rfl
  have hsome : (ReconcileEnv.reporting env positions).listPositions = some positions := rfl
  rw [hts]
  generalize ReconcileEnv.reporting env positions = env' at hsome ⊢
  obtain ⟨htrips, hclears⟩ :=
    kill_reconcilePositions_iff cfg env' (beforePositions cfg env' r) hsome
  dsimp only at htrips hclears ⊢
  rw [kill_of_pass]
  constructor
  · intro hreports
    obtain ⟨hcount, hkill⟩ := htrips hreports
    exact (if_neg hcount).trans hkill
  · intro hnone
    obtain ⟨hcount, hkill⟩ := hclears hnone
    exact (if_pos hcount).trans (congrArg KillSwitchEngine.clearReconciliationBreak hkill)

end Kill

/-! ### Respelling a list -/

section Respell

variable {positions : List BrokerPosition} {sym sym' : String} {spelling : ℕ → String} {i j : ℕ}
  {p q : BrokerPosition}

/-- The positions in a normalized symbol, each under a spelling of its own. -/
def respell (sym : String) (spelling : ℕ → String) (positions : List BrokerPosition) :
    List BrokerPosition :=
  positions.mapIdx fun i p =>
    if normalizeSymbol p.symbol = normalizeSymbol sym then { p with symbol := spelling i } else p

theorem getElem?_respell (sym : String) (spelling : ℕ → String) (hp : positions[i]? = some p) :
    (respell sym spelling positions)[i]? =
      some (if normalizeSymbol p.symbol = normalizeSymbol sym then { p with symbol := spelling i }
        else p) := by
  rw [respell, List.getElem?_mapIdx, hp]
  rfl

theorem exists_of_getElem?_respell (h : (respell sym spelling positions)[i]? = some q) :
    ∃ p, positions[i]? = some p ∧
      q = if normalizeSymbol p.symbol = normalizeSymbol sym then { p with symbol := spelling i }
        else p := by
  rw [respell, List.getElem?_mapIdx] at h
  obtain ⟨p, hp, hq⟩ := Option.map_eq_some_iff.mp h
  exact ⟨p, hp, hq.symm⟩

theorem respelling_respell (hspelling : ∀ i, normalizeSymbol (spelling i) = normalizeSymbol sym) :
    Respelling positions (respell sym spelling positions) := by
  refine List.ext_getElem? fun i => ?_
  rw [List.getElem?_map, List.getElem?_map]
  rcases hp : positions[i]? with _ | p
  · rw [respell, List.getElem?_mapIdx, hp]
    rfl
  · rw [getElem?_respell sym spelling hp]
    split_ifs with h
    · simp [BrokerPosition.canonical, hspelling, h]
    · rfl

/-- A position under a spelling that no later one has. -/
theorem takes_respell (hspelling : ∀ i, normalizeSymbol (spelling i) = normalizeSymbol sym)
    (hp : positions[i]? = some p) (hsym : normalizeSymbol p.symbol = normalizeSymbol sym)
    (hlater : ∀ j, i < j → spelling j ≠ spelling i) :
    Takes (respell sym spelling positions) i { p with symbol := spelling i } := by
  have hself := getElem?_respell sym spelling hp
  rw [if_pos hsym] at hself
  refine ⟨hself, fun j q hj hq hc => ?_⟩
  obtain ⟨p', -, rfl⟩ := exists_of_getElem?_respell hq
  split_ifs at hc with hsym'
  · exact hlater j hj hc
  · exact hsym' ((congrArg normalizeSymbol hc).trans (hspelling i))

/-- A position under the spelling of a later one. -/
theorem not_takes_respell (hp : positions[i]? = some p) (hq : positions[j]? = some q) (hj : i < j)
    (hpsym : normalizeSymbol p.symbol = normalizeSymbol sym)
    (hqsym : normalizeSymbol q.symbol = normalizeSymbol sym) (heq : spelling j = spelling i)
    (c : BrokerPosition) : ¬Takes (respell sym spelling positions) i c := by
  rintro ⟨hc, hlater⟩
  have hi := getElem?_respell sym spelling hp
  have hj' := getElem?_respell sym spelling hq
  rw [if_pos hpsym] at hi
  rw [if_pos hqsym] at hj'
  obtain rfl := Option.some.inj (hi.symm.trans hc)
  exact hlater j _ hj hj' heq

/-- A spelling that no position is under. -/
theorem get?_respell_eq_none (hspelled : normalizeSymbol sym' = normalizeSymbol sym)
    (hne : ∀ i, spelling i ≠ sym') :
    (positionsBySymbol (respell sym spelling positions)).get? sym' = none := by
  refine Option.eq_none_iff_forall_ne_some.mpr fun c hc => ?_
  obtain ⟨i, hi, hsym⟩ := get?_positionsBySymbol_iff.mp hc
  obtain ⟨p, -, rfl⟩ := exists_of_getElem?_respell hi.1
  split_ifs at hsym with h
  · exact hne i hsym
  · exact h ((congrArg normalizeSymbol hsym).trans hspelled)

end Respell

/-! ### Exactly when the spelling does no harm -/

section Exact

variable {cfg : ReconcilerConfig} {env : ReconcileEnv} {r : Reconciler}
  {positions : List BrokerPosition} {sym : String} {i j : ℕ} {p q : BrokerPosition}

/-- The symbols that net to zero have been dropped. -/
theorem ourQty_polledPositions_ne_zero (hsym : sym ∈ (polledPositions env r).keys) :
    ourQty (polledPositions env r) sym ≠ 0 := by
  obtain ⟨qty, hqty⟩ := Dict.mem_keys_iff.mp hsym
  rw [ourQty, hqty]
  rw [polledPositions, Oms.computeExpectedPositions, Dict.get?_filter] at hqty
  exact of_decide_eq_true (Option.filter_eq_some_iff.mp hqty).2

namespace SpellingFree

/-- The decision about a position is the one under any spelling of its symbol, if no other
position is under that spelling. -/
theorem decided (h : SpellingFree cfg env r positions) (hp : positions[i]? = some p)
    (hsym : normalizeSymbol sym = normalizeSymbol p.symbol) :
    (AdoptedAt cfg (polledPositions env r) positions i ↔
        Adoptable cfg (ourQty (polledPositions env r) sym) p.qty p.currentPrice) ∧
      (ReportedAt cfg (polledPositions env r) positions i ↔
        Reportable cfg (ourQty (polledPositions env r) sym) p.qty p.currentPrice) ∧
      (sym ∈ (polledPositions env r).keys →
        (ReportedFor cfg (polledPositions env r) positions sym ↔
          Reportable cfg (ourQty (polledPositions env r) sym) p.qty p.currentPrice)) := by
  obtain ⟨other, hother, hne⟩ := exists_spelling_notMem p.symbol [sym]
  -- this position under the spelling given, the others under a new one
  have hspelling : ∀ j, normalizeSymbol (Function.update (fun _ => other) i sym j) =
      normalizeSymbol p.symbol := by
    intro j
    rcases eq_or_ne j i with rfl | hj
    · rw [Function.update_self, hsym]
    · rw [Function.update_of_ne hj, hother]
  have hresp : Respelling positions (respell p.symbol _ positions) := respelling_respell hspelling
  have htakes := takes_respell hspelling hp rfl fun j hj => by
    rw [Function.update_of_ne hj.ne', Function.update_self]
    exact List.ne_of_not_mem_cons hne
  have hdecided := htakes.decided cfg (polledPositions env r)
  dsimp only at hdecided
  rw [Function.update_self] at hdecided
  obtain ⟨hadopted, hreported, hfor⟩ := hdecided
  exact ⟨(h.adopted _ hresp i).symm.trans hadopted, (h.reported _ hresp i).symm.trans hreported,
    fun hkey => (h.reportedFor _ hresp sym hkey).symm.trans hfor⟩

/-- A position before another one in its normalized symbol is let alone: it could be under the
same spelling. -/
theorem not_decided_of_earlier (h : SpellingFree cfg env r positions)
    (hp : positions[i]? = some p) (hq : positions[j]? = some q) (hj : i < j)
    (hsym : normalizeSymbol q.symbol = normalizeSymbol p.symbol) :
    ¬AdoptedAt cfg (polledPositions env r) positions i ∧
      ¬ReportedAt cfg (polledPositions env r) positions i := by
  have hresp : Respelling positions (respell p.symbol (fun _ => p.symbol) positions) :=
    respelling_respell fun _ => rfl
  have hnot : ∀ c, ¬Takes (respell p.symbol (fun _ => p.symbol) positions) i c :=
    not_takes_respell hp hq hj rfl hsym rfl
  rw [← h.adopted _ hresp, ← h.reported _ hresp]
  exact ⟨fun hc => Exists.elim hc fun c hc => hnot c hc.1,
    fun hc => Exists.elim hc fun c hc => hnot c hc.1⟩

/-- The decision about a symbol of the books is the one if the broker has nothing under it. -/
theorem reportedFor_iff (h : SpellingFree cfg env r positions)
    (hkey : sym ∈ (polledPositions env r).keys) :
    ReportedFor cfg (polledPositions env r) positions sym ↔
      Reportable cfg (ourQty (polledPositions env r) sym) 0 0 := by
  obtain ⟨other, hother, hne⟩ := exists_spelling_notMem sym [sym]
  have hresp : Respelling positions (respell sym (fun _ => other) positions) :=
    respelling_respell fun _ => hother
  have hnone : (positionsBySymbol (respell sym (fun _ => other) positions)).get? sym = none :=
    get?_respell_eq_none rfl fun _ => List.ne_of_not_mem_cons hne
  rw [← h.reportedFor _ hresp sym hkey]
  exact reportedFor_of_unreported hnone

theorem harmless (h : SpellingFree cfg env r positions) :
    Harmless cfg (polledPositions env r) (positions.map BrokerPosition.canonical) := by
  refine ⟨fun i j c d hj hc hd hsym => ?_, fun c hc sym hkey hsym => ?_, fun sym hkey ha => ?_⟩
  · obtain ⟨p, hp, rfl⟩ := exists_of_getElem?_canonical hc
    obtain ⟨q, hq, rfl⟩ := exists_of_getElem?_canonical hd
    obtain ⟨new, hnew, hnot⟩ := exists_spelling_notMem p.symbol (polledPositions env r).keys
    obtain ⟨hadopted, hreported, -⟩ := h.decided hp hnew
    obtain ⟨hna, hnr⟩ := h.not_decided_of_earlier hp hq hj hsym
    rw [ourQty_of_notMem hnot] at hadopted hreported
    exact within_iff_of_not.mpr ⟨fun hc => hna (hadopted.mpr hc), fun hc => hnr (hreported.mpr hc)⟩
  · obtain ⟨p, hmem, rfl⟩ := List.mem_map.mp hc
    obtain ⟨i, hp⟩ := List.getElem?_of_mem hmem
    obtain ⟨new, hnew, hnot⟩ := exists_spelling_notMem p.symbol (polledPositions env r).keys
    have hne := ourQty_polledPositions_ne_zero hkey
    obtain ⟨hadopted₀, hreported₀, -⟩ := h.decided hp hnew
    obtain ⟨hadopted, hreported, hfor⟩ := h.decided hp hsym
    rw [ourQty_of_notMem hnot, adoptable_zero] at hadopted₀
    rw [ourQty_of_notMem hnot, reportable_zero] at hreported₀
    rw [reportable_of_ne hne] at hreported hfor
    have hnothing := h.reportedFor_iff hkey
    rw [reportable_of_ne hne] at hnothing
    have hlong : 0 < p.qty → Within cfg 0 p.qty p.currentPrice := fun hpos => by
      by_contra hw
      exact not_adoptable_of_ne hne (hadopted.mp (hadopted₀.mpr ⟨hw, hpos⟩))
    have hsame : ¬Within cfg 0 p.qty p.currentPrice ↔
        ¬Within cfg (ourQty (polledPositions env r) sym) p.qty p.currentPrice :=
      ⟨fun hw => hreported.mp (hreported₀.mpr ⟨hw, fun hpos => hw (hlong hpos)⟩),
        fun hw => (hreported₀.mp (hreported.mpr hw)).1⟩
    exact ⟨hlong, not_iff_not.mp hsame, not_iff_not.mp ((hfor hkey).symm.trans hnothing)⟩
  · have hagrees := h.agreeing sym (List.mem_append_left _ hkey) ha
    have hnothing := h.reportedFor_iff hkey
    rw [reportable_of_ne (ourQty_polledPositions_ne_zero hkey), ReportedFor, hagrees] at hnothing
    by_contra hw
    obtain ⟨details, hc⟩ := hnothing.mpr hw
    exact SymbolCheck.noConfusion hc

end SpellingFree

/-- **When a pass does not depend on the spelling of the symbols**: exactly if the spelling can do
no harm. -/
theorem spellingFree_iff : SpellingFree cfg env r positions ↔
    Harmless cfg (polledPositions env r) (positions.map BrokerPosition.canonical) := by
  refine ⟨SpellingFree.harmless, fun h => ?_⟩
  have hne : ∀ sym ∈ (polledPositions env r).keys, ourQty (polledPositions env r) sym ≠ 0 :=
    fun _ => ourQty_polledPositions_ne_zero
  have hrespelled : ∀ {positions'}, Respelling positions positions' →
      Harmless cfg (polledPositions env r) (positions'.map BrokerPosition.canonical) :=
    fun hresp => hresp.symm ▸ h
  have hreported : ∀ positions', Respelling positions positions' → ∀ i,
      ReportedAt cfg (polledPositions env r) positions' i ↔
        ReportedAt cfg (polledPositions env r) positions i := fun positions' hresp i => by
    rw [(hrespelled hresp).reportedAt_iff hne, h.reportedAt_iff hne, hresp]
  have hreportedFor : ∀ positions', Respelling positions positions' →
      ∀ sym ∈ (polledPositions env r).keys,
        ReportedFor cfg (polledPositions env r) positions' sym ↔
          ReportedFor cfg (polledPositions env r) positions sym := fun positions' hresp sym hkey =>
    ((hrespelled hresp).reportedFor_iff hne hkey).trans (h.reportedFor_iff hne hkey).symm
  refine ⟨fun positions' hresp i => ?_, hreported, hreportedFor, fun positions' hresp => ?_,
    fun sym hsym ha => h.agrees_of_normalized hsym ha⟩
  · rw [(hrespelled hresp).adoptedAt_iff, h.adoptedAt_iff, hresp]
  · have hany : ReportsAny cfg (polledPositions env r) positions' ↔
        ReportsAny cfg (polledPositions env r) positions :=
      or_congr (exists_congr (hreported positions' hresp))
        (exists_congr fun sym => and_congr_right (hreportedFor positions' hresp sym))
    obtain ⟨htrips, hclears⟩ := kill_reconcileOnce cfg env r positions
    obtain ⟨htrips', hclears'⟩ := kill_reconcileOnce cfg env r positions'
    by_cases hreports : ReportsAny cfg (polledPositions env r) positions
    · rw [htrips hreports, htrips' (hany.mpr hreports)]
    · rw [hclears hreports, hclears' fun hc => hreports (hany.mp hc)]

end Exact

/-- An execution of two coins. The broker puts a slash into the symbol. -/
def pairFill : BrokerOrderEvent where
  brokerOrderId := "b-1"
  clientOrderId := 1
  newState := .filled
  fill := some
    { id := 7, orderId := 1, agentId := .sonnet, symbol := "BTC/USD", side := .buy, qty := 2
      price := 100, timestamp := 2 }

/-- Two coins, bought under the symbol without a slash. -/
def pairRun : List ReconcilerOp :=
  [.oms (.submitOrder { Oms.marketOrder 1 .buy 2 with symbol := "BTCUSD" } ⟨[], .returned "b-1"⟩ 0),
    .oms (.brokerEvent pairFill 2)]

/-- The position, in the broker's spelling. -/
def pairPosition (sym : String) : BrokerPosition where
  symbol := sym
  qty := 2
  avgEntryPrice := 100
  currentPrice := 100
  assetClass := .crypto

/-- A pass in which the broker reports that position. -/
def pairPass (sym : String) : Reconciler :=
  (reconcileOnce {} (ReconcileEnv.reporting (positionsEnv none 3) [pairPosition sym])
    (run (step {}) (new 120) pairRun)).1

/-- **A break over a slash**: the pass agrees if the broker spells the symbol as the order does.
If it puts the slash in, the pass adopts the two coins a second time, misses the ones it has, and
trips the switch. -/
theorem not_spellingFree_pairRun :
    Respelling [pairPosition "BTCUSD"] [pairPosition "BTC/USD"] ∧
      ((pairPass "BTCUSD").kill.state = .ok ∧ (pairPass "BTCUSD").oms.netQty "BTC/USD" = 0) ∧
      ((pairPass "BTC/USD").kill.state = .reconciliationBreak ∧
        (pairPass "BTC/USD").oms.netQty "BTC/USD" = 2) ∧
      ¬SpellingFree {} (positionsEnv none 3) (run (step {}) (new 120) pairRun)
        [pairPosition "BTCUSD"] := by
  have hresp : Respelling [pairPosition "BTCUSD"] [pairPosition "BTC/USD"] := by
    rw [Respelling]
    decide +kernel
  have hslashless : (pairPass "BTCUSD").kill.state = .ok ∧
      (pairPass "BTCUSD").oms.netQty "BTC/USD" = 0 := by
    decide +kernel
  have hslash : (pairPass "BTC/USD").kill.state = .reconciliationBreak ∧
      (pairPass "BTC/USD").oms.netQty "BTC/USD" = 2 := by
    decide +kernel
  refine ⟨hresp, hslashless, hslash, fun h => ?_⟩
  have hsame : (pairPass "BTC/USD").kill.state = (pairPass "BTCUSD").kill.state := h.kill _ hresp
  rw [hslash.1, hslashless.1] at hsame
  exact absurd hsame (by decide)

end Reconciler

end TradingPlatform
