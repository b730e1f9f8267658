import TradingPlatform.AppGuards

/-!
# What the gate lets through

The checks of the risk gate are a chain, and an intent that comes to its end has passed all of
them. Two links make the chain weaker than the list of its checks. The single-name cap reduces an
intent and lets it through at once, so that an intent above the cap never meets the check of the
gross leverage, which comes last; and the cap on options compares fractions of the sleeve's equity,
which says nothing when the equity is zero and the opposite when it is negative.
`TradingPlatform.RiskGate.soundEntry_iff` says that an opening which is let through meets every
requirement but for these two.

The cap on options looks at the verb of an intent as little as at what the agent holds already, so
it holds up exits as well: `TradingPlatform.RiskGate.allowed_exit_iff`.
-/

namespace TradingPlatform

namespace RiskGate

/-- What the options of an agent are worth, whichever way they are held. -/
def optionsValue (positions : List Position) (agentId : AgentId) : Decimal :=
  (positions.map fun position =>
    if position.agentId = agentId ∧ position.sleeve = .options
    then |position.marketValue| else 0).sum

/-- **The requirements of an entry**, one for each check. -/
structure EntryInOrder (g : RiskGate) (intent : Intent) (agentState : AgentState)
    (effectiveGross : Decimal) (positions : List Position) (ts : Time) : Prop where
  opens : g.kill.canOpenNew = true
  not_benched : (g.kill.isAgentBenched agentState.agentId ts).2 = false
  not_forcedCash : agentState.drawdownBucket ≠ .forcedCash
  not_blocked : g.wash.isBlocked intent.agentId intent.symbol ts.date = false
  proxy_not_blocked : ∀ proxy, washSaleProxies.lookup intent.symbol = some proxy →
    g.wash.isBlocked intent.agentId proxy ts.date = false
  /-- No lot of a leveraged fund is held for too long. -/
  hold : intent.sleeve = .equity → intent.symbol ∈ letfWhitelist →
    ∀ lot ∈ g.lots.openLots intent.agentId intent.symbol,
      ts.date - lot.entryDate ≤ letfMaxHoldCalendarDays
  /-- Its exposure was not reopened too often. -/
  rotation : intent.sleeve = .equity → intent.symbol ∈ letfWhitelist →
    ∀ category, letfEquivMap.lookup intent.symbol = some category →
      (g.letfActivity.filter fun record =>
        record.agentId = intent.agentId ∧ record.category = category ∧
          ts.date - letfRotationWindowDays ≤ record.actionDate).length < letfRotationThreshold
  legs : intent.sleeve = .options →
    (∃ leg ∈ intent.legs, leg.side = .buy) ∧ ∃ leg ∈ intent.legs, leg.side = .sell
  /-- The options are worth no more of the sleeve than they may. -/
  options : intent.sleeve = .options →
    optionsValue positions intent.agentId + intent.targetWeight * agentState.sleeveEquity ≤
      optionsMaxSleeveFraction * agentState.sleeveEquity
  gross_ne_zero : effectiveGross ≠ 0

/-- **The gate is sound for an entry**: what it lets through is in order. -/
def SoundEntry (g : RiskGate) (intent : Intent) (agentState : AgentState)
    (effectiveGross : Decimal) (positions : List Position) (ts : Time) : Prop :=
  (g.checkIntent intent agentState effectiveGross positions ts).2.allowed = true →
    g.EntryInOrder intent agentState effectiveGross positions ts

/-- A check before the last one vetoes an opening. -/
def VetoedBefore (g : RiskGate) (intent : Intent) (agentState : AgentState)
    (positions : List Position) (ts : Time) : Prop :=
  g.ShutOut agentState ts ∨ (g.checkWashSale intent ts).isSome = true ∨
    (g.checkLetfRules intent ts).2.isSome = true ∨
      (checkOptionsRules intent agentState positions).isSome = true

/-- **The condition**: a check before the last vetoes, or the last one does, or there is leverage
and the cap on options means something – the sleeve has equity, or the options are worth exactly
what the comparison of fractions lets through. -/
def EntryChecked (g : RiskGate) (intent : Intent) (agentState : AgentState)
    (effectiveGross : Decimal) (positions : List Position) (ts : Time) : Prop :=
  g.VetoedBefore intent agentState positions ts ∨
    (effectiveGross = 0 ∧ intent.targetWeight ≤ agentSingleNameCaps intent.agentId) ∨
    (effectiveGross ≠ 0 ∧ (intent.sleeve = .options → agentState.sleeveEquity ≤ 0 →
      optionsValue positions intent.agentId =
        (optionsMaxSleeveFraction - intent.targetWeight) * agentState.sleeveEquity))

variable {g : RiskGate} {intent : Intent} {agentState : AgentState} {effectiveGross : Decimal}
  {positions : List Position} {ts : Time}

/-! ### What each check says -/

theorem checkWashSale_eq_none_iff :
    g.checkWashSale intent ts = none ↔
      g.wash.isBlocked intent.agentId intent.symbol ts.date = false ∧
        ∀ proxy, washSaleProxies.lookup intent.symbol = some proxy →
          g.wash.isBlocked intent.agentId proxy ts.date = false := by
  unfold checkWashSale
  dsimp only
  by_cases hdirect : g.wash.isBlocked intent.agentId intent.symbol ts.date = true
  · rw [if_pos hdirect, hdirect]
    simp
  · rw [if_neg hdirect]
    rw [Bool.not_eq_true] at hdirect
    rcases hproxy : washSaleProxies.lookup intent.symbol with _ | proxy
    · simp [hdirect]
    · by_cases hblocked : g.wash.isBlocked intent.agentId proxy ts.date = true
      · simp [hblocked]
      · simp [hdirect, hblocked]

/-- The first of some dates. -/
theorem foldl_min_le (dates : List Date) (date : Date) :
    dates.foldl min date ≤ date ∧ ∀ d ∈ dates, dates.foldl min date ≤ d := by
  induction dates generalizing date with
  | nil => exact ⟨le_rfl, fun _ h => absurd h List.not_mem_nil⟩
  | cons d dates ih =>
    obtain ⟨hfirst, hrest⟩ := ih (min date d)
    refine ⟨hfirst.trans (min_le_left _ _), fun d' hd' => ?_⟩
    rcases List.mem_cons.mp hd' with rfl | hd'
    · exact hfirst.trans (min_le_right _ _)
    · exact hrest d' hd'

/-- A purchase that passes the check of the holding period. -/
theorem hold_of_checkLetf (hopen : intent.action.Opening) (h : g.checkLetf intent ts = none) :
    ∀ lot ∈ g.lots.openLots intent.agentId intent.symbol,
      ts.date - lot.entryDate ≤ letfMaxHoldCalendarDays := by
  unfold checkLetf at h
  rw [if_neg hopen.not_closing] at h
  intro lot hlot
  have hdate : lot.entryDate ∈
      (g.lots.openLots intent.agentId intent.symbol).map (·.entryDate) :=
    List.mem_map_of_mem hlot
  split at h
  · rename_i hnil
    rw [hnil] at hdate
    exact absurd hdate List.not_mem_nil
  · rename_i date dates hdates
    dsimp only at h
    split_ifs at h with hlong
    obtain ⟨hfirst, hrest⟩ := foldl_min_le dates date
    have holdest : dates.foldl min date ≤ lot.entryDate := by
      rw [hdates] at hdate
      rcases List.mem_cons.mp hdate with heq | hdate
      · exact heq ▸ hfirst
      · exact hrest _ hdate
    exact (sub_le_sub_left holdest _).trans (not_lt.mp hlong)

theorem checkLetfRotation_eq_none_iff :
    (g.checkLetfRotation intent ts).2 = none ↔
      ∀ category, letfEquivMap.lookup intent.symbol = some category →
        (g.letfActivity.filter fun record =>
          record.agentId = intent.agentId ∧ record.category = category ∧
            ts.date - letfRotationWindowDays ≤ record.actionDate).length <
          letfRotationThreshold := by
  unfold checkLetfRotation
  rcases letfEquivMap.lookup intent.symbol with _ | category
  · simp
  · dsimp only
    split_ifs with hoften
    · simpa using hoften
    · simpa using hoften

theorem not_allowed_of_checkLetfRules {decision : RiskDecision}
    (h : (g.checkLetfRules intent ts).2 = some decision) : decision.allowed = false := by
  unfold checkLetfRules at h
  split at h
  · rcases hheld : g.checkLetf intent ts with _ | d
    · rw [hheld] at h
      dsimp only at h
      split_ifs at h
      unfold checkLetfRotation at h
      split at h
      · cases h
      · dsimp only at h
        split at h
        · cases h
          rfl
        · cases h
    · rw [hheld] at h
      cases h
      exact not_allowed_of_checkLetf hheld
  · cases h

/-- What passes the checks of a leveraged fund. -/
theorem letf_of_checkLetfRules (hopen : intent.action.Opening)
    (h : (g.checkLetfRules intent ts).2 = none) (hsleeve : intent.sleeve = .equity)
    (hsymbol : intent.symbol ∈ letfWhitelist) :
    g.checkLetf intent ts = none ∧ (g.checkLetfRotation intent ts).2 = none := by
  unfold checkLetfRules at h
  rw [if_pos ⟨hsleeve, hsymbol⟩] at h
  rcases hheld : g.checkLetf intent ts with _ | d
  · rw [hheld] at h
    dsimp only at h
    rw [if_pos hopen] at h
    exact ⟨rfl, h⟩
  · rw [hheld] at h
    cases h

/-- The cap on options, as the code compares it. -/
theorem checkOptions_eq_none_iff (equity : Decimal) :
    checkOptions intent positions equity = none ↔
      equity = 0 ∨ optionsValue positions intent.agentId / equity + intent.targetWeight ≤
        optionsMaxSleeveFraction := by
  unfold checkOptions optionsValue
  generalize (positions.map fun position =>
    if position.agentId = intent.agentId ∧ position.sleeve = .options
    then |position.marketValue| else 0).sum = value
  by_cases hzero : equity = 0
  · simp [hzero]
  · rw [if_neg hzero, or_iff_right hzero, ← not_lt]
    dsimp only
    by_cases hmore : optionsMaxSleeveFraction < value / equity + intent.targetWeight
    · rw [if_pos hmore]
      exact iff_of_false (Option.some_ne_none _) (not_not.mpr hmore)
    · rw [if_neg hmore]
      exact iff_of_true rfl hmore

/-- Legs that pass are on both sides. -/
theorem both_sides_of_checkOptionsStructure (h : checkOptionsStructure intent = none) :
    (∃ leg ∈ intent.legs, leg.side = .buy) ∧ ∃ leg ∈ intent.legs, leg.side = .sell := by
  unfold checkOptionsStructure at h
  split at h
  · cases h
  · rename_i leg legs hlegs
    split_ifs at h with hall
    have hother : ∃ leg' ∈ legs, leg'.side ≠ leg.side := by
      simpa using hall
    obtain ⟨leg', hleg', hne⟩ := hother
    have hmem : leg ∈ intent.legs := hlegs ▸ List.mem_cons_self
    have hmem' : leg' ∈ intent.legs := hlegs ▸ List.mem_cons_of_mem _ hleg'
    cases hside : leg.side with
    | buy =>
      refine ⟨⟨leg, hmem, hside⟩, leg', hmem', ?_⟩
      cases hside' : leg'.side with
      | buy => exact absurd (hside'.trans hside.symm) hne
      | sell => rfl
    | sell =>
      refine ⟨⟨leg', hmem', ?_⟩, leg, hmem, hside⟩
      cases hside' : leg'.side with
      | buy => rfl
      | sell => exact absurd (hside'.trans hside.symm) hne

/-- What passes the rules for options. -/
theorem options_of_checkOptionsRules (hopen : intent.action.Opening)
    (h : checkOptionsRules intent agentState positions = none)
    (hsleeve : intent.sleeve = .options) :
    checkOptions intent positions agentState.sleeveEquity = none ∧
      checkOptionsStructure intent = none := by
  unfold checkOptionsRules at h
  rw [if_pos hsleeve] at h
  rcases hcap : checkOptions intent positions agentState.sleeveEquity with _ | d
  · rw [hcap] at h
    dsimp only at h
    rw [if_pos hopen] at h
    exact ⟨rfl, h⟩
  · rw [hcap] at h
    cases h

theorem allowed_checkWeight_iff (hopen : intent.action.Opening) :
    (checkWeight intent effectiveGross).allowed = true ↔
      agentSingleNameCaps intent.agentId < intent.targetWeight ∨ effectiveGross ≠ 0 := by
  unfold checkWeight
  dsimp only
  split_ifs with hcap hgross
  · exact iff_of_true rfl (Or.inl hcap)
  · refine iff_of_false Bool.false_ne_true ?_
    rintro (hc | hc)
    · exact hcap hc
    · exact hc hgross.1
  · exact iff_of_true rfl (Or.inr fun hc => hgross ⟨hc, hopen⟩)

/-! ### The chain -/

/-- No check reads the kill switch after the first ones. -/
theorem checkLetfRules_withKill (g : RiskGate) (kill : KillSwitchEngine) (intent : Intent)
    (ts : Time) :
    (checkLetfRules { g with kill := kill } intent ts).2 = (g.checkLetfRules intent ts).2 := by
  have hrotation : (checkLetfRotation { g with kill := kill } intent ts).2 =
      (g.checkLetfRotation intent ts).2 := by
    unfold checkLetfRotation
    rcases letfEquivMap.lookup intent.symbol with _ | category
    · rfl
    · dsimp only
      split <;> rfl
  have hheld : checkLetf { g with kill := kill } intent ts = g.checkLetf intent ts := rfl
  unfold checkLetfRules
  rw [hheld]
  by_cases hletf : intent.sleeve = .equity ∧ intent.symbol ∈ letfWhitelist
  · rw [if_pos hletf, if_pos hletf]
    rcases g.checkLetf intent ts with _ | decision
    · by_cases hopen : intent.action.Opening
      · dsimp only
        rw [if_pos hopen, if_pos hopen]
        exact hrotation
      · dsimp only
        rw [if_neg hopen, if_neg hopen]
    · rfl
  · rw [if_neg hletf, if_neg hletf]

/-- The rules after the first checks: one of them vetoes, or the last one decides. -/
theorem allowed_checkRules_iff (hopen : intent.action.Opening) :
    (g.checkRules intent agentState effectiveGross positions ts).2.allowed = true ↔
      ¬((g.checkWashSale intent ts).isSome = true ∨
        (g.checkLetfRules intent ts).2.isSome = true ∨
          (checkOptionsRules intent agentState positions).isSome = true) ∧
      (checkWeight intent effectiveGross).allowed = true := by
  rw [checkRules, if_pos hopen]
  rcases hwash : g.checkWashSale intent ts with _ | decision
  · rcases hletf : g.checkLetfRules intent ts with ⟨g', _ | decision⟩
    · rcases hoptions : checkOptionsRules intent agentState positions with _ | decision
      · simp
      · simpa using not_allowed_of_checkOptionsRules hoptions
    · have hveto := not_allowed_of_checkLetfRules (congrArg Prod.snd hletf)
      simpa using hveto
  · simpa using not_allowed_of_checkWashSale hwash

/-- **What an opening that is let through has passed.** -/
theorem allowed_checkIntent_iff (hopen : intent.action.Opening) :
    (g.checkIntent intent agentState effectiveGross positions ts).2.allowed = true ↔
      ¬g.VetoedBefore intent agentState positions ts ∧
        (agentSingleNameCaps intent.agentId < intent.targetWeight ∨ effectiveGross ≠ 0) := by
  rw [← Bool.not_eq_false, not_allowed_checkIntent_iff hopen, not_or, Bool.not_eq_false,
    allowed_checkRules_iff hopen, allowed_checkWeight_iff hopen, ← and_assoc, ← not_or]
  have hwash : checkWashSale
      { g with kill := (g.kill.isAgentBenched agentState.agentId ts).1 } intent ts =
        g.checkWashSale intent ts := rfl
  rw [hwash, checkLetfRules_withKill, VetoedBefore]

/-- What an opening meets that no check before the last vetoes, but for the gross leverage and the
cap on options. -/
theorem entryInOrder_of_not_vetoed (hopen : intent.action.Opening)
    (h : ¬g.VetoedBefore intent agentState positions ts) (hgross : effectiveGross ≠ 0)
    (hoptions : intent.sleeve = .options →
      optionsValue positions intent.agentId + intent.targetWeight * agentState.sleeveEquity ≤
        optionsMaxSleeveFraction * agentState.sleeveEquity) :
    g.EntryInOrder intent agentState effectiveGross positions ts := by
  simp only [VetoedBefore, ShutOut, not_or, Bool.not_eq_true, Option.isSome_eq_false_iff,
    Option.isNone_iff_eq_none] at h
  obtain ⟨⟨-, hblocked, hbenched, hcash⟩, hwash, hletf, hrules⟩ := h
  obtain ⟨hdirect, hproxy⟩ := checkWashSale_eq_none_iff.mp hwash
  constructor
  case opens => exact Bool.eq_true_of_not_eq_false hblocked
  case not_benched => exact hbenched
  case not_forcedCash => exact hcash
  case not_blocked => exact hdirect
  case proxy_not_blocked => exact hproxy
  case hold =>
    exact fun hsleeve hsymbol =>
      hold_of_checkLetf hopen (letf_of_checkLetfRules hopen hletf hsleeve hsymbol).1
  case rotation =>
    exact fun hsleeve hsymbol => checkLetfRotation_eq_none_iff.mp
      (letf_of_checkLetfRules hopen hletf hsleeve hsymbol).2
  case legs =>
    exact fun hsleeve =>
      both_sides_of_checkOptionsStructure (options_of_checkOptionsRules hopen hrules hsleeve).2
  case options => exact hoptions
  case gross_ne_zero => exact hgross

/-- **When the cap on options means what it says**: an intent that passes the comparison of
fractions is within the cap exactly if the sleeve has equity, or the options are worth just that. -/
theorem within_cap_iff {equity : Decimal} (h : checkOptions intent positions equity = none) :
    optionsValue positions intent.agentId + intent.targetWeight * equity ≤
        optionsMaxSleeveFraction * equity ↔
      (equity ≤ 0 → optionsValue positions intent.agentId =
        (optionsMaxSleeveFraction - intent.targetWeight) * equity) := by
  have hvalue : 0 ≤ optionsValue positions intent.agentId := by
    refine List.sum_nonneg fun q hq => ?_
    obtain ⟨position, -, rfl⟩ := List.mem_map.mp hq
    split_ifs
    · exact abs_nonneg _
    · exact le_rfl
  rw [checkOptions_eq_none_iff] at h
  rw [sub_mul, eq_sub_iff_add_eq]
  generalize optionsValue positions intent.agentId = value at hvalue h ⊢
  rcases lt_trichotomy equity 0 with hneg | rfl | hpos
  · -- the comparison of fractions turns around
    have hturned : optionsMaxSleeveFraction * equity ≤ value + intent.targetWeight * equity := by
      have hpassed := mul_le_mul_of_nonpos_right (h.resolve_left hneg.ne) hneg.le
      rwa [add_mul, div_mul_cancel₀ _ hneg.ne] at hpassed
    exact ⟨fun hle _ => le_antisymm hle hturned, fun heq => (heq hneg.le).le⟩
  · rw [mul_zero, mul_zero, add_zero]
    exact ⟨fun hle _ => le_antisymm hle hvalue, fun heq => (heq le_rfl).le⟩
  · refine iff_of_true ?_ fun hle => absurd hpos hle.not_gt
    have hpassed := mul_le_mul_of_nonneg_right (h.resolve_left hpos.ne') hpos.le
    rwa [add_mul, div_mul_cancel₀ _ hpos.ne'] at hpassed

/-- **When the gate is sound for an entry**: exactly when an intent above the single-name cap does
not come without any leverage, and an intent for options not to a sleeve without equity, unless a
check before the last vetoes it. -/
theorem soundEntry_iff (g : RiskGate) {intent : Intent} (hopen : intent.action.Opening)
    (agentState : AgentState) (effectiveGross : Decimal) (positions : List Position) (ts : Time) :
    g.SoundEntry intent agentState effectiveGross positions ts ↔
      g.EntryChecked intent agentState effectiveGross positions ts := by
  rw [SoundEntry, EntryChecked, allowed_checkIntent_iff hopen]
  by_cases hveto : g.VetoedBefore intent agentState positions ts
  · exact iff_of_true (fun hc => absurd hveto hc.1) (Or.inl hveto)
  rw [or_iff_right hveto]
  have hcap : intent.sleeve = .options →
      checkOptions intent positions agentState.sleeveEquity = none := by
    intro hsleeve
    simp only [VetoedBefore, not_or, Bool.not_eq_true, Option.isSome_eq_false_iff,
      Option.isNone_iff_eq_none] at hveto
    exact (options_of_checkOptionsRules hopen hveto.2.2.2 hsleeve).1
  by_cases hgross : effectiveGross = 0
  · -- the last check is only made below the single-name cap
    refine .trans ?_ (or_iff_left fun hc => hc.1 hgross).symm
    constructor
    · intro hsound
      refine ⟨hgross, not_lt.mp fun hc => ?_⟩
      exact (hsound ⟨hveto, Or.inl hc⟩).gross_ne_zero hgross
    · rintro ⟨-, hle⟩ ⟨-, hc | hc⟩
      · exact absurd hle hc.not_ge
      · exact absurd hgross hc
  · refine .trans ?_ (or_iff_right fun hc => hgross hc.1).symm
    rw [and_iff_right hgross]
    constructor
    · exact fun hsound hsleeve => (within_cap_iff (hcap hsleeve)).mp
        ((hsound ⟨hveto, Or.inr hgross⟩).options hsleeve)
    · exact fun hmeans _ => entryInOrder_of_not_vetoed hopen hveto hgross fun hsleeve =>
        (within_cap_iff (hcap hsleeve)).mpr (hmeans hsleeve)

/-- A tenth of a sleeve, on a day on which nothing is wrong. -/
theorem soundEntry_tenthOf :
    (new 120).SoundEntry (App.tenthOf "SPY") App.calmState 1 [] 0 :=
  (soundEntry_iff (new 120) (Or.inl rfl) App.calmState 1 [] 0).mpr
    (Or.inr (Or.inr ⟨one_ne_zero, fun hc => absurd hc (by decide)⟩))

/-- **A purchase without leverage**: a fifth of a sleeve is above the single-name cap, so it is
reduced and let through before the gross leverage, which is zero, is looked at. -/
theorem not_soundEntry_fifth :
    ¬(new 120).SoundEntry { App.tenthOf "SPY" with targetWeight := 20 / 100 } App.calmState 0 []
      0 := by
  intro h
  exact (h (by decide +kernel)).gross_ne_zero rfl

/-! ### Exits -/

/-- **When an exit is let through**: exactly when it is not for options, or the options are within
their cap already. -/
theorem allowed_exit_iff (g : RiskGate) {intent : Intent} {agentState : AgentState} {ts : Time}
    (hclosing : intent.action.Closing)
    (hbench : (g.kill.isAgentBenched agentState.agentId ts).2 = false) (effectiveGross : Decimal)
    (positions : List Position) :
    (g.checkIntent intent agentState effectiveGross positions ts).2.allowed = true ↔
      (intent.sleeve = .options → agentState.sleeveEquity ≠ 0 →
        optionsValue positions intent.agentId / agentState.sleeveEquity + intent.targetWeight ≤
          optionsMaxSleeveFraction) := by
  have hopening : ¬intent.action.Opening := fun hc => hc.not_closing hclosing
  have hletf : ∀ g : RiskGate, g.checkLetfRules intent ts = (g, none) := by
    intro g
    have hheld : g.checkLetf intent ts = none := if_pos hclosing
    rw [checkLetfRules, hheld, if_neg hopening, ite_self]
  have hweight : (checkWeight intent effectiveGross).allowed = true := by
    rw [checkWeight]
    split_ifs with hcap hgross
    · rfl
    · exact absurd hgross.2 hopening
    · rfl
  rw [checkIntent, if_neg fun hc => hc.2 hclosing, if_neg fun hc => hopening hc.1]
  dsimp only
  rw [hbench, if_neg Bool.false_ne_true, if_neg fun hc => hopening hc.2, checkRules,
    if_neg hopening]
  dsimp only
  rw [hletf]
  dsimp only
  by_cases hsleeve : intent.sleeve = .options
  · have hcap := @checkOptions_eq_none_iff intent positions agentState.sleeveEquity
    rw [checkOptionsRules, if_pos hsleeve, forall_prop_of_true hsleeve, ← or_iff_not_imp_left,
      ← hcap]
    rcases hdecision : checkOptions intent positions agentState.sleeveEquity with _ | decision
    · dsimp only
      rw [if_neg hopening]
      exact iff_of_true hweight rfl
    · have hrules : checkOptionsRules intent agentState positions = some decision := by
        rw [checkOptionsRules, if_pos hsleeve, hdecision]
      dsimp only
      rw [not_allowed_of_checkOptionsRules hrules]
      exact iff_of_false Bool.false_ne_true (Option.some_ne_none _)
  · rw [checkOptionsRules, if_neg hsleeve]
    exact iff_of_true hweight fun hc => absurd hc hsleeve

/-- Sonnet wants to be rid of what it has of a fund, in some sleeve. -/
def closeOut (symbol : String) (sleeve : Sleeve) : Intent :=
  { App.tenthOf symbol with action := .close, targetWeight := 0, sleeve := sleeve }

theorem allowed_closeOut_equity :
    ((new 120).checkIntent (closeOut "SPY" .equity) App.calmState 1 [] 0).2.allowed = true :=
  (allowed_exit_iff (new 120) (Or.inr rfl) rfl 1 []).mpr fun hc => absurd hc (by decide)

/-- **An exit that is held up**: the options are worth three tenths of the sleeve, and may not be
closed because they are worth too much. -/
theorem not_allowed_closeOut_options :
    ((new 120).kill.isAgentBenched App.calmState.agentId 0).2 = false ∧
      ((new 120).checkIntent (closeOut "SPY" .options) App.calmState 1
        [⟨.sonnet, "SPY251219C00500000", 10, 900, .options⟩] 0).2.allowed = false := by
  decide +kernel

end RiskGate

end TradingPlatform
