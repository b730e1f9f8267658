import TradingPlatform.Execution.RecordCodec
import TradingPlatform.Execution.Sizing
import TradingPlatform.Extended
import TradingPlatform.Json.Convert

/-!
# The reallocation of capital

Every four weeks the manager is asked to move capital between the sleeves. It answers with dollars:
what every sleeve has, and what it shall have. The job makes multipliers of them, new over current,
and holds each to a step of a quarter. Where there is no current allocation to divide by, the
multiplier is the number of dollars itself; the comment says that the numbers are then divided by
their mean, but the job does that only if *no* sleeve has a current allocation. If it is there for
some sleeves – or under a key that is spelled another way – the dollars of the others stay dollars,
and the clamp makes a raise by a quarter of them.

So what is written depends on the currency the answer is in, if and only if there is a current
allocation and a sleeve is missing from it (`TradingPlatform.Response.unitFree_iff`).

The multipliers are exact here, and the file holds them: how they are rounded and spelled, and that
a write can fail, is left out.
-/

namespace TradingPlatform

/-! ### The answer -/

/-- What the source's `Decimal` makes of the `str` of a value; an infinity and a not-a-number are
among them. -/
abbrev Amount := Extended Decimal

/-- The number that is a decimal, without its exponent. -/
def DecimalValue.amount : DecimalValue → Amount
  | .finite d => .finite d.toRat
  | .infinity negative => .infinity negative
  | .nan _ signaling _ => .nan signaling

/-- An object of the answer: its keys, and the amounts of the values that are some. -/
abbrev Amounts := Dict Str (Option Amount)

/-- The manager's answer, as far as it is read. -/
structure Response where
  newAllocation : Option Amounts
  currentAllocation : Option Amounts
  /-- The older shapes: a map of multipliers, or the answer itself. -/
  sleeveWeights : Option Amounts
  flat : Amounts

namespace Response

section Json

variable {F : Type} (ff : FloatFormat F) (tables : UnicodeTables)

def amountOf (v : JsonValue F) : Option Amount :=
  (v.strToDecimal ff tables).toOption.map DecimalValue.amount

def amountsOf (fields : List (Str × JsonValue F)) : Amounts :=
  .ofList (fields.map fun field => (field.1, amountOf ff tables field.2))

/-- The amounts of a value, if it is an object. -/
def amountsOf? : JsonValue F → Option Amounts
  | .obj fields => some (amountsOf ff tables fields)
  | .null | .bool _ | .int _ | .float _ | .str _ | .arr _ => none

/-- The answer that an object is. -/
def ofFields (fields : List (Str × JsonValue F)) : Response where
  newAllocation := (JsonValue.field? fields "new_allocation").bind (amountsOf? ff tables)
  currentAllocation := (JsonValue.field? fields "current_allocation").bind (amountsOf? ff tables)
  sleeveWeights := (JsonValue.field? fields "sleeve_weights").bind (amountsOf? ff tables)
  flat := amountsOf ff tables fields

end Json

/-- The answer with nothing in it. -/
def empty : Response := ⟨none, none, none, .empty⟩

/-! ### From dollars to multipliers -/

/-- An entry of an object that is for a sleeve, with its key as it is spelled. -/
structure Entry where
  key : Str
  agentId : AgentId
  amount : Amount

variable (lower : Str → Str)

/-- The entries whose key names an agent and whose value is an amount. -/
def entriesOf (amounts : Amounts) : List Entry :=
  amounts.entries.filterMap fun e =>
    match AgentId.ofValue (lower e.1), e.2 with
    | some agentId, some amount => some ⟨e.1, agentId, amount⟩
    | _, _ => none

/-- The current allocation under a key, if there is one. -/
def baseline (current : Option Amounts) (key : Str) : Option Amount :=
  (current.bind (·.get? key)).join

/-- The multiplier of an entry. -/
def multiplier (current : Option Amounts) (e : Entry) : Option Amount :=
  match baseline current e.key with
  | none => some e.amount
  | some base =>
    match base.isPos? with
    | none => none
    | some true => e.amount.div? base
    | some false => some e.amount

/-- Divide by the mean, if it is positive. -/
def rebase (mapped : Dict AgentId Amount) : Option (Dict AgentId Amount) :=
  if mapped.values = [] then some mapped
  else do
    let total ← Extended.sum? mapped.values
    let mean ← total.div? (.finite mapped.values.length)
    if ← mean.isPos? then mapped.mapValues? (·.div? mean) else some mapped

/-- There is a current allocation, of some sleeve. -/
def hasCurrent (current : Option Amounts) : Bool := current.any fun amounts => amounts.entries ≠ []

/-- The multipliers of an answer in dollars. -/
def mappedOf (new : Amounts) (current : Option Amounts) : Option (Dict AgentId Amount) := do
  let multipliers ← (entriesOf lower new).mapM fun e => (multiplier current e).map (e.agentId, ·)
  let mapped := Dict.ofList multipliers
  if hasCurrent current then some mapped else rebase mapped

/-- The multipliers of the older shapes. -/
def legacyOf (weights : Amounts) : Dict AgentId Amount :=
  .ofList ((entriesOf lower weights).map fun e => (e.agentId, e.amount))

/-- What a sleeve may change by in four weeks. -/
def stepLo : Decimal := 75 / 100

def stepHi : Decimal := 125 / 100

/-- **The multipliers that are written**, unless an exception is raised on the way. -/
def weights (r : Response) : Option (Dict AgentId Decimal) := do
  let mapped ←
    match r.newAllocation with
    | some new =>
      if new.entries = [] then some (legacyOf lower (r.sleeveWeights.getD r.flat))
      else mappedOf lower new r.currentAllocation
    | none => some (legacyOf lower (r.sleeveWeights.getD r.flat))
  mapped.mapValues? (·.clamp? stepLo stepHi)

/-! ### An answer in dollars -/

variable {lower}

/-- **An answer in dollars**: there is a new allocation, and its amounts are positive. -/
structure InDollars (r : Response) (new : Amounts) : Prop where
  isNew : r.newAllocation = some new
  ne : new.entries ≠ []
  pos : ∀ v ∈ new.values, ∃ dollars : Decimal, 0 < dollars ∧ v = some (.finite dollars)

/-- The dollars of an entry. -/
def Entry.dollars (e : Entry) : Decimal := e.amount.toFinite?.getD 0

variable {r : Response} {new : Amounts} {current : Option Amounts} {e : Entry}

theorem mem_entriesOf_iff {amounts : Amounts} : e ∈ entriesOf lower amounts ↔
    (e.key, some e.amount) ∈ amounts.entries ∧ AgentId.ofValue (lower e.key) = some e.agentId := by
  rw [entriesOf, List.mem_filterMap]
  constructor
  · rintro ⟨⟨key, v⟩, hmem, heq⟩
    cases hagent : AgentId.ofValue (lower key) with
    | none => simp [hagent] at heq
    | some agentId =>
      cases v with
      | none => simp [hagent] at heq
      | some amount =>
        simp only [hagent, Option.some.injEq] at heq
        subst heq
        exact ⟨hmem, hagent⟩
  · rintro ⟨hmem, hagent⟩
    exact ⟨_, hmem, by simp [hagent]⟩

theorem InDollars.entry (h : r.InDollars new) (he : e ∈ entriesOf lower new) :
    0 < e.dollars ∧ e.amount = .finite e.dollars := by
  obtain ⟨dollars, hpos, hv⟩ := h.pos _ (List.mem_map_of_mem (mem_entriesOf_iff.mp he).1)
  have hamount : e.amount = .finite dollars := Option.some.inj hv
  have hdollars : e.dollars = dollars := by rw [Entry.dollars, hamount]; rfl
  rw [hdollars]
  exact ⟨hpos, hamount⟩

/-- The current allocation is there, and is positive. -/
def HasBaseline (current : Option Amounts) (e : Entry) : Prop :=
  ∃ base, baseline current e.key = some base ∧ base.isPos? = some true

/-- The current allocation is there, and is no number. -/
def BaselineNan (current : Option Amounts) (e : Entry) : Prop :=
  ∃ signaling, baseline current e.key = some (.nan signaling)

/-- The multiplier of an entry in dollars, unless its current allocation is no number. -/
def multiple (current : Option Amounts) (e : Entry) : Decimal :=
  match baseline current e.key with
  | some (.finite base) => if 0 < base then e.dollars / base else e.dollars
  | some (.infinity false) => 0
  | some (.infinity true) | some (.nan _) | none => e.dollars

theorem multiplier_of_nan (h : BaselineNan current e) : multiplier current e = none := by
  obtain ⟨signaling, hbase⟩ := h
  rw [multiplier, hbase]
  rfl

theorem multiplier_eq_multiple (he : e.amount = .finite e.dollars)
    (h : ¬BaselineNan current e) : multiplier current e = some (.finite (multiple current e)) := by
  rw [multiplier, multiple]
  cases hbase : baseline current e.key with
  | none => exact congrArg some he
  | some base =>
    cases base with
    | finite base =>
      by_cases hpos : 0 < base
      · simp only [Extended.isPos?, hpos, decide_true, if_true]
        rw [he, Extended.div?_finite _ hpos.ne']
      · simp only [Extended.isPos?, hpos, decide_false, if_false]
        rw [he]
    | infinity negative =>
      cases negative with
      | false => simp only [Extended.isPos?, Bool.not_false, he, Extended.div?]
      | true => simp only [Extended.isPos?, Bool.not_true, he]
    | nan signaling => exact absurd ⟨signaling, hbase⟩ h

/-- Without a current allocation the multiplier is the number of dollars. -/
theorem multiple_of_not_hasBaseline (h : ¬HasBaseline current e) :
    multiple current e = e.dollars := by
  rw [multiple]
  cases hbase : baseline current e.key with
  | none => rfl
  | some base =>
    cases base with
    | finite base =>
      refine if_neg fun hpos => h ⟨_, hbase, ?_⟩
      rw [Extended.isPos?, decide_eq_true hpos]
    | infinity negative =>
      cases negative with
      | false => exact absurd ⟨_, hbase, rfl⟩ h
      | true => rfl
    | nan signaling => rfl

/-! ### What is written -/

/-- A multiplier, held to a step. -/
def clampStep (x : Decimal) : Decimal := max stepLo (min stepHi x)

variable (lower) in
/-- The dollars of the sleeves: of each those of its last entry. -/
def allotted (new : Amounts) : Dict AgentId Decimal :=
  .ofList ((entriesOf lower new).map fun e => (e.agentId, e.dollars))

variable (lower) in
/-- The multiples of the sleeves: of each that of its last entry. -/
def multiplesOf (new : Amounts) (current : Option Amounts) : Dict AgentId Decimal :=
  .ofList ((entriesOf lower new).map fun e => (e.agentId, multiple current e))

/-- The mean of the values. -/
def meanOf (d : Dict AgentId Decimal) : Decimal := d.values.sum / d.values.length

theorem allotted_pos (h : r.InDollars new) {dollars : Decimal}
    (hmem : dollars ∈ (allotted lower new).values) : 0 < dollars := by
  obtain ⟨agentId, hget⟩ := Dict.mem_values_iff.mp hmem
  obtain ⟨e, he, heq⟩ := List.mem_map.mp (Dict.mem_of_get?_ofList hget)
  cases heq
  exact (h.entry he).1

theorem meanOf_allotted_pos (h : r.InDollars new) (hne : (allotted lower new).values ≠ []) :
    0 < meanOf (allotted lower new) := by
  have hsum : 0 < (allotted lower new).values.sum :=
    List.sum_pos _ (fun _ hx => allotted_pos h hx) hne
  have hlength : (0 : Decimal) < (allotted lower new).values.length := by
    exact_mod_cast List.length_pos_of_ne_nil hne
  exact div_pos hsum hlength

/-- Positive dollars are divided by their mean. -/
theorem rebase_allotted (h : r.InDollars new) :
    rebase ((allotted lower new).mapValues .finite) =
      some ((allotted lower new).mapValues fun x => .finite (x / meanOf (allotted lower new))) := by
  have hvalues : ((allotted lower new).mapValues Extended.finite).values =
      (allotted lower new).values.map .finite := by
    rw [Dict.values, Dict.values, Dict.mapValues, List.map_map, List.map_map]
    rfl
  rw [rebase, hvalues]
  by_cases hnone : (allotted lower new).values = []
  · -- there is nothing to divide
    have hentries : (allotted lower new).entries = [] := List.map_eq_nil_iff.mp hnone
    rw [hnone, if_pos List.map_nil]
    refine congrArg some (Dict.eq_of_entries_eq ?_)
    simp only [Dict.mapValues, hentries, List.map_nil]
  · have hlength : ((allotted lower new).values.length : Decimal) ≠ 0 := by
      exact_mod_cast (List.length_pos_of_ne_nil hnone).ne'
    have hmean := meanOf_allotted_pos h hnone
    rw [if_neg (by simpa using hnone), Extended.sum?_finite, List.length_map, Option.bind_eq_bind,
      Option.bind_some, Extended.div?_finite _ hlength, Option.bind_some, Extended.isPos?]
    show (if decide (0 < meanOf (allotted lower new)) = true then _ else _) = _
    rw [if_pos (decide_eq_true hmean), Dict.mapValues?_mapValues]
    exact Dict.mapValues?_eq_some fun x _ => Extended.div?_finite x hmean.ne'

variable (lower) in
/-- What is written of an answer in dollars, before it is held to a step. -/
def rebased (new : Amounts) (current : Option Amounts) : Dict AgentId Decimal :=
  if hasCurrent current then multiplesOf lower new current
  else (allotted lower new).mapValues (· / meanOf (allotted lower new))

theorem not_hasBaseline_of_hasCurrent (h : hasCurrent current = false) (e : Entry) :
    ¬HasBaseline current e := by
  rintro ⟨base, hbase, -⟩
  rw [baseline] at hbase
  cases current with
  | none => cases hbase
  | some amounts =>
    have hnil : amounts.entries = [] := by simpa [hasCurrent] using h
    rw [Option.bind_some, Dict.get?, hnil] at hbase
    cases hbase

theorem weights_eq_bind (h : r.InDollars new) : weights lower r =
    (mappedOf lower new r.currentAllocation).bind (·.mapValues? (·.clamp? stepLo stepHi)) := by
  rw [weights, h.isNew]
  dsimp only
  rw [if_neg h.ne]
  rfl

/-- **Nothing is written** of an answer with a not-a-number for a current allocation: the
comparison with zero raises an exception. -/
theorem weights_of_nan (h : r.InDollars new) (he : e ∈ entriesOf lower new)
    (hnan : BaselineNan r.currentAllocation e) : weights lower r = none := by
  have hmapM : (entriesOf lower new).mapM (fun e =>
      (multiplier r.currentAllocation e).map (e.agentId, ·)) = none :=
    Dict.mapM_eq_none he (by rw [multiplier_of_nan hnan, Option.map_none])
  rw [weights_eq_bind h, mappedOf, hmapM]
  rfl

/-- **What is written** of any other answer in dollars. -/
theorem weights_eq (h : r.InDollars new)
    (hnan : ∀ e ∈ entriesOf lower new, ¬BaselineNan r.currentAllocation e) :
    weights lower r = some ((rebased lower new r.currentAllocation).mapValues clampStep) := by
  have hmapM : (entriesOf lower new).mapM (fun e =>
      (multiplier r.currentAllocation e).map (e.agentId, ·)) = some ((entriesOf lower new).map
        fun e => (e.agentId, .finite (multiple r.currentAllocation e))) := by
    refine Dict.mapM_eq_some_map fun e he => ?_
    rw [multiplier_eq_multiple (h.entry he).2 (hnan e he), Option.map_some]
  have hofList : Dict.ofList ((entriesOf lower new).map
      fun e => (e.agentId, Extended.finite (multiple r.currentAllocation e))) =
        (multiplesOf lower new r.currentAllocation).mapValues .finite := by
    rw [multiplesOf, ← Dict.ofList_map, List.map_map]
    rfl
  have hclamp : ∀ d : Dict AgentId Decimal,
      (d.mapValues Extended.finite).mapValues? (·.clamp? stepLo stepHi) =
        some (d.mapValues clampStep) := by
    intro d
    rw [Dict.mapValues?_mapValues]
    exact Dict.mapValues?_eq_some fun x _ => rfl
  rw [weights_eq_bind h, mappedOf, hmapM, Option.bind_eq_bind, Option.bind_some, hofList, rebased]
  cases hcurrent : hasCurrent r.currentAllocation with
  | true => exact hclamp _
  | false =>
    have hallotted : multiplesOf lower new r.currentAllocation = allotted lower new := by
      rw [multiplesOf, allotted]
      refine congrArg Dict.ofList (List.map_congr_left fun e _ => ?_)
      rw [multiple_of_not_hasBaseline (not_hasBaseline_of_hasCurrent hcurrent e)]
    rw [hallotted]
    simp only [Bool.false_eq_true, if_false]
    rw [rebase_allotted h, Option.bind_some, ← hclamp, Dict.mapValues_mapValues]
    rfl

variable (lower) in
/-- The entry of a sleeve that counts: the last one. -/
def lastOf (new : Amounts) (agentId : AgentId) : Option Entry :=
  ((entriesOf lower new).filter (·.agentId = agentId)).getLast?

theorem mem_of_lastOf {agentId : AgentId} (h : lastOf lower new agentId = some e) :
    e ∈ entriesOf lower new ∧ e.agentId = agentId := by
  obtain ⟨hmem, hagent⟩ := List.mem_filter.mp (List.mem_of_getLast? h)
  exact ⟨hmem, of_decide_eq_true hagent⟩

theorem get?_ofList_entries (f : Entry → Decimal) (agentId : AgentId) :
    (Dict.ofList ((entriesOf lower new).map fun e => (e.agentId, f e))).get? agentId =
      (lastOf lower new agentId).map f := by
  rw [Dict.get?_ofList, lastOf, List.filter_map, List.getLast?_map, Option.map_map]
  rfl

/-! ### Another currency -/

/-- The same amounts in another currency. -/
def scaleAmounts (c : Decimal) (amounts : Amounts) : Amounts :=
  amounts.mapValues (·.map (.scale c))

/-- The same answer with its dollars in another currency. -/
def scale (c : Decimal) (r : Response) : Response :=
  { r with
    newAllocation := r.newAllocation.map (scaleAmounts c)
    currentAllocation := r.currentAllocation.map (scaleAmounts c) }

def Entry.scale (c : Decimal) (e : Entry) : Entry := { e with amount := e.amount.scale c }

theorem entriesOf_scaleAmounts (c : Decimal) (amounts : Amounts) :
    entriesOf lower (scaleAmounts c amounts) = (entriesOf lower amounts).map (Entry.scale c) := by
  rw [entriesOf, entriesOf, List.map_filterMap, scaleAmounts, Dict.mapValues, List.filterMap_map]
  refine List.filterMap_congr fun e _ => ?_
  simp only [Function.comp_apply]
  cases AgentId.ofValue (lower e.1) with
  | none => rfl
  | some agentId => cases e.2 <;> rfl

theorem baseline_scaleAmounts (c : Decimal) (current : Option Amounts) (key : Str) :
    baseline (current.map (scaleAmounts c)) key = (baseline current key).map (.scale c) := by
  rw [baseline, baseline]
  cases current with
  | none => rfl
  | some amounts =>
    rw [Option.map_some, Option.bind_some, Option.bind_some, scaleAmounts, Dict.get?_mapValues]
    cases amounts.get? key with
    | none => rfl
    | some v => rfl

theorem hasCurrent_scaleAmounts (c : Decimal) (current : Option Amounts) :
    hasCurrent (current.map (scaleAmounts c)) = hasCurrent current := by
  cases current with
  | none => rfl
  | some amounts => simp [hasCurrent, scaleAmounts, Dict.mapValues]

variable {c : Decimal}

theorem hasBaseline_scale (hc : 0 < c) :
    HasBaseline (current.map (scaleAmounts c)) (e.scale c) ↔ HasBaseline current e := by
  have hbase : baseline (current.map (scaleAmounts c)) (e.scale c).key =
      (baseline current e.key).map (.scale c) := baseline_scaleAmounts c current e.key
  rw [HasBaseline, HasBaseline, hbase]
  constructor
  · rintro ⟨_, hscaled, hpos⟩
    obtain ⟨base, hbase, rfl⟩ := Option.map_eq_some_iff.mp hscaled
    exact ⟨base, hbase, (Extended.isPos?_scale hc base).symm.trans hpos⟩
  · rintro ⟨base, hbase, hpos⟩
    exact ⟨_, Option.map_eq_some_iff.mpr ⟨base, hbase, rfl⟩,
      (Extended.isPos?_scale hc base).trans hpos⟩

theorem baselineNan_scale :
    BaselineNan (current.map (scaleAmounts c)) (e.scale c) ↔ BaselineNan current e := by
  have hbase : baseline (current.map (scaleAmounts c)) (e.scale c).key =
      (baseline current e.key).map (.scale c) := baseline_scaleAmounts c current e.key
  rw [BaselineNan, BaselineNan, hbase]
  refine exists_congr fun signaling => ?_
  cases baseline current e.key with
  | none => simp
  | some base => cases base <;> simp [Extended.scale]

theorem dollars_scale (he : e.amount = .finite e.dollars) :
    (e.scale c).dollars = c * e.dollars := by
  rw [Entry.dollars, Entry.scale, he, Extended.scale_finite]
  rfl

/-- With a current allocation the multiplier does not depend on the currency. -/
theorem multiple_scale (hc : 0 < c) (he : e.amount = .finite e.dollars)
    (hnan : ¬BaselineNan current e) (h : HasBaseline current e) :
    multiple (current.map (scaleAmounts c)) (e.scale c) = multiple current e := by
  obtain ⟨base, hbase, hpos⟩ := h
  have hscaled : (e.scale c).amount = .finite (e.scale c).dollars := by
    rw [dollars_scale he, Entry.scale, he]
    rfl
  -- both are the quotient, which is
  have hquotient : multiplier (current.map (scaleAmounts c)) (e.scale c) =
      multiplier current e := by
    have hbase' : baseline (current.map (scaleAmounts c)) (e.scale c).key =
        some (base.scale c) := by
      rw [Entry.scale, baseline_scaleAmounts, hbase, Option.map_some]
    rw [multiplier, multiplier, hbase', hbase]
    dsimp only
    rw [Extended.isPos?_scale hc, hpos]
    exact Extended.div?_scale hc e.amount base
  rw [multiplier_eq_multiple hscaled fun hc => hnan (baselineNan_scale.mp hc),
    multiplier_eq_multiple he hnan] at hquotient
  exact Extended.finite.inj (Option.some.inj hquotient)

theorem InDollars.scale (hc : 0 < c) (h : r.InDollars new) :
    (r.scale c).InDollars (scaleAmounts c new) where
  isNew := by rw [Response.scale, h.isNew, Option.map_some]
  ne := fun hnil => h.ne (List.map_eq_nil_iff.mp hnil)
  pos := by
    intro v hv
    rw [scaleAmounts, Dict.values, Dict.mapValues, List.map_map] at hv
    obtain ⟨e, he, rfl⟩ := List.mem_map.mp hv
    obtain ⟨dollars, hpos, heq⟩ := h.pos e.2 (List.mem_map_of_mem he)
    refine ⟨c * dollars, mul_pos hc hpos, ?_⟩
    rw [Function.comp_apply, heq]
    rfl

/-! ### When the currency does not matter -/

variable (lower) in
/-- **What is written does not depend on the currency.** -/
def UnitFree (r : Response) : Prop := ∀ c, 0 < c → weights lower (r.scale c) = weights lower r

variable (lower) in
/-- **No multiplier is above one merely because there is no current allocation**: the sleeve was
allotted more than the mean. -/
def NotInflated (r : Response) (new : Amounts) : Prop :=
  ∀ m agentId e w, weights lower r = some m → lastOf lower new agentId = some e →
    ¬HasBaseline r.currentAllocation e → m.get? agentId = some w → 1 < w →
      meanOf (allotted lower new) < e.dollars

variable (lower) in
/-- **The current allocation is all there or not there**: there is none, of any sleeve; or every
sleeve that is allotted something has a positive one, under the key of its last entry. (Or one is
not a number: then nothing is written.) -/
def BaselinesFit (r : Response) (new : Amounts) : Prop :=
  hasCurrent r.currentAllocation = false ∨
    (∃ e ∈ entriesOf lower new, BaselineNan r.currentAllocation e) ∨
      ∀ agentId e, lastOf lower new agentId = some e → HasBaseline r.currentAllocation e

theorem rebased_scale_of_not_hasCurrent (hc : 0 < c) (h : r.InDollars new)
    (hcurrent : hasCurrent current = false) :
    rebased lower (scaleAmounts c new) (current.map (scaleAmounts c)) =
      rebased lower new current := by
  have hallotted : allotted lower (scaleAmounts c new) =
      (allotted lower new).mapValues (c * ·) := by
    rw [allotted, allotted, ← Dict.ofList_map, entriesOf_scaleAmounts, List.map_map, List.map_map]
    refine congrArg Dict.ofList (List.map_congr_left fun e he => ?_)
    rw [Function.comp_apply, Function.comp_apply, dollars_scale (h.entry he).2, Entry.scale]
  have hmean : meanOf ((allotted lower new).mapValues (c * ·)) =
      c * meanOf (allotted lower new) := by
    have hvalues : ((allotted lower new).mapValues (c * ·)).values =
        (allotted lower new).values.map (c * ·) := by
      rw [Dict.values, Dict.values, Dict.mapValues, List.map_map, List.map_map]
      rfl
    rw [meanOf, meanOf, hvalues, List.sum_map_mul_left, List.map_id', List.length_map,
      mul_div_assoc]
  rw [rebased, rebased, hasCurrent_scaleAmounts, hcurrent, if_neg Bool.false_ne_true,
    if_neg Bool.false_ne_true, hallotted, hmean, Dict.mapValues_mapValues]
  refine congrArg (allotted lower new).mapValues (funext fun x => ?_)
  exact mul_div_mul_left x _ hc.ne'

theorem rebased_scale_of_hasCurrent (hc : 0 < c) (h : r.InDollars new)
    (hcurrent : hasCurrent current = true)
    (hnan : ∀ e ∈ entriesOf lower new, ¬BaselineNan current e)
    (hbase : ∀ agentId e, lastOf lower new agentId = some e → HasBaseline current e) :
    rebased lower (scaleAmounts c new) (current.map (scaleAmounts c)) =
      rebased lower new current := by
  rw [rebased, rebased, hasCurrent_scaleAmounts, hcurrent, if_pos rfl, if_pos rfl, multiplesOf,
    multiplesOf, entriesOf_scaleAmounts, List.map_map]
  refine Dict.ext_get? (Dict.keys_ofList_congr ?_) fun agentId => ?_
  · rw [List.map_map, List.map_map]
    rfl
  · -- only the last entry of a sleeve counts, and it has a current allocation
    have hget : (Dict.ofList ((entriesOf lower new).map
        ((fun e => (e.agentId, multiple (current.map (scaleAmounts c)) e)) ∘
          Entry.scale c))).get? agentId =
        (lastOf lower new agentId).map fun e =>
          multiple (current.map (scaleAmounts c)) (e.scale c) :=
      get?_ofList_entries (fun e => multiple (current.map (scaleAmounts c)) (e.scale c)) agentId
    rw [hget, get?_ofList_entries]
    cases hlast : lastOf lower new agentId with
    | none => rfl
    | some e =>
      have hmem := (mem_of_lastOf hlast).1
      exact congrArg some (multiple_scale hc (h.entry hmem).2 (hnan e hmem) (hbase agentId e hlast))

theorem not_baselineNan_of_weights (h : r.InDollars new) {m : Dict AgentId Decimal}
    (hm : weights lower r = some m) :
    ∀ e ∈ entriesOf lower new, ¬BaselineNan r.currentAllocation e := by
  intro e he hc
  rw [weights_of_nan h he hc] at hm
  cases hm

/-- What is written for a sleeve. -/
theorem get?_weights (h : r.InDollars new) (hcurrent : hasCurrent r.currentAllocation = true)
    {m : Dict AgentId Decimal} (hm : weights lower r = some m) (agentId : AgentId) :
    m.get? agentId =
      (lastOf lower new agentId).map fun e => clampStep (multiple r.currentAllocation e) := by
  rw [weights_eq h (not_baselineNan_of_weights h hm), rebased, hcurrent, if_pos rfl] at hm
  obtain rfl := Option.some.inj hm
  rw [Dict.get?_mapValues, multiplesOf, get?_ofList_entries, Option.map_map]
  rfl

/-- A number of dollars is held to a raise by a quarter in one currency, and to a cut by a quarter
in another. -/
theorem exists_clampStep_ne {dollars : Decimal} (h : 0 < dollars) :
    ∃ c, 0 < c ∧ clampStep (c * dollars) ≠ clampStep dollars := by
  by_contra hall
  push Not at hall
  have hhi := hall (stepHi / dollars) (div_pos (by norm_num [stepHi]) h)
  have hlo := hall (stepLo / dollars) (div_pos (by norm_num [stepLo]) h)
  rw [div_mul_cancel₀ _ h.ne'] at hhi hlo
  have heq : clampStep stepHi = clampStep stepLo := hhi.trans hlo.symm
  norm_num [clampStep, stepHi, stepLo] at heq

theorem unitFree_of_baselinesFit (h : r.InDollars new) (hfit : r.BaselinesFit lower new) :
    r.UnitFree lower := by
  intro c hc
  have hscaled := h.scale hc
  by_cases hnan : ∃ e ∈ entriesOf lower new, BaselineNan r.currentAllocation e
  · obtain ⟨e, he, hnan⟩ := hnan
    have hmem : e.scale c ∈ entriesOf lower (scaleAmounts c new) := by
      rw [entriesOf_scaleAmounts]
      exact List.mem_map_of_mem he
    rw [weights_of_nan h he hnan, weights_of_nan hscaled hmem (baselineNan_scale.mpr hnan)]
  · push Not at hnan
    have hnan' : ∀ e ∈ entriesOf lower (scaleAmounts c new),
        ¬BaselineNan (r.scale c).currentAllocation e := by
      intro e he hc
      rw [entriesOf_scaleAmounts] at he
      obtain ⟨e', he', rfl⟩ := List.mem_map.mp he
      exact hnan e' he' (baselineNan_scale.mp hc)
    rw [weights_eq h hnan, weights_eq hscaled hnan']
    refine congrArg (fun d => some (Dict.mapValues d clampStep)) ?_
    cases hcurrent : hasCurrent r.currentAllocation with
    | false => exact rebased_scale_of_not_hasCurrent hc h hcurrent
    | true =>
      refine rebased_scale_of_hasCurrent hc h hcurrent hnan ?_
      rcases hfit with hnone | ⟨e, he, hc⟩ | hbase
      · rw [hnone] at hcurrent
        cases hcurrent
      · exact absurd hc (hnan e he)
      · exact hbase

theorem notInflated_of_baselinesFit (h : r.InDollars new) (hfit : r.BaselinesFit lower new) :
    r.NotInflated lower new := by
  intro m agentId e w hm hlast hbase hget hw
  rcases hfit with hnone | ⟨e', he', hnan⟩ | hall
  · -- the multiplier is the share of the mean
    rw [weights_eq h (not_baselineNan_of_weights h hm), rebased, hnone,
      if_neg Bool.false_ne_true, Dict.mapValues_mapValues] at hm
    obtain rfl := Option.some.inj hm
    have hallotted : (allotted lower new).get? agentId = some e.dollars := by
      rw [allotted, get?_ofList_entries, hlast, Option.map_some]
    rw [Dict.get?_mapValues, hallotted, Option.map_some] at hget
    obtain rfl := Option.some.inj hget
    have hne : (allotted lower new).values ≠ [] :=
      List.ne_nil_of_mem (Dict.mem_values_of_get? hallotted)
    have hshare : 1 < e.dollars / meanOf (allotted lower new) := by
      by_contra hle
      have hclamp : clampStep (e.dollars / meanOf (allotted lower new)) ≤ 1 :=
        max_le (by norm_num [stepLo]) ((min_le_right _ _).trans (not_lt.mp hle))
      exact absurd hw hclamp.not_gt
    exact (one_lt_div (meanOf_allotted_pos h hne)).mp hshare
  · exact absurd hnan (not_baselineNan_of_weights h hm e' he')
  · exact absurd (hall agentId e hlast) hbase

/-- **When the currency does not matter**, of an answer in dollars: if the current allocation is all
there or not there, and only then. -/
theorem unitFree_iff (h : r.InDollars new) :
    (r.UnitFree lower ∧ r.NotInflated lower new) ↔ r.BaselinesFit lower new := by
  refine ⟨fun hfree => ?_, fun hfit =>
    ⟨unitFree_of_baselinesFit h hfit, notInflated_of_baselinesFit h hfit⟩⟩
  cases hcurrent : hasCurrent r.currentAllocation with
  | false => exact .inl hcurrent
  | true =>
    by_cases hnan : ∃ e ∈ entriesOf lower new, BaselineNan r.currentAllocation e
    · exact .inr (.inl hnan)
    refine .inr (.inr fun agentId e hlast => ?_)
    by_contra hbase
    push Not at hnan
    -- the multiplier of this sleeve is its dollars, held to a step
    obtain ⟨hmem, -⟩ := mem_of_lastOf hlast
    obtain ⟨hpos, hamount⟩ := h.entry hmem
    obtain ⟨c, hc, hne⟩ := exists_clampStep_ne hpos
    have hm := weights_eq h hnan
    have hget := get?_weights h hcurrent hm agentId
    have hcurrent' : hasCurrent (r.scale c).currentAllocation = true :=
      (hasCurrent_scaleAmounts c _).trans hcurrent
    have hlast' : lastOf lower (scaleAmounts c new) agentId = some (e.scale c) := by
      rw [lastOf, entriesOf_scaleAmounts, List.filter_map, List.getLast?_map]
      have hfilter : (entriesOf lower new).filter
          ((fun e => decide (e.agentId = agentId)) ∘ Entry.scale c) =
            (entriesOf lower new).filter (·.agentId = agentId) := rfl
      rw [hfilter, ← lastOf, hlast, Option.map_some]
    have hget' := get?_weights (h.scale hc) hcurrent' ((hfree.1 c hc).trans hm) agentId
    have hbase' : ¬HasBaseline (r.scale c).currentAllocation (e.scale c) := fun hc' =>
      hbase ((hasBaseline_scale hc).mp hc')
    rw [hget, hlast, hlast', Option.map_some, Option.map_some, Option.some_inj,
      multiple_of_not_hasBaseline hbase, multiple_of_not_hasBaseline hbase',
      dollars_scale hamount] at hget'
    exact hne hget'.symm

/-- An object with an amount for haiku and one for sonnet. -/
def twoSleeves (haiku sonnet : Decimal) : Amounts :=
  .ofList [(Str.ofString "haiku", some (.finite haiku)), (Str.ofString "sonnet",
    some (.finite sonnet))]

theorem inDollars_twoSleeves {haiku sonnet : Decimal} (hhaiku : 0 < haiku) (hsonnet : 0 < sonnet)
    (current : Option Amounts) :
    InDollars ⟨some (twoSleeves haiku sonnet), current, none, .empty⟩
      (twoSleeves haiku sonnet) where
  isNew := rfl
  ne := List.cons_ne_nil _ _
  pos := by
    intro v hv
    have hvalues : (twoSleeves haiku sonnet).values =
        [some (.finite haiku), some (.finite sonnet)] := rfl
    rw [hvalues] at hv
    rcases List.mem_pair.mp hv with rfl | rfl
    · exact ⟨haiku, hhaiku, rfl⟩
    · exact ⟨sonnet, hsonnet, rfl⟩

/-- Without a current allocation the currency does not matter. -/
theorem unitFree_iff_twoSleeves :
    UnitFree id ⟨some (twoSleeves 1100 900), none, none, .empty⟩ ∧
      NotInflated id ⟨some (twoSleeves 1100 900), none, none, .empty⟩ (twoSleeves 1100 900) :=
  (unitFree_iff (inDollars_twoSleeves (by norm_num) (by norm_num) none)).mpr (.inl rfl)

/-- **A sleeve whose current allocation is missing is raised by a quarter**, where another has one,
though it is allotted no more than that. -/
theorem not_forall_unitFree : ¬∀ (r : Response) (new : Amounts), r.InDollars new →
    r.UnitFree id ∧ r.NotInflated id new := by
  intro h
  let current : Amounts := .ofList [(Str.ofString "haiku", some (.finite 1000))]
  have hdollars : InDollars ⟨some (twoSleeves 1000 1000), some current, none, .empty⟩
      (twoSleeves 1000 1000) := inDollars_twoSleeves (by norm_num) (by norm_num) _
  obtain ⟨-, hmean⟩ := h _ _ hdollars
  have hentries : entriesOf id (twoSleeves 1000 1000) =
      [⟨Str.ofString "haiku", .haiku, .finite 1000⟩,
        ⟨Str.ofString "sonnet", .sonnet, .finite 1000⟩] := rfl
  have hhaiku : baseline (some current) (Str.ofString "haiku") = some (.finite 1000) := rfl
  have hsonnet : baseline (some current) (Str.ofString "sonnet") = none := rfl
  have hnan : ∀ e ∈ entriesOf id (twoSleeves 1000 1000), ¬BaselineNan (some current) e := by
    rw [hentries]
    rintro e he ⟨signaling, hbase⟩
    rcases List.mem_pair.mp he with rfl | rfl
    · rw [hhaiku] at hbase
      cases hbase
    · rw [hsonnet] at hbase
      cases hbase
  have hlast : lastOf id (twoSleeves 1000 1000) .sonnet =
      some ⟨Str.ofString "sonnet", .sonnet, .finite 1000⟩ := by
    rw [lastOf, hentries]
    rfl
  have hbase : ¬HasBaseline (some current) ⟨Str.ofString "sonnet", .sonnet, .finite 1000⟩ := by
    rintro ⟨base, hbase, -⟩
    rw [hsonnet] at hbase
    cases hbase
  have hm := weights_eq hdollars hnan
  have hget := get?_weights hdollars rfl hm .sonnet
  rw [hlast, Option.map_some, multiple_of_not_hasBaseline hbase] at hget
  have hraised : 1 < clampStep 1000 := by norm_num [clampStep, stepLo, stepHi]
  have hlt := hmean _ _ _ _ hm hlast hbase hget hraised
  have hvalues : (allotted id (twoSleeves 1000 1000)).values = [1000, 1000] := by
    rw [allotted, hentries]
    rfl
  rw [meanOf, hvalues] at hlt
  norm_num [Entry.dollars] at hlt

end Response

end TradingPlatform
