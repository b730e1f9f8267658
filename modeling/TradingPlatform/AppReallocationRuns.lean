import TradingPlatform.AppReallocation
import TradingPlatform.Ops.EquitySnapshotter
import TradingPlatform.Run

/-!
# Reallocations, one after the other

Each answer of the manager is a step from the allocation in force: new over current. The file that
the sizing reads has one multiplier for every sleeve, and a run writes the step over it. So what a
sleeve was given four weeks ago is gone, and an answer that holds everything takes it back to its
base. That the sizing allows multipliers from a quarter to two, which no single step reaches, shows
that they were to add up.

The multipliers are the products of the steps if and only if every answer that another one follows
holds everything (`TradingPlatform.Reallocation.compounds_iff`).
-/

namespace TradingPlatform

/-! ### The job -/

/-- What is left of a run to the next. -/
structure ReallocationState where
  /-- The multipliers of the file. -/
  weights : Dict AgentId Decimal
  /-- The day in the memory, if there is one. -/
  lastRun : Option Date

namespace ReallocationState

variable (s : ReallocationState)

/-- Before any run. -/
def fresh : ReallocationState := ⟨.empty, none⟩

/-- The weeks from a day to another. -/
def weeksSince (last today : Date) : Decimal := ((today - last : ℤ) : Decimal) / 7

/-- Four weeks have passed. -/
def Due (today : Date) : Prop := ∀ last ∈ s.lastRun, ¬weeksSince last today < 4

instance (today : Date) : Decidable (s.Due today) :=
  decidable_of_iff (s.lastRun.all fun last => ¬weeksSince last today < 4) (by
    rw [Due]
    cases s.lastRun <;> simp)

/-- The source's `_run_capital_reallocation_if_due`; there is no answer if the call raises an
exception. -/
def runIfDue (lower : Str → Str) (today : Date) (answer : Option Response) : ReallocationState :=
  if s.Due today then
    match (answer.getD .empty).weights lower with
    -- the exception leaves the job before the day is remembered
    | none => s
    | some m => ⟨if m.entries = [] then s.weights else m, some today⟩
  else s

/-- The multiplier of a sleeve, as the sizing reads it. -/
def multiplierOf (agentId : AgentId) : Decimal := (s.weights.get? agentId).getD 1

variable {s}

theorem due_iff {today : Date} : s.Due today ↔ ∀ last ∈ s.lastRun, last + 28 ≤ today := by
  refine forall₂_congr fun last _ => ?_
  have hdays : (4 : Decimal) * 7 = ((28 : ℤ) : Decimal) := by norm_num
  rw [weeksSince, not_lt, le_div_iff₀ (by norm_num), hdays, Int.cast_le]
  exact le_sub_iff_add_le'

/-- The sizing reads nothing else of the file. -/
theorem effectiveMaxGross_congr {s' : ReallocationState} {agentId : AgentId}
    (h : s.multiplierOf agentId = s'.multiplierOf agentId) (masterCapability : Decimal)
    (vixBucket : VixBucket) (drawdownBucket : DrawdownBucket) :
    effectiveMaxGross agentId ⟨masterCapability, s.weights⟩ vixBucket drawdownBucket =
      effectiveMaxGross agentId ⟨masterCapability, s'.weights⟩ vixBucket drawdownBucket := by
  rw [multiplierOf, multiplierOf] at h
  simp only [effectiveMaxGross, h]

end ReallocationState

/-! ### Answers that are steps -/

/-- **An answer lists every sleeve**: it has new dollars for it, and under the same key current
ones, and their ratio is a step of a quarter at most. -/
structure Response.Lists (lower : Str → Str) (r : Response) (new : Amounts)
    (ratio : AgentId → Decimal) : Prop where
  dollars : r.InDollars new
  listed : ∀ agentId ∈ tradingAgents, ∃ e ∈ entriesOf lower new, e.agentId = agentId
  current : ∀ e ∈ entriesOf lower new, ∃ base,
    baseline r.currentAllocation e.key = some (.finite base) ∧ 0 < base ∧
      ratio e.agentId = e.dollars / base
  step : ∀ e ∈ entriesOf lower new, stepLo ≤ ratio e.agentId ∧ ratio e.agentId ≤ stepHi

/-- A run of the job, with an answer that lists every sleeve. -/
structure Reallocation (lower : Str → Str) where
  today : Date
  answer : Response
  new : Amounts
  ratio : AgentId → Decimal
  lists : answer.Lists lower new ratio

variable {lower : Str → Str}

/-- **Such an answer writes the ratios.** -/
theorem Response.Lists.weights {r : Response} {new : Amounts} {ratio : AgentId → Decimal}
    (h : r.Lists lower new ratio) : ∃ m, r.weights lower = some m ∧ m.entries ≠ [] ∧
      ∀ agentId ∈ tradingAgents, m.get? agentId = some (ratio agentId) := by
  have hnan : ∀ e ∈ entriesOf lower new, ¬BaselineNan r.currentAllocation e := by
    rintro e he ⟨signaling, hnan⟩
    obtain ⟨base, hbase, -⟩ := h.current e he
    rw [hbase] at hnan
    cases hnan
  have hcurrent : hasCurrent r.currentAllocation = true := by
    obtain ⟨e, he, -⟩ := h.listed .haiku (by decide)
    obtain ⟨base, hbase, hpos, -⟩ := h.current e he
    by_contra hc
    refine not_hasBaseline_of_hasCurrent (Bool.eq_false_iff.mpr hc) e ⟨_, hbase, ?_⟩
    rw [Extended.isPos?, decide_eq_true hpos]
  have hm := weights_eq h.dollars hnan
  have hget : ∀ agentId ∈ tradingAgents, Dict.get?
      ((rebased lower new r.currentAllocation).mapValues clampStep) agentId =
        some (ratio agentId) := by
    intro agentId hagent
    have hsome : (lastOf lower new agentId).isSome := by
      obtain ⟨e, he, heq⟩ := h.listed agentId hagent
      refine List.getLast?_isSome.mpr (List.ne_nil_of_mem (a := e) ?_)
      exact List.mem_filter.mpr ⟨he, decide_eq_true heq⟩
    obtain ⟨e, hlast⟩ := Option.isSome_iff_exists.mp hsome
    obtain ⟨hmem, rfl⟩ := mem_of_lastOf hlast
    obtain ⟨base, hbase, hpos, hratio⟩ := h.current e hmem
    have hmultiple : multiple r.currentAllocation e = ratio e.agentId := by
      rw [multiple, hbase, hratio]
      exact if_pos hpos
    obtain ⟨hlo, hhi⟩ := h.step e hmem
    rw [get?_weights h.dollars hcurrent hm, hlast, Option.map_some, hmultiple, clampStep,
      min_eq_right hhi, max_eq_right hlo]
  refine ⟨_, hm, fun hnil => ?_, hget⟩
  have hhaiku := hget .haiku (by decide)
  rw [Dict.get?, hnil] at hhaiku
  cases hhaiku

namespace Reallocation

/-- What a run does. -/
def step (s : ReallocationState) (x : Reallocation lower) : ReallocationState :=
  s.runIfDue lower x.today (some x.answer)

variable {s : ReallocationState} {x : Reallocation lower}

/-- **A run that is due** leaves its ratios, and its day. -/
theorem step_of_due (h : s.Due x.today) : (step s x).lastRun = some x.today ∧
    ∀ agentId ∈ tradingAgents, (step s x).multiplierOf agentId = x.ratio agentId := by
  obtain ⟨m, hm, hne, hget⟩ := x.lists.weights
  have hstep : step s x = ⟨m, some x.today⟩ := by
    rw [step, ReallocationState.runIfDue, if_pos h, Option.getD_some, hm]
    dsimp only
    rw [if_neg hne]
  rw [hstep]
  refine ⟨rfl, fun agentId hagent => ?_⟩
  rw [ReallocationState.multiplierOf, hget agentId hagent, Option.getD_some]

/-! ### Histories -/

/-- The runs are at least four weeks apart. -/
def Spaced (history : List (Reallocation lower)) : Prop :=
  history.Pairwise fun x y => x.today + 28 ≤ y.today

/-- What a history leads to. -/
def after (history : List (Reallocation lower)) : ReallocationState :=
  run step .fresh history

variable {history pre : List (Reallocation lower)}

/-- In such a history every run is due. -/
theorem due_after (h : Spaced (pre ++ [x]))
    (hlast : (after pre).lastRun = pre.getLast?.map (·.today)) : (after pre).Due x.today := by
  rw [ReallocationState.due_iff, hlast]
  intro last hmem
  obtain ⟨y, hy, rfl⟩ := Option.map_eq_some_iff.mp hmem
  obtain ⟨-, -, hbefore⟩ := List.pairwise_append.mp h
  exact hbefore y (List.mem_of_getLast? hy) x (List.mem_singleton_self x)

theorem lastRun_after (h : Spaced history) :
    (after history).lastRun = history.getLast?.map (·.today) := by
  induction history using List.reverseRecOn with
  | nil => rfl
  | append_singleton pre x ih =>
    have hdue := due_after h (ih (List.pairwise_append.mp h).1)
    rw [after, run_concat, ← after, (step_of_due hdue).1, List.getLast?_concat, Option.map_some]

/-- **The last run is all that is left of a history.** -/
theorem multiplierOf_after_concat (h : Spaced (pre ++ [x])) {agentId : AgentId}
    (hagent : agentId ∈ tradingAgents) :
    (after (pre ++ [x])).multiplierOf agentId = x.ratio agentId := by
  have hdue := due_after h (lastRun_after (List.pairwise_append.mp h).1)
  rw [after, run_concat, ← after]
  exact (step_of_due hdue).2 agentId hagent

/-- An answer that holds everything. -/
def Holds (x : Reallocation lower) : Prop := ∀ agentId ∈ tradingAgents, x.ratio agentId = 1

/-- **The steps compound**: after every run each multiplier is the product of the ratios, and a run
that holds everything leaves every cap as it is. -/
structure Compounds (history : List (Reallocation lower)) : Prop where
  product : ∀ pre, pre <+: history → ∀ agentId ∈ tradingAgents,
    (after pre).multiplierOf agentId = (pre.map (·.ratio agentId)).prod
  still : ∀ pre x, pre ++ [x] <+: history → x.Holds → ∀ agentId ∈ tradingAgents,
    ∀ masterCapability vixBucket drawdownBucket,
      effectiveMaxGross agentId ⟨masterCapability, (after (pre ++ [x])).weights⟩ vixBucket
          drawdownBucket =
        effectiveMaxGross agentId ⟨masterCapability, (after pre).weights⟩ vixBucket drawdownBucket

/-- Every answer that another one follows holds everything. -/
def OnlyLastMoves (history : List (Reallocation lower)) : Prop :=
  ∀ pre x y, pre ++ [x, y] <+: history → x.Holds

/-- All but the last of a part of the history. -/
theorem OnlyLastMoves.holds (h : OnlyLastMoves history) (hpre : pre ++ [x] <+: history)
    {y : Reallocation lower} (hy : y ∈ pre) : y.Holds := by
  obtain ⟨s, t, rfl⟩ := List.append_of_mem hy
  -- what follows it
  obtain ⟨z, rest, hrest⟩ : ∃ z rest, t ++ [x] = z :: rest := by
    cases t with
    | nil => exact ⟨x, [], rfl⟩
    | cons z t => exact ⟨z, t ++ [x], rfl⟩
  have hsplit : s ++ [y, z] ++ rest = s ++ y :: t ++ [x] := by simp [hrest]
  exact h s y z (List.IsPrefix.trans ⟨rest, hsplit⟩ hpre)

theorem OnlyLastMoves.prod_eq_one (h : OnlyLastMoves history) (hpre : pre ++ [x] <+: history)
    {agentId : AgentId} (hagent : agentId ∈ tradingAgents) :
    (pre.map (·.ratio agentId)).prod = 1 := by
  refine List.prod_eq_one fun q hq => ?_
  obtain ⟨y, hy, rfl⟩ := List.mem_map.mp hq
  exact h.holds hpre hy agentId hagent

/-- Before an answer that is not followed by more, every multiplier is one. -/
theorem OnlyLastMoves.multiplierOf (hspaced : Spaced history) (h : OnlyLastMoves history)
    (hpre : pre ++ [x] <+: history) {agentId : AgentId} (hagent : agentId ∈ tradingAgents) :
    (after pre).multiplierOf agentId = 1 := by
  rcases List.eq_nil_or_concat pre with rfl | ⟨init, y, hpre'⟩
  · rfl
  · rw [List.concat_eq_append] at hpre'
    subst hpre'
    have hprefix : init ++ [y] <+: history := (List.prefix_append _ _).trans hpre
    rw [multiplierOf_after_concat (hspaced.sublist hprefix.sublist) hagent]
    exact h.holds hpre (List.mem_append_right _ (List.mem_singleton_self y)) agentId hagent

/-- **The multipliers compound if and only if** every answer that another one follows holds
everything. -/
theorem compounds_iff (hspaced : Spaced history) :
    Compounds history ↔ OnlyLastMoves history := by
  constructor
  · intro h pre x y hpre agentId hagent
    have hsplit : pre ++ [x, y] = (pre ++ [x]) ++ [y] := by rw [List.append_assoc]; rfl
    rw [hsplit] at hpre
    have hprefix : pre ++ [x] <+: history := (List.prefix_append _ _).trans hpre
    -- the product up to `x` is its ratio, and the one up to `y` is that of `y`
    have hx := h.product _ hprefix agentId hagent
    have hy := h.product _ hpre agentId hagent
    rw [multiplierOf_after_concat (hspaced.sublist hprefix.sublist) hagent] at hx
    rw [multiplierOf_after_concat (hspaced.sublist hpre.sublist) hagent, List.map_append,
      List.prod_append, ← hx, List.map_singleton, List.prod_singleton] at hy
    obtain ⟨e, he, heq⟩ := y.lists.listed agentId hagent
    have hpos : 0 < y.ratio agentId := by
      have hlo := (y.lists.step e he).1
      rw [heq] at hlo
      exact lt_of_lt_of_le (by norm_num [Response.stepLo]) hlo
    exact mul_right_cancel₀ hpos.ne' (hy.symm.trans (one_mul _).symm)
  · intro h
    refine ⟨fun pre hpre agentId hagent => ?_,
      fun pre x hpre hx agentId hagent masterCapability vixBucket drawdownBucket => ?_⟩
    · rcases List.eq_nil_or_concat pre with rfl | ⟨init, y, hpre'⟩
      · rfl
      · rw [List.concat_eq_append] at hpre'
        subst hpre'
        rw [multiplierOf_after_concat (hspaced.sublist hpre.sublist) hagent, List.map_append,
          List.prod_append, h.prod_eq_one hpre hagent, one_mul, List.map_singleton,
          List.prod_singleton]
    · refine ReallocationState.effectiveMaxGross_congr ?_ masterCapability vixBucket drawdownBucket
      rw [multiplierOf_after_concat (hspaced.sublist hpre.sublist) hagent, hx agentId hagent,
        h.multiplierOf hspaced hpre hagent]

/-- An object with an amount for every sleeve. -/
def dollarsOf (f : AgentId → Decimal) : Amounts :=
  .ofList (tradingAgents.map fun a => (Str.ofString a.value, some (.finite (f a))))

/-- An answer, from what the sleeves have and what they shall have. -/
def ofDollars (today : Date) (current new : AgentId → Decimal) (hcurrent : ∀ a, 0 < current a)
    (hnew : ∀ a, 0 < new a)
    (hstep : ∀ a, Response.stepLo ≤ new a / current a ∧ new a / current a ≤ Response.stepHi) :
    Reallocation id where
  today := today
  answer := ⟨some (dollarsOf new), some (dollarsOf current), none, .empty⟩
  new := dollarsOf new
  ratio agentId := new agentId / current agentId
  lists := by
    have hentries : Response.entriesOf id (dollarsOf new) = tradingAgents.map fun a =>
        ⟨Str.ofString a.value, a, .finite (new a)⟩ := rfl
    refine ⟨⟨rfl, List.cons_ne_nil _ _, ?_⟩, ?_, ?_, ?_⟩
    · intro v hv
      have hvalues : (dollarsOf new).values =
          tradingAgents.map fun a => some (.finite (new a)) := rfl
      rw [hvalues] at hv
      obtain ⟨a, -, rfl⟩ := List.mem_map.mp hv
      exact ⟨new a, hnew a, rfl⟩
    · intro a ha
      rw [hentries]
      exact ⟨_, List.mem_map_of_mem ha, rfl⟩
    · intro e he
      rw [hentries] at he
      obtain ⟨a, ha, rfl⟩ := List.mem_map.mp he
      have hbase : Response.baseline (some (dollarsOf current)) (Str.ofString a.value) =
          some (.finite (current a)) := by
        fin_cases ha <;> rfl
      exact ⟨current a, hbase, hcurrent a, rfl⟩
    · exact fun e _ => hstep e.agentId

/-- A thousand dollars for every sleeve but one. -/
def dollarsWith (haiku : Decimal) : AgentId → Decimal
  | .haiku => haiku
  | .sonnet | .opus | .manager => 1000

/-- Haiku is given a tenth more than it has. -/
def raiseHaiku (today : Date) : Reallocation id :=
  ofDollars today (dollarsWith 1000) (dollarsWith 1100)
    (by intro a; cases a <;> norm_num [dollarsWith])
    (by intro a; cases a <;> norm_num [dollarsWith])
    (by intro a; cases a <;> norm_num [dollarsWith, Response.stepLo, Response.stepHi])

/-- Every sleeve keeps what it has. -/
def keepAll (today : Date) : Reallocation id :=
  ofDollars today (dollarsWith 1100) (dollarsWith 1100)
    (by intro a; cases a <;> norm_num [dollarsWith])
    (by intro a; cases a <;> norm_num [dollarsWith])
    (by intro a; cases a <;> norm_num [dollarsWith, Response.stepLo, Response.stepHi])

theorem holds_keepAll (today : Date) : (keepAll today).Holds := by
  intro a _
  show dollarsWith 1100 a / dollarsWith 1100 a = 1
  cases a <;> norm_num [dollarsWith]

theorem spaced_pair {x y : Reallocation lower} (h : x.today + 28 ≤ y.today) : Spaced [x, y] :=
  List.pairwise_pair.mpr h

/-- After a run that keeps everything a raise is what it says. -/
theorem compounds_iff_keepAll :
    (after [keepAll 0, raiseHaiku 28]).multiplierOf .haiku = 1100 / 1000 := by
  have hspaced : Spaced [keepAll 0, raiseHaiku 28] := spaced_pair le_rfl
  have honly : OnlyLastMoves [keepAll 0, raiseHaiku 28] := by
    intro pre x y hpre
    obtain rfl : pre = [] := by
      have hlength := hpre.length_le
      simp only [List.length_append, List.length_cons, List.length_nil] at hlength
      exact List.eq_nil_of_length_eq_zero (by omega)
    obtain ⟨rfl, -⟩ := List.cons_prefix_cons.mp hpre
    exact holds_keepAll 0
  have hproduct := ((compounds_iff hspaced).mpr honly).product _ List.prefix_rfl .haiku (by decide)
  rw [hproduct]
  show dollarsWith 1100 .haiku / dollarsWith 1100 .haiku *
    (dollarsWith 1100 .haiku / dollarsWith 1000 .haiku * 1) = _
  norm_num [dollarsWith]

/-- **To keep everything takes back the raise before it.** -/
theorem not_forall_compounds :
    ¬∀ history : List (Reallocation id), Spaced history → Compounds history := by
  intro h
  have hhaiku : AgentId.haiku ∈ tradingAgents := List.mem_cons_self
  have hspaced : Spaced [raiseHaiku 0, keepAll 28] := spaced_pair le_rfl
  have hproduct := (h _ hspaced).product _ List.prefix_rfl .haiku hhaiku
  have hlast : (after [raiseHaiku 0, keepAll 28]).multiplierOf .haiku =
      (keepAll 28).ratio .haiku :=
    @multiplierOf_after_concat _ (keepAll 28) [raiseHaiku 0] hspaced _ hhaiku
  rw [hlast, holds_keepAll 28 .haiku hhaiku] at hproduct
  have hraised : ([raiseHaiku 0, keepAll 28].map (·.ratio .haiku)).prod =
      dollarsWith 1100 .haiku / dollarsWith 1000 .haiku *
        (dollarsWith 1100 .haiku / dollarsWith 1100 .haiku * 1) := rfl
  rw [hraised] at hproduct
  norm_num [dollarsWith] at hproduct

end Reallocation

end TradingPlatform
