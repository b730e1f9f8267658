import TradingPlatform.Agents.ParseIntents
import TradingPlatform.Run

/-!
# The extra dive of a week

News of high impact on a name that Opus holds or watches sets off a deep dive outside the schedule,
at most one in an ISO week. The slot of the week should be used up by a dive that brought an
analysis, and by no other: the handler marks it after the dive, unless the dive raises.

A dive hardly ever raises. The agent answers every failure of the language model with an empty
dict, and what goes wrong before the call is caught around it; the handler sees a dive that came
back. What may raise is what is made of an analysis – an intent from what the model wrote, an order
from the intent – and then the slot stays free after a dive that brought one.

`TradingPlatform.App.honest_slots_iff` says along which events the slots tell the truth
(`TradingPlatform.App.Honest`). The upper case of a text and the names that can be traded are left
open.
-/

namespace TradingPlatform

/-! ### ISO weeks -/

/-- The year of a day, from its place in its cycles of 400, 100, 4 and 1 years. -/
def Date.year (d : Date) : ℕ :=
  let n := d + epochOrdinal - 1
  let n100 := n % 146097 / 36524
  let n1 := n % 146097 % 36524 % 1461 / 365
  let year := n / 146097 * 400 + n100 * 100 + n % 146097 % 36524 / 1461 * 4 + n1 + 1
  (if n1 = 4 ∨ n100 = 4 then year - 1 else year).toNat

/-- The ISO year and week of a day: the first days of a year may be of the last week of the year
before, and the last days of the first week of the year after. -/
def Date.isoWeek (d : Date) : ℕ × ℕ :=
  let year := Date.year d
  if d < isoWeekOne year then (year - 1, ((d - isoWeekOne (year - 1)) / 7 + 1).toNat)
  else if isoWeekOne (year + 1) ≤ d then (year + 1, 1)
  else (year, ((d - isoWeekOne year) / 7 + 1).toNat)

example : ((Date.ofYmd 2026 3 5).isoWeek, (Date.ofYmd 2027 1 3).isoWeek,
    (Date.ofYmd 2024 12 30).isoWeek) = ((2026, 10), (2026, 53), (2025, 1)) := by decide

/-! ### A dive -/

/-- Where the dives keep something in the memory of Opus. -/
inductive MemoryKey
  /-- The slot of an ISO year and week. -/
  | extraDives (week : ℕ × ℕ)
  | lastDeepDive (symbol : Str)
  deriving DecidableEq

abbrev OpusMemory := Dict MemoryKey Str

/-- What is raised around a call of the language model. -/
inductive LlmFailure
  | budgetExhausted | other
  deriving DecidableEq

/-- What a dive meets: the time of the state that is built, unless that raises; what is raised in
front of the call of the language model, if anything; its answer; and whether an intent can be
submitted without an exception. -/
structure DiveWorld where
  state : Option DateTime
  message : Except LlmFailure Unit
  llm : Except LlmFailure (List Char)
  submits : Bool

variable {F : Type} (rt : PyRuntime F)

/-- The source's `deep_dive`: what is in the answer, or an empty dict. -/
def OpusAgent.deepDive (world : DiveWorld) : Except LlmFailure (JsonValue F) :=
  world.message.map fun _ =>
    match world.llm with
    | .error _ => .obj []
    | .ok text => (readJson rt text).getD (.obj [])

/-- The analysis that a dive obtains: there is an answer, with something in it. -/
def DiveWorld.analysis (world : DiveWorld) : Option (JsonValue F) :=
  match world.state, world.message, world.llm with
  | some _, .ok (), .ok text => readJson rt text
  | _, _, _ => none

namespace App

variable (upper : Str → Str)

/-- What is made of an analysis goes through: an intent can be read from it, or there is none, and
it is submitted without an exception. -/
def goesThrough (world : DiveWorld) (symbol : Str) (timestamp : DateTime) (data : JsonValue F) :
    Bool :=
  match OpusAgent.extractDeepDiveIntent rt timestamp symbol data with
  | .error _ => false
  | .ok none => true
  | .ok (some _) => world.submits

/-- The source's `_opus_run_deep_dive`: what the memory is afterwards, and whether the dive came
back. -/
def opusRunDeepDive (memory : OpusMemory) (symbol : Str) (world : DiveWorld) : OpusMemory × Bool :=
  let symbol := upper symbol
  match world.state with
  | none => (memory, false)
  | some timestamp =>
    match OpusAgent.deepDive rt world with
    -- the budget, or anything else: logged
    | .error _ => (memory, true)
    | .ok data =>
      (memory.set (.lastDeepDive symbol) (timestamp.date.text.map .scalar),
        goesThrough rt world symbol timestamp data)

/-! ### The news -/

/-- News of high impact, and what is there when it comes: what Opus holds, unless the ledger fails,
and what it watches. -/
structure HighImpactNews where
  symbol : Str
  now : Time
  held : Option (List Str)
  watchlist : List Str
  dive : DiveWorld

def HighImpactNews.week (news : HighImpactNews) : ℕ × ℕ := (Time.date news.now).isoWeek

/-- A slot counts as used if something is in it. -/
def Used (memory : OpusMemory) (week : ℕ × ℕ) : Prop :=
  (memory.get? (.extraDives week)).getD [] ≠ []

instance (memory : OpusMemory) (week : ℕ × ℕ) : Decidable (Used memory week) :=
  inferInstanceAs (Decidable (_ ≠ _))

variable (plumbing : List Str)

/-- The source's `_on_news_high_impact`. -/
def onNewsHighImpact (memory : OpusMemory) (news : HighImpactNews) : OpusMemory :=
  let symbol := upper news.symbol
  if symbol = [] then memory
  else
    match news.held with
    | none => memory
    | some held =>
      if symbol ∉ plumbing.map upper then memory
      else if symbol ∉ held.map upper ++ news.watchlist.map upper then memory
      else if Used memory news.week then memory
      else
        let (memory, returned) := opusRunDeepDive rt upper memory symbol news.dive
        -- the slot is marked only after a dive that came back
        if returned then memory.set (.extraDives news.week) symbol else memory

/-! ### What a dive leaves behind -/

/-- A dive does not touch the slots. -/
theorem get?_opusRunDeepDive (memory : OpusMemory) (symbol : Str) (world : DiveWorld)
    (week : ℕ × ℕ) :
    (opusRunDeepDive rt upper memory symbol world).1.get? (.extraDives week) =
      memory.get? (.extraDives week) := by
  unfold opusRunDeepDive
  cases world.state with
  | none => rfl
  | some timestamp =>
    cases OpusAgent.deepDive rt world with
    | error e => rfl
    | ok data => simp

/-- Nothing is read from an empty dict. -/
theorem goesThrough_empty (world : DiveWorld) (symbol : Str) (timestamp : DateTime) :
    goesThrough rt world symbol timestamp (.obj []) = true := rfl

/-- **When a dive comes back**: there is a state, and no analysis or one that goes through. -/
theorem opusRunDeepDive_returns_iff (memory : OpusMemory) (symbol : Str) (world : DiveWorld) :
    (opusRunDeepDive rt upper memory symbol world).2 = true ↔
      ∃ timestamp, world.state = some timestamp ∧
        ∀ data ∈ world.analysis rt,
          goesThrough rt world (upper symbol) timestamp data = true := by
  unfold opusRunDeepDive DiveWorld.analysis OpusAgent.deepDive
  cases world.state with
  | none => simp
  | some timestamp =>
    cases world.message with
    | error e => simp [Except.map]
    | ok u =>
      cases world.llm with
      | error e => simp [Except.map, goesThrough_empty]
      | ok text =>
        cases hread : readJson rt text with
        | none => simp [Except.map, hread, goesThrough_empty]
        | some data => simp [Except.map, hread]

/-! ### What the news leaves behind -/

/-- The news sets off a dive. -/
def Fires (memory : OpusMemory) (news : HighImpactNews) : Prop :=
  upper news.symbol ≠ [] ∧ upper news.symbol ∈ plumbing.map upper ∧
    (∃ held ∈ news.held, upper news.symbol ∈ held.map upper ++ news.watchlist.map upper) ∧
    ¬Used memory news.week

instance (memory : OpusMemory) (news : HighImpactNews) :
    Decidable (Fires upper plumbing memory news) :=
  inferInstanceAs (Decidable (_ ∧ _ ∧ (∃ held ∈ news.held, _) ∧ _))

/-- What the news leaves behind, by whether it sets off a dive. -/
theorem onNewsHighImpact_cases (memory : OpusMemory) (news : HighImpactNews) :
    (¬Fires upper plumbing memory news ∧
        onNewsHighImpact rt upper plumbing memory news = memory) ∨
      (Fires upper plumbing memory news ∧
        onNewsHighImpact rt upper plumbing memory news =
          if (opusRunDeepDive rt upper memory (upper news.symbol) news.dive).2 = true then
            (opusRunDeepDive rt upper memory (upper news.symbol) news.dive).1.set
              (.extraDives news.week) (upper news.symbol)
          else (opusRunDeepDive rt upper memory (upper news.symbol) news.dive).1) := by
  unfold onNewsHighImpact Fires
  by_cases hsymbol : upper news.symbol = []
  · exact .inl ⟨fun h => h.1 hsymbol, if_pos hsymbol⟩
  rw [if_neg hsymbol]
  cases hheld : news.held with
  | none => exact .inl ⟨by simp, rfl⟩
  | some held =>
    by_cases hplumbing : upper news.symbol ∉ plumbing.map upper
    · exact .inl ⟨fun h => hplumbing h.2.1, if_pos hplumbing⟩
    by_cases hseen : upper news.symbol ∉ held.map upper ++ news.watchlist.map upper
    · refine .inl ⟨?_, by simp only [if_neg hplumbing, if_pos hseen]⟩
      rintro ⟨-, -, ⟨held', hheld', hmem⟩, -⟩
      obtain rfl := Option.some.inj hheld'
      exact hseen hmem
    by_cases hused : Used memory news.week
    · exact .inl ⟨fun h => h.2.2.2 hused, by
        simp only [if_neg hplumbing, if_neg hseen, if_pos hused]⟩
    · refine .inr ⟨⟨hsymbol, not_not.mp hplumbing, ⟨held, rfl, not_not.mp hseen⟩, hused⟩, ?_⟩
      simp only [if_neg hplumbing, if_neg hseen, if_neg hused]

/-- After a dive its slot is used if the dive came back, and the others are as before. -/
theorem used_onNewsHighImpact {memory : OpusMemory} {news : HighImpactNews}
    (h : Fires upper plumbing memory news) (week : ℕ × ℕ) :
    Used (onNewsHighImpact rt upper plumbing memory news) week ↔
      Used memory week ∨ week = news.week ∧
        (opusRunDeepDive rt upper memory (upper news.symbol) news.dive).2 = true := by
  have hkeep := get?_opusRunDeepDive rt upper memory (upper news.symbol) news.dive week
  obtain ⟨hno, -⟩ | ⟨-, heq⟩ := onNewsHighImpact_cases rt upper plumbing memory news
  · exact absurd h hno
  rw [heq, Used, Used]
  by_cases hback : (opusRunDeepDive rt upper memory (upper news.symbol) news.dive).2 = true
  · rw [if_pos hback, Dict.get?_set, hkeep]
    by_cases hweek : week = news.week
    · simp [hweek, hback, h.1]
    · simp [hweek]
  · simp [hback, hkeep]

/-! ### Dives and slots over a run -/

/-- The memory of Opus, and the weeks of the analyses that news has brought, as they came. -/
structure DiveHistory where
  memory : OpusMemory
  obtained : List (ℕ × ℕ)

/-- The news comes, and if its dive obtains an analysis that is noted. -/
def newsStep (s : DiveHistory) (news : HighImpactNews) : DiveHistory where
  memory := onNewsHighImpact rt upper plumbing s.memory news
  obtained :=
    if Fires upper plumbing s.memory news ∧ (news.dive.analysis rt).isSome = true then
      s.obtained ++ [news.week]
    else s.obtained

/-- **The slots tell the truth**: no week has two analyses, and the slot of a week is used exactly
if it has one. -/
structure Honest (s : DiveHistory) : Prop where
  once : s.obtained.Nodup
  used_iff : ∀ week, Used s.memory week ↔ week ∈ s.obtained

/-- A dive that is set off raises before the model is asked, or it brings an analysis that goes
through. -/
def Counts (memory : OpusMemory) (news : HighImpactNews) : Prop :=
  Fires upper plumbing memory news → news.dive.state = none ∨
    ∃ timestamp data, news.dive.state = some timestamp ∧ news.dive.analysis rt = some data ∧
      goesThrough rt news.dive (upper (upper news.symbol)) timestamp data = true

/-- A dive comes back exactly if it obtains an analysis, unless it fails after the question or what
it leads to raises. -/
theorem returns_iff_isSome_iff (memory : OpusMemory) (symbol : Str) (world : DiveWorld) :
    ((opusRunDeepDive rt upper memory symbol world).2 = true ↔
        (world.analysis rt).isSome = true) ↔
      world.state = none ∨ ∃ timestamp data, world.state = some timestamp ∧
        world.analysis rt = some data ∧
          goesThrough rt world (upper symbol) timestamp data = true := by
  rw [opusRunDeepDive_returns_iff]
  cases hstate : world.state with
  | none => simp [DiveWorld.analysis, hstate]
  | some timestamp => cases world.analysis rt <;> simp

/-- **One piece of news.** -/
theorem honest_newsStep_iff {s : DiveHistory} (h : Honest s) (news : HighImpactNews) :
    Honest (newsStep rt upper plumbing s news) ↔ Counts rt upper plumbing s.memory news := by
  by_cases hfires : Fires upper plumbing s.memory news
  · have hused := used_onNewsHighImpact rt upper plumbing hfires
    have hfree : news.week ∉ s.obtained := fun hc => hfires.2.2.2 ((h.used_iff _).mpr hc)
    have hobtained : ∀ week, week ∈ (newsStep rt upper plumbing s news).obtained ↔
        week ∈ s.obtained ∨ week = news.week ∧ (news.dive.analysis rt).isSome = true := by
      intro week
      by_cases hanalysis : (news.dive.analysis rt).isSome = true
      · simp [newsStep, hfires, hanalysis]
      · simp [newsStep, hanalysis]
    rw [Counts, forall_prop_of_true hfires, ← returns_iff_isSome_iff rt upper s.memory]
    constructor
    · intro hnext
      have hweek := hnext.used_iff news.week
      rw [hobtained] at hweek
      simpa [newsStep, hused, hfree, hfires.2.2.2] using hweek
    · intro hiff
      refine ⟨?_, fun week => ?_⟩
      · show (if _ then _ else _ : List (ℕ × ℕ)).Nodup
        split_ifs
        · exact List.nodup_append.mpr ⟨h.once, List.nodup_singleton _, by
            intro week hweek week' hweek' heq
            rw [List.mem_singleton.mp hweek'] at heq
            exact hfree (heq ▸ hweek)⟩
        · exact h.once
      · rw [hobtained, ← h.used_iff, ← hiff]
        exact hused week
  · have hsame : newsStep rt upper plumbing s news = s := by
      obtain ⟨-, heq⟩ | ⟨hc, -⟩ := onNewsHighImpact_cases rt upper plumbing s.memory news
      · rw [newsStep, heq, if_neg fun hc => hfires hc.1]
      · exact absurd hc hfires
    rw [hsame]
    exact iff_of_true h fun hc => absurd hc hfires

theorem honest_empty : Honest ⟨.empty, []⟩ := ⟨List.nodup_nil, fun week => by simp [Used]⟩

/-- **When the slots tell the truth**, in every state that news leads to. -/
theorem honest_slots_iff (events : List HighImpactNews) :
    (∀ pre, pre <+: events → Honest (run (newsStep rt upper plumbing) ⟨.empty, []⟩ pre)) ↔
      Along (newsStep rt upper plumbing) (fun s => Counts rt upper plumbing s.memory)
        ⟨.empty, []⟩ events :=
  @forall_reached_iff_along _ _ _ _ _ (fun _ => True) Honest (fun _ _ _ => trivial)
    (fun _ news _ hs => honest_newsStep_iff rt upper plumbing hs news) trivial honest_empty events

/-- News of a name that Opus holds, while the budget is exhausted. -/
def newsWithoutBudget : HighImpactNews where
  symbol := Str.ofString "NVDA"
  now := 0
  held := some [Str.ofString "NVDA"]
  watchlist := []
  dive := ⟨some someTime, .ok (), .error .budgetExhausted, true⟩

/-- **A dive without an answer uses up the week.** -/
theorem not_forall_honest :
    ¬∀ (rt : PyRuntime DecimalFloat) (upper : Str → Str) (plumbing : List Str)
      (events : List HighImpactNews),
        Honest (run (newsStep rt upper plumbing) ⟨.empty, []⟩ events) := by
  intro h
  have hnext := h plainRuntime id [Str.ofString "NVDA"] [newsWithoutBudget]
  have hcounts := (honest_newsStep_iff plainRuntime id [Str.ofString "NVDA"] honest_empty
    newsWithoutBudget).mp hnext
  have hfires : Fires id [Str.ofString "NVDA"] .empty newsWithoutBudget :=
    ⟨by decide, by decide, ⟨_, rfl, by decide⟩, by decide⟩
  rcases hcounts hfires with hstate | ⟨-, data, -, hdata, -⟩
  · exact absurd hstate (Option.some_ne_none _)
  · exact absurd hdata.symm (Option.some_ne_none data)

end App

end TradingPlatform
