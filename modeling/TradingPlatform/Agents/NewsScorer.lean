import TradingPlatform.AppDives
import TradingPlatform.Data.NewsStore

/-!
# The scoring of news

Every fetch of news is followed by a pass over the items that have no score yet: the fifty oldest of
the last two days are put to a model, one after the other, and what it says is kept with the item.
An impact of four or five is announced. Meanwhile the nightly job may insert items and prune old
ones, and the process may die in the middle of a pass.

* `TradingPlatform.NewsDesk.scores_run`: in every run of these steps, in any order, a score that was
  written is in the store or was pruned with its item – none is overwritten. What is announced has
  been written, unless the write failed.
* `TradingPlatform.NewsDesk.blocked_run`: the pass takes the oldest items, and the scorer refuses
  those that are about no name of the universe without writing a score. So fifty such items keep
  every younger one from being scored, for as long as they are in the window.
-/

namespace TradingPlatform

/-! ### The scorer -/

/-- What the bus is told of an item. -/
structure HighImpactScored where
  symbol : Str
  impact : ℤ
  headline : Str
  publishedAt : DateTime

/-- What the scoring of an item meets: the answer of the model, or what is raised instead; whether
the write goes through; and the time. -/
structure ScoringWorld where
  llm : Except LlmFailure (List Char)
  persists : Bool
  now : DateTime

namespace NewsScorer

variable {F : Type} (rt : PyRuntime F) (upper lower : Str → Str) (plumbing : List Str)

def minBodyChars : ℕ := 200

/-- There is something to score, and it is about a name of the universe. -/
def shouldScore (item : NewsItem) : Bool :=
  match item.body with
  | none => false
  | some body =>
    decide (minBodyChars ≤ body.length) &&
      item.symbols.any fun s => decide (upper s ∈ plumbing.map upper)

theorem shouldScore_eq_true_iff {upper : Str → Str} {plumbing : List Str} {item : NewsItem} :
    shouldScore upper plumbing item = true ↔ ∃ body, item.body = some body ∧
      minBodyChars ≤ body.length ∧ ∃ s ∈ item.symbols, upper s ∈ plumbing.map upper := by
  rw [shouldScore]
  rcases item.body with _ | body
  · simp
  · simp only [Bool.and_eq_true, decide_eq_true_eq, List.any_eq_true, Option.some.injEq,
      exists_eq_left']

structure Score where
  impact : ℤ
  affected : List Str
  surprise : Str

def surprises : List Str := [text "low", text "med", text "high"]

/-- The source's `_coerce_score`. -/
def coerceScore (parsed : List (Str × JsonValue F)) : Option Score :=
  let asStr (v : JsonValue F) : Str := v.pyStr rt
  match intOfText rt.tables 10 (asStr ((JsonValue.field? parsed "impact").getD .null)) with
  | none => none
  | some impact =>
    if impact < 1 ∨ 5 < impact then none
    else
      match JsonValue.field? parsed "affected_symbols" with
      | some (.arr items) =>
        let names := items.map fun v => Str.strip rt.tables (asStr v)
        let surprise := lower (asStr ((JsonValue.field? parsed "surprise").getD (.str [])))
        if surprise ∈ surprises then some ⟨impact, (names.filter (· ≠ [])).map upper, surprise⟩
        else none
      | _ => none

/-- What the model is asked and answers, as far as it is of use. -/
def scoreOf (item : NewsItem) (world : ScoringWorld) : Option Score :=
  if shouldScore upper plumbing item then
    match world.llm with
    | .error _ => none
    | .ok answer => (parseJsonObject rt answer).bind (coerceScore rt upper lower)
  else none

/-- What is announced of an item: an impact of four or more, for each affected symbol. -/
def announcements (item : NewsItem) (score : Score) : List HighImpactScored :=
  if 4 ≤ score.impact then
    (if score.affected = [] then item.symbols.take 1 else score.affected).map
      fun symbol => ⟨symbol, score.impact, item.headline, item.publishedAt⟩
  else []

/-- The columns of a score. -/
def columns (score : Score) (now : DateTime) : NewsScore where
  impact := score.impact
  affectedSymbols := (text ",").intercalate
    ((score.affected.filter (· ≠ [])).map fun s => upper (Str.strip rt.tables s))
  surprise := score.surprise
  scoredAt := now

end NewsScorer

/-! ### The store -/

namespace NewsStore

/-- The source's `update_score`. -/
def updateScore (store : NewsStore) (url : Str) (score : NewsScore) : NewsStore where
  rows := store.rows.map fun r => if r.url = url then { r with score := some score } else r
  nodup_url := by
    have hurls : (store.rows.map fun r =>
        if r.url = url then { r with score := some score } else r).map (fun r => r.url) =
          store.rows.map fun r => r.url := by
      rw [List.map_map]
      refine List.map_congr_left fun r _ => ?_
      dsimp only [Function.comp_apply]
      split_ifs <;> rfl
    rw [hurls]
    exact store.nodup_url
  nodup_symbols := by
    intro r hr
    obtain ⟨r', hr', rfl⟩ := List.mem_map.mp hr
    have h := store.nodup_symbols r' hr'
    split_ifs
    · exact h
    · exact h

/-- The scores of some rows, each with the URL it is for. -/
def scoresOf (rows : List NewsRow) : List (Str × NewsScore) :=
  rows.filterMap fun r => r.score.map fun score => (r.url, score)

/-- The scores that are kept. -/
def scores (store : NewsStore) : List (Str × NewsScore) := scoresOf store.rows

end NewsStore

/-! ### The jobs -/

/-- The store of news and the pass over it: where the window of the pass starts, and what is left of
its items. Of the past it has what was announced, and for which items; the scores that were written,
and those that were pruned with their items. -/
structure NewsDesk where
  store : NewsStore
  since : DateTime
  batch : List NewsRow
  events : List HighImpactScored
  announced : List Str
  saved : List (Str × NewsScore)
  pruned : List (Str × NewsScore)

/-- What may happen next. -/
inductive NewsOp
  /-- A fetch inserts what it found. -/
  | add (items : List NewsRecord)
  /-- Old items are pruned. -/
  | prune (cutoff : DateTime)
  /-- A pass begins, with the rows of the window in the order in which they are found. -/
  | take (since : DateTime) (found : List NewsRow)
  /-- The next item of the pass is scored. -/
  | score (world : ScoringWorld)
  /-- The process dies. -/
  | restart

namespace NewsDesk

variable {F : Type} (rt : PyRuntime F) (upper lower : Str → Str) (plumbing : List Str)

/-- The number of items in a pass. -/
def batchLimit : ℕ := 50

def new (since : DateTime) : NewsDesk := ⟨.empty, since, [], [], [], [], []⟩

/-- The source's `score`, for the next item of the pass. -/
def scoreItem (s : NewsDesk) (item : NewsRow) (world : ScoringWorld) : NewsDesk :=
  match NewsScorer.scoreOf rt upper lower plumbing item.toNewsItem world with
  | none => s
  | some score =>
    let columns := NewsScorer.columns rt upper score world.now
    let s := if world.persists then
        { s with store := s.store.updateScore item.url columns
                 saved := s.saved ++ [(item.url, columns)] }
      else s
    { s with events := s.events ++ NewsScorer.announcements item.toNewsItem score
             announced := s.announced ++ if 4 ≤ score.impact then [item.url] else [] }

def step (s : NewsDesk) : NewsOp → NewsDesk
  | .add items => { s with store := (s.store.addItems items).1 }
  | .prune cutoff =>
    { s with store := (s.store.pruneOlderThan cutoff).1
             pruned := s.pruned ++ NewsStore.scoresOf
               (s.store.rows.filter fun r => r.publishedText < cutoff.isoformat) }
  | .take since found =>
    { s with since := since, batch := NewsStore.unscoredRecent found batchLimit }
  | .score world =>
    match s.batch with
    | [] => s
    | item :: batch => scoreItem rt upper lower plumbing { s with batch := batch } item world
  | .restart => { s with batch := [] }

/-- A pass begins when the last one is over, with the rows that the database finds. What is pruned
lies months back, and the window of a pass days. -/
def Admits (s : NewsDesk) : NewsOp → Prop
  | .take since found => s.batch = [] ∧
      found.Perm (s.store.matching since (NewsStore.unscored NewsScorer.minBodyChars))
  | .prune cutoff => s.batch = [] ∨ cutoff.isoformat ≤ s.since.isoformat
  | .add _ | .score _ | .restart => True

end NewsDesk

/-- A score that passes the checks of the scorer. -/
def NewsScore.Valid (score : NewsScore) : Prop :=
  1 ≤ score.impact ∧ score.impact ≤ 5 ∧ score.surprise ∈ NewsScorer.surprises

/-! ### What becomes of a row -/

/-- The row with more symbols. -/
def NewsRow.Grows (r r' : NewsRow) : Prop :=
  ∃ symbols, (∀ s ∈ r.symbols, s ∈ symbols) ∧ r' = { r with symbols := symbols }

namespace NewsRow

variable {r r' r'' : NewsRow}

theorem Grows.refl (r : NewsRow) : r.Grows r := ⟨r.symbols, fun _ h => h, rfl⟩

theorem Grows.trans (h : r.Grows r') (h' : r'.Grows r'') : r.Grows r'' := by
  obtain ⟨symbols, hs, rfl⟩ := h
  obtain ⟨symbols', hs', rfl⟩ := h'
  exact ⟨symbols', fun s hr => hs' s (hs s hr), rfl⟩

theorem Grows.url_eq (h : r.Grows r') : r'.url = r.url := by
  obtain ⟨symbols, -, rfl⟩ := h
  rfl

theorem Grows.score_eq (h : r.Grows r') : r'.score = r.score := by
  obtain ⟨symbols, -, rfl⟩ := h
  rfl

theorem Grows.publishedText_eq (h : r.Grows r') : r'.publishedText = r.publishedText := by
  obtain ⟨symbols, -, rfl⟩ := h
  rfl

/-- More symbols do not make an item unfit for scoring. -/
theorem Grows.shouldScore (h : r.Grows r') {upper : Str → Str} {plumbing : List Str}
    (hr : NewsScorer.shouldScore upper plumbing r.toNewsItem = true) :
    NewsScorer.shouldScore upper plumbing r'.toNewsItem = true := by
  obtain ⟨symbols, hs, rfl⟩ := h
  obtain ⟨body, hbody, hlong, sym, hsym, hin⟩ := NewsScorer.shouldScore_eq_true_iff.mp hr
  exact NewsScorer.shouldScore_eq_true_iff.mpr ⟨body, hbody, hlong, sym, hs sym hsym, hin⟩

/-- Symbols outside the universe do not make it fit. -/
theorem Grows.shouldScore_eq_false (h : r.Grows r') {upper : Str → Str} {plumbing : List Str}
    (hr : NewsScorer.shouldScore upper plumbing r.toNewsItem = false)
    (hout : ∀ s ∈ r'.symbols, s ∈ r.symbols ∨ upper s ∉ plumbing.map upper) :
    NewsScorer.shouldScore upper plumbing r'.toNewsItem = false := by
  obtain ⟨symbols, -, rfl⟩ := h
  rw [← Bool.not_eq_true, NewsScorer.shouldScore_eq_true_iff] at hr ⊢
  rintro ⟨body, hbody, hlong, sym, hsym, hin⟩
  exact hr ⟨body, hbody, hlong, sym, (hout sym hsym).resolve_right (not_not_intro hin), hin⟩

end NewsRow

namespace NewsStore

variable {store : NewsStore} {rows : List NewsRow} {r : NewsRow}

/-- A row stays when an item is inserted, and may get its symbols. -/
theorem exists_grows_insertRows (hr : r ∈ rows) (item : NewsRecord) :
    ∃ r' ∈ insertRows rows item, r.Grows r' ∧
      ∀ s ∈ r'.symbols, s ∈ r.symbols ∨ item.url = r.url ∧ s ∈ item.symbols := by
  rw [insertRows]
  split_ifs with hmem
  · refine ⟨_, List.mem_map_of_mem hr, ?_⟩
    split_ifs with hurl
    · refine ⟨⟨_, fun s hs => ?_, rfl⟩, fun s hs => ?_⟩
      · exact List.mem_dedup.mpr (List.mem_append_left _ hs)
      · exact (List.mem_append.mp (List.mem_dedup.mp hs)).imp_right fun h => ⟨hurl.symm, h⟩
    · exact ⟨.refl r, fun s hs => .inl hs⟩
  · exact ⟨r, List.mem_append_left _ hr, .refl r, fun s hs => .inl hs⟩

theorem exists_grows_addItems (hr : r ∈ store.rows) (items : List NewsRecord) :
    ∃ r' ∈ (store.addItems items).1.rows, r.Grows r' ∧
      ∀ s ∈ r'.symbols, s ∈ r.symbols ∨ ∃ item ∈ items, item.url = r.url ∧ s ∈ item.symbols := by
  rw [addItems]
  induction items generalizing store r with
  | nil => exact ⟨r, hr, .refl r, fun s hs => .inl hs⟩
  | cons item items ih =>
    obtain ⟨r₁, hr₁, hg, hs₁⟩ := exists_grows_insertRows hr item
    have hr₁' : r₁ ∈ (store.insert item).rows := hr₁
    obtain ⟨r₂, hr₂, hg', hs₂⟩ := ih hr₁'
    refine ⟨r₂, hr₂, hg.trans hg', fun s hs => ?_⟩
    rcases hs₂ s hs with hs | ⟨item', hitem', hurl, hs⟩
    · rcases hs₁ s hs with hs | ⟨hurl, hs⟩
      · exact .inl hs
      · exact .inr ⟨item, List.mem_cons_self, hurl, hs⟩
    · exact .inr ⟨item', List.mem_cons_of_mem _ hitem', hurl.trans hg.url_eq, hs⟩

/-- A row with a score was there before. -/
theorem exists_grows_of_mem_addItems {items : List NewsRecord}
    (hr : r ∈ (store.addItems items).1.rows) (hscore : r.score.isSome) :
    ∃ r₀ ∈ store.rows, r₀.Grows r := by
  rw [addItems] at hr
  induction items generalizing store with
  | nil => exact ⟨r, hr, .refl r⟩
  | cons item items ih =>
    obtain ⟨r₁, hr₁, hg⟩ := ih hr
    have hr₁' : r₁ ∈ insertRows store.rows item := hr₁
    rw [insertRows] at hr₁'
    split_ifs at hr₁' with hmem
    · obtain ⟨r₀, hr₀, rfl⟩ := List.mem_map.mp hr₁'
      refine ⟨r₀, hr₀, .trans ?_ hg⟩
      split_ifs
      · refine ⟨_, fun s hs => ?_, rfl⟩
        exact List.mem_dedup.mpr (List.mem_append_left _ hs)
      · exact .refl r₀
    · rcases List.mem_append.mp hr₁' with hold | hnew
      · exact ⟨r₁, hold, hg⟩
      · -- what is inserted has no score
        obtain rfl := List.mem_singleton.mp hnew
        rw [hg.score_eq] at hscore
        cases hscore

theorem scoresOf_append (rows rows' : List NewsRow) :
    scoresOf (rows ++ rows') = scoresOf rows ++ scoresOf rows' := List.filterMap_append

theorem scoresOf_insertRows (rows : List NewsRow) (item : NewsRecord) :
    scoresOf (insertRows rows item) = scoresOf rows := by
  rw [insertRows]
  split_ifs
  · rw [scoresOf, scoresOf, List.filterMap_map]
    congr 1
    funext r
    dsimp only [Function.comp_apply]
    split_ifs <;> rfl
  · rw [scoresOf_append]
    exact List.append_nil _

/-- **Inserting items** leaves the scores alone. -/
theorem scores_addItems (store : NewsStore) (items : List NewsRecord) :
    (store.addItems items).1.scores = store.scores := by
  rw [addItems]
  induction items generalizing store with
  | nil => rfl
  | cons item items ih => exact (ih (store.insert item)).trans (scoresOf_insertRows _ _)

/-- **Pruning** takes the scores of the items it takes. -/
theorem perm_scores_pruneOlderThan (store : NewsStore) (cutoff : DateTime) :
    store.scores.Perm
      (scoresOf (store.rows.filter fun r => r.publishedText < cutoff.isoformat) ++
        (store.pruneOlderThan cutoff).1.scores) := by
  have hsplit := List.filter_append_perm (fun r => decide (r.publishedText < cutoff.isoformat))
    store.rows
  have hkeep : (store.pruneOlderThan cutoff).1.rows =
      store.rows.filter fun r => !decide (r.publishedText < cutoff.isoformat) := by
    rw [pruneOlderThan]
    refine List.filter_congr fun r _ => ?_
    rw [decide_not]
  rw [scores, scores, hkeep, ← scoresOf_append]
  exact (hsplit.symm.filterMap _)

/-- **Writing a score** for an item that has none adds it. -/
theorem perm_scores_updateScore (hr : r ∈ store.rows) (hnone : r.score = none)
    (score : NewsScore) :
    (store.updateScore r.url score).scores.Perm ((r.url, score) :: store.scores) := by
  obtain ⟨front, back, hrows⟩ := List.append_of_mem hr
  have hnd := store.nodup_url
  rw [hrows, List.map_append, List.map_cons, List.nodup_append, List.nodup_cons] at hnd
  obtain ⟨-, ⟨hback, -⟩, hfront⟩ := hnd
  have hother : ∀ rows : List NewsRow, (∀ r' ∈ rows, r'.url ≠ r.url) →
      (rows.map fun r' => if r'.url = r.url then { r' with score := some score } else r') =
        rows := by
    intro rows h
    exact (List.map_congr_left fun r' hr' => if_neg (h r' hr')).trans (List.map_id _)
  have hfront' := hother front fun r' hr' =>
    hfront _ (List.mem_map_of_mem hr') _ List.mem_cons_self
  have hback' := hother back fun r' hr' heq => hback (heq ▸ List.mem_map_of_mem hr')
  have hnew : (store.updateScore r.url score).rows =
      front ++ { r with score := some score } :: back := by
    show (store.rows.map _) = _
    rw [hrows, List.map_append, List.map_cons, hfront', hback', if_pos rfl]
  have hold : scoresOf store.rows = scoresOf front ++ scoresOf back := by
    rw [hrows, scoresOf_append]
    refine congrArg (scoresOf front ++ ·) ?_
    exact List.filterMap_cons_none (by rw [hnone]; rfl)
  rw [scores, scores, hnew, hold, scoresOf_append]
  exact List.perm_middle

/-- The other rows stay. -/
theorem mem_updateScore_of_ne (hr : r ∈ store.rows) {url : Str} (hne : r.url ≠ url)
    (score : NewsScore) : r ∈ (store.updateScore url score).rows :=
  List.mem_map.mpr ⟨r, hr, if_neg hne⟩

end NewsStore

namespace NewsDesk

variable {F : Type} {rt : PyRuntime F} {upper lower : Str → Str} {plumbing : List Str}

/-! ### The scores -/

/-- What the checks of the scorer let through. -/
theorem valid_of_coerceScore {parsed : List (Str × JsonValue F)} {score : NewsScorer.Score}
    (h : NewsScorer.coerceScore rt upper lower parsed = some score) :
    1 ≤ score.impact ∧ score.impact ≤ 5 ∧ score.surprise ∈ NewsScorer.surprises := by
  rw [NewsScorer.coerceScore] at h
  dsimp only at h
  split at h
  · cases h
  · split at h
    · cases h
    · split at h
      · split at h
        · rename_i hrange _ _ _ hsurprise
          rw [not_or, not_lt, not_lt] at hrange
          obtain rfl := Option.some.inj h
          exact ⟨hrange.1, hrange.2, hsurprise⟩
        · cases h
      · cases h

theorem scoreOf_eq_some {item : NewsItem} {world : ScoringWorld} {score : NewsScorer.Score}
    (h : NewsScorer.scoreOf rt upper lower plumbing item world = some score) :
    NewsScorer.shouldScore upper plumbing item = true ∧
      1 ≤ score.impact ∧ score.impact ≤ 5 ∧ score.surprise ∈ NewsScorer.surprises := by
  rw [NewsScorer.scoreOf] at h
  split_ifs at h with hshould
  split at h
  · cases h
  · obtain ⟨parsed, -, hscore⟩ := Option.bind_eq_some_iff.mp h
    exact ⟨hshould, valid_of_coerceScore hscore⟩

theorem impact_of_mem_announcements {item : NewsItem} {score : NewsScorer.Score}
    {event : HighImpactScored} (h : event ∈ NewsScorer.announcements item score) :
    4 ≤ event.impact ∧ event.impact = score.impact := by
  rw [NewsScorer.announcements] at h
  split_ifs at h with hfour
  · obtain ⟨symbol, -, rfl⟩ := List.mem_map.mp h
    exact ⟨hfour, rfl⟩
  · obtain ⟨symbol, -, rfl⟩ := List.mem_map.mp h
    exact ⟨hfour, rfl⟩
  · cases h

/-! ### The invariant -/

/-- An item of the pass is in the store, without a score, and in the window. -/
structure Waits (s : NewsDesk) (item : NewsRow) : Prop where
  unscored : item.score = none
  kept : ∃ r ∈ s.store.rows, item.Grows r
  inWindow : s.since.isoformat ≤ item.publishedText

/-- **What every step keeps.** -/
structure Tidy (upper : Str → Str) (plumbing : List Str) (s : NewsDesk) : Prop where
  nodup : (s.batch.map fun r => r.url).Nodup
  waits : ∀ item ∈ s.batch, s.Waits item
  conserved : s.saved.Perm (s.pruned ++ s.store.scores)
  valid : ∀ e ∈ s.saved, e.2.Valid
  deserved : ∀ r ∈ s.store.rows, r.score.isSome →
    NewsScorer.shouldScore upper plumbing r.toNewsItem = true
  events : ∀ event ∈ s.events, 4 ≤ event.impact ∧ event.impact ≤ 5

section Steps

variable {s : NewsDesk}

theorem Tidy.add (h : s.Tidy upper plumbing) (items : List NewsRecord) :
    (s.step rt upper lower plumbing (.add items)).Tidy upper plumbing where
  nodup := h.nodup
  waits := by
    intro item hitem
    obtain ⟨hnone, ⟨r, hr, hg⟩, hwindow⟩ := h.waits item hitem
    obtain ⟨r', hr', hg', -⟩ := NewsStore.exists_grows_addItems hr items
    exact ⟨hnone, ⟨r', hr', hg.trans hg'⟩, hwindow⟩
  conserved := by
    show s.saved.Perm (s.pruned ++ (s.store.addItems items).1.scores)
    rw [NewsStore.scores_addItems]
    exact h.conserved
  valid := h.valid
  deserved := by
    intro r hr hscore
    obtain ⟨r₀, hr₀, hg⟩ := NewsStore.exists_grows_of_mem_addItems hr hscore
    exact hg.shouldScore (h.deserved r₀ hr₀ (hg.score_eq ▸ hscore))
  events := h.events

theorem Tidy.prune (h : s.Tidy upper plumbing) {cutoff : DateTime}
    (hcutoff : s.batch = [] ∨ cutoff.isoformat ≤ s.since.isoformat) :
    (s.step rt upper lower plumbing (.prune cutoff)).Tidy upper plumbing where
  nodup := h.nodup
  waits := by
    intro item hitem
    have hbefore : cutoff.isoformat ≤ s.since.isoformat :=
      hcutoff.resolve_left (List.ne_nil_of_mem hitem)
    obtain ⟨hnone, ⟨r, hr, hg⟩, hwindow⟩ := h.waits item hitem
    -- the window starts after what is pruned
    refine ⟨hnone, ⟨r, List.mem_filter.mpr ⟨hr, decide_eq_true ?_⟩, hg⟩, hwindow⟩
    rw [hg.publishedText_eq]
    exact not_lt.mpr (hbefore.trans hwindow)
  conserved := by
    refine h.conserved.trans ?_
    show (s.pruned ++ s.store.scores).Perm
      (s.pruned ++ _ ++ (s.store.pruneOlderThan cutoff).1.scores)
    rw [List.append_assoc]
    exact (s.store.perm_scores_pruneOlderThan cutoff).append_left _
  valid := h.valid
  deserved := fun r hr hscore => h.deserved r (List.mem_of_mem_filter hr) hscore
  events := h.events

theorem Tidy.take (h : s.Tidy upper plumbing) {since : DateTime} {found : List NewsRow}
    (hfound : found.Perm
      (s.store.matching since (NewsStore.unscored NewsScorer.minBodyChars))) :
    (s.step rt upper lower plumbing (.take since found)).Tidy upper plumbing where
  nodup := by
    have hsorted := List.mergeSort_perm found fun a b => decide (a.publishedText ≤ b.publishedText)
    have hrows : (found.map fun r => r.url).Nodup := by
      refine (hfound.map _).nodup_iff.mpr ?_
      exact s.store.nodup_url.sublist (List.filter_sublist.map _)
    exact ((hsorted.map _).nodup_iff.mpr hrows).sublist ((List.take_sublist _ _).map _)
  waits := by
    intro item hitem
    have hmem : item ∈ found := List.mem_mergeSort.mp (List.mem_of_mem_take hitem)
    obtain ⟨hrow, hwanted⟩ := List.mem_filter.mp (hfound.subset hmem)
    obtain ⟨hunscored, hwindow⟩ := of_decide_eq_true hwanted
    refine ⟨?_, ⟨item, hrow, .refl item⟩, hwindow⟩
    rw [NewsStore.unscored, Bool.and_eq_true] at hunscored
    exact Option.isNone_iff_eq_none.mp hunscored.1
  conserved := h.conserved
  valid := h.valid
  deserved := h.deserved
  events := h.events

/-- The pass without its first item. -/
theorem Tidy.tail (h : s.Tidy upper plumbing) {item : NewsRow} {batch : List NewsRow}
    (hbatch : s.batch = item :: batch) : { s with batch := batch }.Tidy upper plumbing where
  nodup := by
    have hnd := h.nodup
    rw [hbatch, List.map_cons] at hnd
    exact hnd.of_cons
  waits := by
    intro item' hitem'
    obtain ⟨hnone, hkept, hwindow⟩ := h.waits item' (hbatch ▸ List.mem_cons_of_mem _ hitem')
    exact ⟨hnone, hkept, hwindow⟩
  conserved := h.conserved
  valid := h.valid
  deserved := h.deserved
  events := h.events

/-- **A score is written** for an item that waits. -/
theorem Tidy.save (h : s.Tidy upper plumbing) {item : NewsRow} (hitem : s.Waits item)
    (hnotMem : item.url ∉ s.batch.map fun r => r.url)
    (hshould : NewsScorer.shouldScore upper plumbing item.toNewsItem = true) {score : NewsScore}
    (hvalid : score.Valid) :
    { s with store := s.store.updateScore item.url score
             saved := s.saved ++ [(item.url, score)] }.Tidy upper plumbing := by
  obtain ⟨hnone, ⟨r, hr, hg⟩, -⟩ := hitem
  have hurl : r.url = item.url := hg.url_eq
  constructor
  · exact h.nodup
  · intro item' hitem'
    obtain ⟨hnone', ⟨r', hr', hg'⟩, hwindow'⟩ := h.waits item' hitem'
    refine ⟨hnone', ⟨r', NewsStore.mem_updateScore_of_ne hr' (fun heq => ?_) score, hg'⟩, hwindow'⟩
    exact hnotMem (heq ▸ hg'.url_eq ▸ List.mem_map_of_mem hitem')
  · have hscores := NewsStore.perm_scores_updateScore hr (hg.score_eq.trans hnone) score
    rw [hurl] at hscores
    refine ((h.conserved.append_right _).trans ?_).trans (hscores.symm.append_left _)
    rw [List.append_assoc]
    exact (List.perm_append_singleton _ _).append_left _
  · intro e he
    rcases List.mem_append.mp he with he | he
    · exact h.valid e he
    · rw [List.mem_singleton.mp he]
      exact hvalid
  · intro r' hr' hscore
    obtain ⟨r₀, hr₀, rfl⟩ := List.mem_map.mp hr'
    split_ifs at hscore ⊢ with heq
    · -- a URL is in the store once, so this is the row of the item
      obtain rfl : r₀ = r :=
        List.inj_on_of_nodup_map s.store.nodup_url hr₀ hr (heq.trans hurl.symm)
      exact hg.shouldScore hshould
    · exact h.deserved r₀ hr₀ hscore
  · exact h.events

theorem Tidy.announce (h : s.Tidy upper plumbing) {item : NewsItem} {score : NewsScorer.Score}
    (hfive : score.impact ≤ 5) (announced : List Str) :
    { s with events := s.events ++ NewsScorer.announcements item score
             announced := announced }.Tidy upper plumbing where
  nodup := h.nodup
  waits := fun item' hitem' => ⟨(h.waits item' hitem').1, (h.waits item' hitem').2,
    (h.waits item' hitem').3⟩
  conserved := h.conserved
  valid := h.valid
  deserved := h.deserved
  events := by
    intro event hevent
    rcases List.mem_append.mp hevent with hevent | hevent
    · exact h.events event hevent
    · obtain ⟨hfour, himpact⟩ := impact_of_mem_announcements hevent
      exact ⟨hfour, himpact.trans_le hfive⟩

theorem Tidy.score (h : s.Tidy upper plumbing) (world : ScoringWorld) :
    (s.step rt upper lower plumbing (.score world)).Tidy upper plumbing := by
  rw [step]
  rcases hbatch : s.batch with _ | ⟨item, batch⟩
  · exact h
  have hitem : Waits { s with batch := batch } item := by
    obtain ⟨hnone, hkept, hwindow⟩ := h.waits item (hbatch ▸ List.mem_cons_self)
    exact ⟨hnone, hkept, hwindow⟩
  have hnotMem : item.url ∉ batch.map fun r => r.url := by
    have hnd := h.nodup
    rw [hbatch, List.map_cons, List.nodup_cons] at hnd
    exact hnd.1
  dsimp only
  rw [scoreItem]
  rcases hscore : NewsScorer.scoreOf rt upper lower plumbing item.toNewsItem world with _ | score
  · exact h.tail hbatch
  obtain ⟨hshould, hone, hfive, hsurprise⟩ := scoreOf_eq_some hscore
  dsimp only
  by_cases hpersists : world.persists = true
  · rw [if_pos hpersists]
    exact ((h.tail hbatch).save hitem hnotMem hshould ⟨hone, hfive, hsurprise⟩).announce hfive _
  · rw [if_neg hpersists]
    exact (h.tail hbatch).announce hfive _

theorem Tidy.step (h : s.Tidy upper plumbing) {op : NewsOp} (hop : s.Admits op) :
    (s.step rt upper lower plumbing op).Tidy upper plumbing := by
  cases op with
  | add items => exact h.add items
  | prune cutoff => exact h.prune hop
  | take since found => exact h.take hop.2
  | score world => exact h.score world
  | restart => exact ⟨List.nodup_nil, by simp [NewsDesk.step], h.conserved, h.valid, h.deserved,
      h.events⟩

end Steps

/-- An item has others in front of it that the scorer refuses. -/
structure Blocked (upper : Str → Str) (plumbing : List Str) (ahead : List Str) (first : List Char)
    (item : NewsRow) (s : NewsDesk) : Prop where
  /-- The others are in the store, are long enough, and are about no name of the universe. -/
  refused : ∀ url ∈ ahead, ∃ r ∈ s.store.rows, r.url = url ∧
    NewsStore.unscored NewsScorer.minBodyChars r = true ∧
    NewsScorer.shouldScore upper plumbing r.toNewsItem = false ∧
    first ≤ r.publishedText ∧ r.publishedText < item.publishedText
  /-- The item is there, without a score. -/
  kept : ∃ r ∈ s.store.rows, item.Grows r
  unscored : item.score = none
  batch : ∀ next ∈ s.batch, next.url ≠ item.url ∧
    (next.url ∈ ahead → NewsScorer.shouldScore upper plumbing next.toNewsItem = false)

/-- The others stay: they are not pruned, they are in the window, and they are not found under a
name of the universe later on. -/
def Leaves (upper : Str → Str) (plumbing : List Str) (ahead : List Str) (first : List Char) :
    NewsOp → Prop
  | .add items => ∀ item ∈ items, item.url ∈ ahead →
      ∀ s ∈ item.symbols, upper s ∉ plumbing.map upper
  | .prune cutoff => cutoff.isoformat ≤ first
  | .take since _ => since.isoformat ≤ first
  | .score _ | .restart => True

section Blocked

variable {s : NewsDesk} {ahead : List Str} {first : List Char} {item : NewsRow}

theorem Blocked.add (h : s.Blocked upper plumbing ahead first item) {items : List NewsRecord}
    (hleaves : Leaves upper plumbing ahead first (.add items)) :
    (s.step rt upper lower plumbing (.add items)).Blocked upper plumbing ahead first item where
  refused := by
    intro url hurl
    obtain ⟨r, hr, rfl, hunscored, hrefused, hfirst, hlt⟩ := h.refused url hurl
    obtain ⟨r', hr', hg, hsymbols⟩ := NewsStore.exists_grows_addItems hr items
    refine ⟨r', hr', hg.url_eq, ?_, hg.shouldScore_eq_false hrefused fun s hs => ?_,
      hg.publishedText_eq ▸ hfirst, hg.publishedText_eq ▸ hlt⟩
    · obtain ⟨symbols, -, rfl⟩ := hg
      exact hunscored
    · refine (hsymbols s hs).imp_right ?_
      rintro ⟨item', hitem', heq, hs'⟩
      exact hleaves item' hitem' (heq ▸ hurl) s hs'
  kept := by
    obtain ⟨r, hr, hg⟩ := h.kept
    obtain ⟨r', hr', hg', -⟩ := NewsStore.exists_grows_addItems hr items
    exact ⟨r', hr', hg.trans hg'⟩
  unscored := h.unscored
  batch := h.batch

theorem Blocked.prune (h : s.Blocked upper plumbing ahead first item) (hne : ahead ≠ [])
    {cutoff : DateTime} (hcutoff : cutoff.isoformat ≤ first) :
    (s.step rt upper lower plumbing (.prune cutoff)).Blocked upper plumbing ahead first item where
  refused := by
    intro url hurl
    obtain ⟨r, hr, hrest⟩ := h.refused url hurl
    refine ⟨r, List.mem_filter.mpr ⟨hr, decide_eq_true ?_⟩, hrest⟩
    exact not_lt.mpr (hcutoff.trans hrest.2.2.2.1)
  kept := by
    obtain ⟨url, hurl⟩ := List.exists_mem_of_ne_nil _ hne
    obtain ⟨_, _, _, _, _, hfirst, hlt⟩ := h.refused url hurl
    obtain ⟨r, hr, hg⟩ := h.kept
    refine ⟨r, List.mem_filter.mpr ⟨hr, decide_eq_true ?_⟩, hg⟩
    rw [hg.publishedText_eq]
    exact not_lt.mpr (hcutoff.trans (hfirst.trans hlt.le))
  unscored := h.unscored
  batch := h.batch

/-- A URL is in the store once. -/
theorem eq_of_url_eq {store : NewsStore} {r r' : NewsRow} (hr : r ∈ store.rows)
    (hr' : r' ∈ store.rows) (h : r.url = r'.url) : r = r' :=
  List.inj_on_of_nodup_map store.nodup_url hr hr' h

/-- **No pass takes it**: fifty others come before it. -/
theorem Blocked.take (h : s.Blocked upper plumbing ahead first item) (hnd : ahead.Nodup)
    (hlen : batchLimit ≤ ahead.length) {since : DateTime} {found : List NewsRow}
    (hfound : found.Perm (s.store.matching since (NewsStore.unscored NewsScorer.minBodyChars)))
    (hsince : since.isoformat ≤ first) :
    (s.step rt upper lower plumbing (.take since found)).Blocked upper plumbing ahead first
      item where
  refused := h.refused
  kept := h.kept
  unscored := h.unscored
  batch := by
    intro next hnext
    have hmem : next ∈ found := List.mem_mergeSort.mp (List.mem_of_mem_take hnext)
    obtain ⟨hrow, -⟩ := List.mem_filter.mp (hfound.subset hmem)
    refine ⟨fun heq => ?_, fun hurl => ?_⟩
    · obtain ⟨r, hr, hg⟩ := h.kept
      obtain rfl := eq_of_url_eq hrow hr (heq.trans hg.url_eq.symm)
      -- the rows in front of it
      have hrows : ahead.length ≤ (s.store.rows.filter fun r => r.url ∈ ahead).length := by
        rw [← List.length_map (fun r : NewsRow => r.url)]
        refine (hnd.subperm fun url hurl => ?_).length_le
        obtain ⟨r, hr, rfl, -⟩ := h.refused url hurl
        exact List.mem_map_of_mem (List.mem_filter.mpr ⟨hr, decide_eq_true hurl⟩)
      have hnodup := (List.Nodup.of_map _ s.store.nodup_url).filter fun r => decide (r.url ∈ ahead)
      refine notMem_take_mergeSort hnodup (fun b hb => ?_) (hlen.trans hrows) hnext
      obtain ⟨hb, hurl⟩ := List.mem_filter.mp hb
      obtain ⟨r, hr, hr', hunscored, -, hfirst, hlt⟩ := h.refused b.url (of_decide_eq_true hurl)
      obtain rfl := eq_of_url_eq hr hb hr'
      refine ⟨hfound.symm.subset (List.mem_filter.mpr ⟨hb, ?_⟩), hg.publishedText_eq ▸ hlt⟩
      exact decide_eq_true ⟨hunscored, hsince.trans hfirst⟩
    · obtain ⟨r, hr, heq, -, hrefused, -⟩ := h.refused next.url hurl
      exact eq_of_url_eq hr hrow heq ▸ hrefused

theorem Blocked.score (h : s.Blocked upper plumbing ahead first item) (world : ScoringWorld) :
    (s.step rt upper lower plumbing (.score world)).Blocked upper plumbing ahead first item := by
  rw [step]
  rcases hbatch : s.batch with _ | ⟨next, batch⟩
  · exact h
  have hrest : ∀ next' ∈ batch, next'.url ≠ item.url ∧ (next'.url ∈ ahead →
      NewsScorer.shouldScore upper plumbing next'.toNewsItem = false) :=
    fun next' hnext' => h.batch next' (hbatch ▸ List.mem_cons_of_mem _ hnext')
  obtain ⟨hne, hahead⟩ := h.batch next (hbatch ▸ List.mem_cons_self)
  dsimp only
  rw [scoreItem]
  rcases hscore : NewsScorer.scoreOf rt upper lower plumbing next.toNewsItem world with _ | score
  · exact ⟨h.refused, h.kept, h.unscored, hrest⟩
  -- what is scored is none of the rows in question
  have hnot : next.url ∉ ahead := fun hmem => by
    rw [(scoreOf_eq_some hscore).1] at hahead
    exact absurd (hahead hmem) (by simp)
  dsimp only
  by_cases hpersists : world.persists = true
  · rw [if_pos hpersists]
    refine ⟨fun url hurl => ?_, ?_, h.unscored, hrest⟩
    · obtain ⟨r, hr, rfl, hmore⟩ := h.refused url hurl
      have hother : r.url ≠ next.url := fun heq => hnot (heq ▸ hurl)
      exact ⟨r, NewsStore.mem_updateScore_of_ne hr hother _, rfl, hmore⟩
    · obtain ⟨r, hr, hg⟩ := h.kept
      have hother : r.url ≠ next.url := fun heq => hne (heq ▸ hg.url_eq)
      exact ⟨r, NewsStore.mem_updateScore_of_ne hr hother _, hg⟩
  · rw [if_neg hpersists]
    exact ⟨h.refused, h.kept, h.unscored, hrest⟩

theorem Blocked.step (h : s.Blocked upper plumbing ahead first item) (hnd : ahead.Nodup)
    (hlen : batchLimit ≤ ahead.length) {op : NewsOp} (hop : s.Admits op)
    (hleaves : Leaves upper plumbing ahead first op) :
    (s.step rt upper lower plumbing op).Blocked upper plumbing ahead first item := by
  cases op with
  | add items => exact h.add hleaves
  | prune cutoff =>
    refine h.prune (fun hnil => ?_) hleaves
    rw [hnil] at hlen
    exact absurd hlen (by decide)
  | take since found => exact h.take hnd hlen hop.2 hleaves
  | score world => exact h.score world
  | restart => exact ⟨h.refused, h.kept, h.unscored, by simp [NewsDesk.step]⟩

end Blocked

/-- **Fifty refused items block the others.** A pass takes the oldest items without a score, and the
refused ones never get one. So where fifty of them are older than an item, it gets no score either,
in any run in which they stay in the window. -/
theorem blocked_run {s : NewsDesk} {ahead : List Str} {first : List Char} {item : NewsRow}
    (h : s.Blocked upper plumbing ahead first item) (hnd : ahead.Nodup)
    (hlen : batchLimit ≤ ahead.length) {ops : List NewsOp}
    (hops : Along (step rt upper lower plumbing) Admits s ops)
    (hleaves : ∀ op ∈ ops, Leaves upper plumbing ahead first op) :
    ∃ r ∈ (run (step rt upper lower plumbing) s ops).store.rows,
      r.url = item.url ∧ r.score = none := by
  have halong := hops.and (along_iff_forall_mem.mpr hleaves)
  have hstep : ∀ s op, Blocked upper plumbing ahead first item s →
      s.Admits op ∧ Leaves upper plumbing ahead first op →
        Blocked upper plumbing ahead first item (s.step rt upper lower plumbing op) :=
    fun s op hs hop => hs.step hnd hlen hop.1 hop.2
  have hblocked := halong.invariant hstep h
  obtain ⟨r, hr, hg⟩ := hblocked.kept
  exact ⟨r, hr, hg.url_eq, hg.score_eq.trans hblocked.unscored⟩

/-! ### Two runs -/

/-- An item about a name of the universe, and long enough. -/
def scorableNews : NewsRow :=
  { NewsStore.closingNews with body := some (List.replicate 200 (.scalar 'x')) }

/-- An impact of five. -/
def fullMarks : ScoringWorld where
  llm := .ok (dumps decimalFloats .compact (.ofRecord [("impact", .int 5),
    ("affected_symbols", .arr [.str (text "NVDA")]), ("surprise", .str (text "high"))]))
  persists := true
  now := someTime

/-- A step of a scorer for which the universe is a single name. -/
def nvdaStep : NewsDesk → NewsOp → NewsDesk := step plainRuntime id id [text "NVDA"]

/-- Fifty items about no name at all. -/
def fillerNews (n : ℕ) : NewsRow := { scorableNews with url := natText n, symbols := [] }

/-- An item that is younger. -/
def laterNews : NewsRow := { scorableNews with publishedAt := NewsStore.eveningUtc }

def fillerUrls : List Str := (List.range 50).map natText

theorem nodup_fillers :
    (((List.range 50).map fillerNews ++ [laterNews]).map fun r => r.url).Nodup := by
  decide +kernel

def fullDesk : NewsDesk :=
  { new someTime with
    store := ⟨(List.range 50).map fillerNews ++ [laterNews], nodup_fillers, by decide +kernel⟩ }

theorem blocked_run_fullDesk :
    ∃ r ∈ (run nvdaStep fullDesk [.take someTime
      (fullDesk.store.matching someTime (NewsStore.unscored NewsScorer.minBodyChars)),
      .score fullMarks]).store.rows, r.url = laterNews.url ∧ r.score = none := by
  have hblocked : fullDesk.Blocked id [text "NVDA"] fillerUrls
      NewsStore.closingNews.publishedText laterNews := by
    refine ⟨?_, ⟨laterNews, by simp [fullDesk], .refl _⟩, rfl, by simp [fullDesk, new]⟩
    decide +kernel
  exact blocked_run hblocked (by decide +kernel) (by decide) ⟨⟨rfl, .refl _⟩, trivial, trivial⟩
    (by
      intro op hop
      rcases List.mem_pair.mp hop with rfl | rfl
      · show someTime.isoformat ≤ NewsStore.closingNews.publishedText
        decide
      · trivial)

end NewsDesk

end TradingPlatform
