import TradingPlatform.Agents.ExternalContent
import TradingPlatform.Newest

/-!
# The news store

Items of news are kept by URL, each with the symbols it was found under, and with a score once it
has one. Four statements of the store are about time: the recent items of some symbols, those
without a score, those of the greatest impact, and the pruning of old ones. All four compare the
texts of the times.

A text keeps the offset from UTC that the feed wrote, so texts compare as the times do only among
themselves. `TradingPlatform.NewsStore.inTime_iff` says of which contents of a store, and of which
start of a window, the four statements do what they should: every text compares with the cutoff as
its time does, and two texts that one statement may order compare as their times do
(`TradingPlatform.NewsStore.TextsInTime`).

The database may return rows with one text in any order. So a query is modelled from the rows in the
order in which they are found, and what is said of it is said for every such order.
-/

namespace TradingPlatform

/-- What the scorer makes of an item. -/
structure NewsScore where
  impact : ℤ
  affectedSymbols : Str
  surprise : Str
  scoredAt : DateTime

/-- An item as an adapter delivers it. -/
structure NewsRecord extends NewsItem where
  url : Str
  sentiment : Option Decimal := none

/-- An item in the store, with its score if it has one. -/
structure NewsRow extends NewsRecord where
  score : Option NewsScore := none

/-- The text its time is kept as. -/
def NewsRow.publishedText (r : NewsRow) : List Char := r.publishedAt.isoformat

/-- When it was published. -/
def NewsRow.instant (r : NewsRow) : Time := r.publishedAt.instant

/-- The two tables: each URL once, and each symbol of it once. -/
structure NewsStore where
  rows : List NewsRow
  nodup_url : (rows.map fun r => r.url).Nodup
  nodup_symbols : ∀ r ∈ rows, r.symbols.Nodup

namespace NewsStore

def empty : NewsStore := ⟨[], List.nodup_nil, by simp⟩

/-! ### What changes the store -/

/-- Insert an item, unless its URL is there. Its symbols are inserted in any case. -/
def insertRows (rows : List NewsRow) (item : NewsRecord) : List NewsRow :=
  if item.url ∈ rows.map fun r => r.url then
    rows.map fun r =>
      if r.url = item.url then { r with symbols := (r.symbols ++ item.symbols).dedup } else r
  else rows ++ [{ toNewsRecord := { item with symbols := item.symbols.dedup } }]

theorem nodup_url_insertRows {rows : List NewsRow} (h : (rows.map fun r => r.url).Nodup)
    (item : NewsRecord) : ((insertRows rows item).map fun r => r.url).Nodup := by
  rw [insertRows]
  split_ifs with hmem
  · have hurls : ((rows.map fun r => if r.url = item.url then
        { r with symbols := (r.symbols ++ item.symbols).dedup } else r).map fun r => r.url) =
          rows.map fun r => r.url := by
      rw [List.map_map]
      refine List.map_congr_left fun r _ => ?_
      show (if r.url = item.url then _ else r : NewsRow).url = r.url
      split_ifs <;> rfl
    rwa [hurls]
  · rw [List.map_append]
    refine h.append (List.nodup_singleton _) ?_
    rintro url hurl hnew
    rw [List.map_singleton, List.mem_singleton] at hnew
    exact hmem (hnew ▸ hurl)

theorem nodup_symbols_insertRows {rows : List NewsRow} (h : ∀ r ∈ rows, r.symbols.Nodup)
    (item : NewsRecord) : ∀ r ∈ insertRows rows item, r.symbols.Nodup := by
  intro r hr
  rw [insertRows] at hr
  split_ifs at hr
  · obtain ⟨r', hr', rfl⟩ := List.mem_map.mp hr
    split_ifs
    · exact List.nodup_dedup _
    · exact h r' hr'
  · rcases List.mem_append.mp hr with hr | hr
    · exact h r hr
    · rw [List.mem_singleton.mp hr]
      exact List.nodup_dedup _

def insert (store : NewsStore) (item : NewsRecord) : NewsStore where
  rows := insertRows store.rows item
  nodup_url := nodup_url_insertRows store.nodup_url item
  nodup_symbols := nodup_symbols_insertRows store.nodup_symbols item

/-- The store after `add_items`, and how many rows are new. -/
def addItems (store : NewsStore) (items : List NewsRecord) : NewsStore × ℕ :=
  let store' := items.foldl insert store
  (store', store'.rows.length - store.rows.length)

/-- The store after `prune_older_than`, and how many rows are deleted. -/
def pruneOlderThan (store : NewsStore) (cutoff : DateTime) : NewsStore × ℕ :=
  ({ rows := store.rows.filter fun r => ¬r.publishedText < cutoff.isoformat
     nodup_url := store.nodup_url.sublist (List.filter_sublist.map _)
     nodup_symbols := fun r hr => store.nodup_symbols r (List.mem_of_mem_filter hr) },
    store.rows.countP fun r => r.publishedText < cutoff.isoformat)

/-! ### The queries -/

/-- The rows that a query is for, where their text is not before that of the start. -/
def matching (store : NewsStore) (start : DateTime) (wanted : NewsRow → Bool) : List NewsRow :=
  store.rows.filter fun r => wanted r ∧ start.isoformat ≤ r.publishedText

/-- Whether a row is of one of some symbols. -/
def ofSymbols (symbols : List Str) (r : NewsRow) : Bool := decide (∃ s ∈ symbols, s ∈ r.symbols)

/-- The length of a text for the database, which ends it at a NUL. -/
def sqlLength (s : Str) : ℕ := (s.takeWhile (· ≠ .scalar '\u0000')).length

/-- A row without a score whose body is long enough. -/
def unscored (minBodyChars : ℕ) (r : NewsRow) : Bool :=
  r.score.isNone &&
    match r.body with
    | some body => decide (minBodyChars ≤ sqlLength body)
    | none => false

/-- The impact of a row that has a score. -/
def impact (r : NewsRow) : Option ℤ := r.score.map NewsScore.impact

def hasImpact (minImpact : ℤ) (r : NewsRow) : Bool :=
  match impact r with
  | some n => decide (minImpact ≤ n)
  | none => false

/-- The loop over the rows of `recent_for_symbols`: with a quota a row is taken if one of its
requested symbols has some of it left, and counts against all of them. -/
def scan (symbols : List Str) (perSymbolLimit : Option ℕ) (limit : ℕ) :
    (Str → ℕ) → ℕ → List NewsRow → List NewsRow
  | _, _, [] => []
  | count, taken, row :: rows =>
    let relevant := row.symbols.filter (· ∈ symbols)
    let accepted := match perSymbolLimit with
      | some quota => relevant.any fun s => decide (count s < quota)
      | none => true
    if accepted then
      let count' := fun s => if s ∈ relevant then count s + 1 else count s
      row ::
        if limit ≤ taken + 1 then []
        else scan symbols perSymbolLimit limit count' (taken + 1) rows
    else scan symbols perSymbolLimit limit count taken rows

/-- How many rows are fetched. -/
def poolSize (symbols : List Str) (limit : ℕ) : Option ℕ → ℕ
  | none => limit
  | some quota => max limit (quota * symbols.length * 2)

/-- The rows that `recent_for_symbols` looks at, from those that match in the order in which they
are found. -/
def pool (found : List NewsRow) (symbols : List Str) (limit : ℕ) (perSymbolLimit : Option ℕ) :
    List NewsRow :=
  (found.mergeSort fun a b => b.publishedText ≤ a.publishedText).take
    (poolSize symbols limit perSymbolLimit)

def recentForSymbols (found : List NewsRow) (symbols : List Str) (limit : ℕ)
    (perSymbolLimit : Option ℕ) : List NewsRow :=
  if symbols = [] then []
  else
    scan symbols perSymbolLimit limit (fun _ => 0) 0 (pool found symbols limit perSymbolLimit)

def unscoredRecent (found : List NewsRow) (limit : ℕ) : List NewsRow :=
  (found.mergeSort fun a b => a.publishedText ≤ b.publishedText).take limit

/-- What the rows are sorted by: the impact, then the text. -/
def impactKey {κ : Type} (key : NewsRow → κ) (r : NewsRow) : ℤ ×ₗ κ :=
  toLex ((impact r).getD 0, key r)

def topImpactSince (found : List NewsRow) (limit : ℕ) : List NewsRow :=
  (found.mergeSort fun a b =>
    impactKey NewsRow.publishedText b ≤ impactKey NewsRow.publishedText a).take limit

/-! ### What the four statements should do -/

/-- The rows that some statement should consider: those it is for, published at a time or after
it. -/
def since (store : NewsStore) (start : DateTime) (wanted : NewsRow → Bool) : List NewsRow :=
  store.rows.filter fun r => wanted r ∧ start.instant ≤ r.instant

/-- **The four statements go by the time**: however many rows are asked for, and in whatever order
they are found, they are the newest, or the oldest, of those in the window; and what is pruned is
what is older. -/
structure InTime (store : NewsStore) (start : DateTime) : Prop where
  recent : ∀ symbols, symbols ≠ [] → ∀ (limit : ℕ) (found : List NewsRow),
    found.Perm (store.matching start (ofSymbols symbols)) →
      Newest NewsRow.instant limit (store.since start (ofSymbols symbols))
        (recentForSymbols found symbols limit none)
  recent_quota : ∀ symbols (limit quota : ℕ) (found : List NewsRow),
    found.Perm (store.matching start (ofSymbols symbols)) →
      NewestFirst NewsRow.instant (recentForSymbols found symbols limit (some quota)) ∧
        ∀ r ∈ recentForSymbols found symbols limit (some quota), start.instant ≤ r.instant
  unscored : ∀ (minBodyChars limit : ℕ) (found : List NewsRow),
    found.Perm (store.matching start (NewsStore.unscored minBodyChars)) →
      Newest (fun r => OrderDual.toDual (NewsRow.instant r)) limit
        (store.since start (NewsStore.unscored minBodyChars)) (unscoredRecent found limit)
  top : ∀ (minImpact : ℤ) (limit : ℕ) (found : List NewsRow),
    found.Perm (store.matching start (hasImpact minImpact)) →
      Newest (impactKey NewsRow.instant) limit (store.since start (hasImpact minImpact))
        (topImpactSince found limit)
  prune : (store.pruneOlderThan start).1.rows =
    store.rows.filter fun r => ¬r.instant < start.instant

/-- Two rows that one statement may order by their texts. -/
def Together (r r' : NewsRow) : Prop :=
  (r.symbols ≠ [] ∧ r'.symbols ≠ []) ∨ (unscored 0 r ∧ unscored 0 r') ∨
    ((impact r).isSome ∧ impact r = impact r')

/-- **What the store takes for granted of its texts.** -/
structure TextsInTime (store : NewsStore) (start : DateTime) : Prop where
  /-- The texts compare with the cutoff as the times do. -/
  window : ∀ r ∈ store.rows, start.isoformat ≤ r.publishedText ↔ start.instant ≤ r.instant
  /-- The texts that one statement may order compare as the times do. -/
  order : ∀ r ∈ store.rows, ∀ r' ∈ store.rows, Together r r' → start.isoformat ≤ r.publishedText →
    r.publishedText < r'.publishedText → r.instant ≤ r'.instant

/-! ### The queries -/

section Queries

variable {store : NewsStore} {start : DateTime} {symbols : List Str}

/-- Without a quota every row is taken. -/
theorem scan_none (symbols : List Str) {limit : ℕ} (count : Str → ℕ) {taken : ℕ}
    {rows : List NewsRow} (h : taken + rows.length ≤ limit) :
    scan symbols none limit count taken rows = rows := by
  induction rows generalizing count taken with
  | nil => rfl
  | cons row rows ih =>
    rw [List.length_cons] at h
    rcases rows with _ | ⟨next, rows⟩
    · simp [scan]
    · have hmore : ¬limit ≤ taken + 1 := by
        rw [List.length_cons] at h
        omega
      simp only [scan, ↓reduceIte, hmore]
      exact congrArg (row :: ·) (ih _ (by omega))

/-- What is taken are some of the rows, in their order. -/
theorem scan_sublist (symbols : List Str) (perSymbolLimit : Option ℕ) (limit : ℕ)
    (count : Str → ℕ) (taken : ℕ) (rows : List NewsRow) :
    (scan symbols perSymbolLimit limit count taken rows).Sublist rows := by
  induction rows generalizing count taken with
  | nil => exact List.Sublist.refl _
  | cons row rows ih =>
    simp only [scan]
    split_ifs
    · exact List.Sublist.cons_cons _ (List.nil_sublist _)
    · exact (ih _ _).cons_cons _
    · exact (ih _ _).cons _

theorem recentForSymbols_none (hsymbols : symbols ≠ []) (limit : ℕ) (found : List NewsRow) :
    recentForSymbols found symbols limit none =
      (found.mergeSort fun a b => b.publishedText ≤ a.publishedText).take limit := by
  rw [recentForSymbols, if_neg hsymbols, scan_none, pool, poolSize]
  rw [pool, poolSize, Nat.zero_add]
  exact List.length_take_le _ _

theorem recentForSymbols_sublist (found : List NewsRow) (symbols : List Str) (limit : ℕ)
    (perSymbolLimit : Option ℕ) :
    (recentForSymbols found symbols limit perSymbolLimit).Sublist
      (found.mergeSort fun a b => b.publishedText ≤ a.publishedText) := by
  rw [recentForSymbols]
  split_ifs
  · exact List.nil_sublist _
  · exact (scan_sublist _ _ _ _ _ _).trans (List.take_sublist _ _)

theorem mem_matching {wanted : NewsRow → Bool} {r : NewsRow} :
    r ∈ store.matching start wanted ↔
      r ∈ store.rows ∧ wanted r = true ∧ start.isoformat ≤ r.publishedText := by
  rw [matching, List.mem_filter, decide_eq_true_iff]

/-- With the texts in the window the rows are those that should be considered. -/
theorem matching_eq_since
    (h : ∀ r ∈ store.rows, start.isoformat ≤ r.publishedText ↔ start.instant ≤ r.instant)
    (wanted : NewsRow → Bool) : store.matching start wanted = store.since start wanted :=
  List.filter_congr fun r hr => decide_eq_decide.mpr (and_congr_right fun _ => h r hr)

theorem instant_eq_of_publishedText_eq (r r' : NewsRow) (h : r.publishedText = r'.publishedText) :
    r.instant = r'.instant :=
  instant_eq_of_isoformat_eq h

/-- **When a query goes by the time**: when the texts of the rows it is for compare as their times
do. -/
theorem forall_newest_matching_iff {κ κ' : Type} [LinearOrder κ] [LinearOrder κ']
    (key : NewsRow → κ) (key' : NewsRow → κ') (heq : ∀ r r', key r = key r' → key' r = key' r')
    (h : ∀ r ∈ store.rows, start.isoformat ≤ r.publishedText ↔ start.instant ≤ r.instant)
    (wanted : NewsRow → Bool) :
    (∀ (limit : ℕ) (found : List NewsRow), found.Perm (store.matching start wanted) →
        Newest key' limit (store.since start wanted)
          ((found.mergeSort fun a b => key b ≤ key a).take limit)) ↔
      ∀ r ∈ store.matching start wanted, ∀ r' ∈ store.matching start wanted,
        key r < key r' → key' r ≤ key' r' := by
  rw [forall_newest_mergeSort_iff heq, matching_eq_since h]
  exact and_iff_right (List.Perm.refl _)

/-- What is pruned is what is older exactly if the texts compare with the cutoff as the times
do. -/
theorem prune_iff :
    ((store.pruneOlderThan start).1.rows =
        store.rows.filter fun r => ¬r.instant < start.instant) ↔
      ∀ r ∈ store.rows, start.isoformat ≤ r.publishedText ↔ start.instant ≤ r.instant := by
  have hkept : ∀ r, r ∈ (store.pruneOlderThan start).1.rows ↔
      r ∈ store.rows ∧ start.isoformat ≤ r.publishedText := by
    intro r
    rw [pruneOlderThan, List.mem_filter, decide_eq_true_iff, not_lt]
  constructor
  · intro h r hr
    have hr' := hkept r
    rw [h, List.mem_filter, decide_eq_true_iff, not_lt] at hr'
    simpa [hr] using hr'.symm
  · intro h
    refine List.filter_congr fun r hr => ?_
    rw [decide_eq_decide, not_lt, not_lt]
    exact h r hr

theorem isSome_impact {minImpact : ℤ} {r : NewsRow} (h : hasImpact minImpact r = true) :
    (impact r).isSome := by
  rw [hasImpact] at h
  cases himpact : impact r with
  | none =>
    rw [himpact] at h
    exact absurd h Bool.false_ne_true
  | some n => rfl

theorem impactKey_eq (r r' : NewsRow)
    (h : impactKey NewsRow.publishedText r = impactKey NewsRow.publishedText r') :
    impactKey NewsRow.instant r = impactKey NewsRow.instant r' := by
  obtain ⟨himpact, htext⟩ := Prod.mk.inj (toLex.injective h)
  rw [impactKey, impactKey, himpact, instant_eq_of_publishedText_eq r r' htext]

/-- Rows of one impact are ordered by the rest of the key. -/
theorem impactKey_lt_iff {κ : Type} [LinearOrder κ] (key : NewsRow → κ) {r r' : NewsRow}
    (h : impact r = impact r') : impactKey key r < impactKey key r' ↔ key r < key r' := by
  rw [impactKey, impactKey, Prod.Lex.toLex_lt_toLex, h]
  simp

theorem impactKey_le_iff {κ : Type} [LinearOrder κ] (key : NewsRow → κ) {r r' : NewsRow}
    (h : impact r = impact r') : impactKey key r ≤ impactKey key r' ↔ key r ≤ key r' := by
  rw [impactKey, impactKey, Prod.Lex.toLex_le_toLex, h]
  simp

theorem unscored_zero {minBodyChars : ℕ} {r : NewsRow} (h : unscored minBodyChars r = true) :
    unscored 0 r = true := by
  rw [unscored, Bool.and_eq_true] at h ⊢
  refine ⟨h.1, ?_⟩
  cases hbody : r.body with
  | none =>
    rw [hbody] at h
    exact h.2
  | some body => exact decide_eq_true (Nat.zero_le _)

/-- The statements go by the time if the texts do. -/
theorem TextsInTime.inTime (h : TextsInTime store start) : InTime store start := by
  have hrecent : ∀ symbols, symbols ≠ [] → ∀ (limit : ℕ) (found : List NewsRow),
      found.Perm (store.matching start (ofSymbols symbols)) →
        Newest NewsRow.instant limit (store.since start (ofSymbols symbols))
          ((found.mergeSort fun a b => b.publishedText ≤ a.publishedText).take limit) := by
    intro symbols _
    refine (forall_newest_matching_iff _ _ instant_eq_of_publishedText_eq h.window _).mpr ?_
    intro r hr r' hr' hlt
    obtain ⟨hmem, hof, hin⟩ := mem_matching.mp hr
    obtain ⟨hmem', hof', -⟩ := mem_matching.mp hr'
    obtain ⟨s, -, hs⟩ := of_decide_eq_true hof
    obtain ⟨s', -, hs'⟩ := of_decide_eq_true hof'
    refine h.order r hmem r' hmem' (Or.inl ⟨?_, ?_⟩) hin hlt
    · exact List.ne_nil_of_mem hs
    · exact List.ne_nil_of_mem hs'
  refine ⟨fun symbols hsymbols limit found hfound => ?_, fun symbols limit quota found hfound => ?_,
    fun minBodyChars => ?_, fun minImpact => ?_, prune_iff.mpr h.window⟩
  · rw [recentForSymbols_none hsymbols]
    exact hrecent symbols hsymbols limit found hfound
  · rcases eq_or_ne symbols [] with rfl | hsymbols
    · simp [recentForSymbols, NewestFirst]
    · -- what is taken are some of the rows that all of them would be without a quota
      have hsub := recentForSymbols_sublist found symbols limit (some quota)
      have hall := hrecent symbols hsymbols
        (max found.length (store.since start (ofSymbols symbols)).length) found hfound
      have hlen : (found.mergeSort fun a b => b.publishedText ≤ a.publishedText).length =
          found.length := List.length_mergeSort found
      rw [List.take_of_length_le (hlen.trans_le (le_max_left _ _))] at hall
      obtain ⟨hperm, hnewest⟩ := hall.perm (le_max_right _ _)
      refine ⟨List.Pairwise.sublist hsub hnewest, fun r hr => ?_⟩
      have hmem := hperm.subset (hsub.mem hr)
      exact (of_decide_eq_true (List.mem_filter.mp hmem).2).2
  · -- oldest first is newest first the other way round
    refine (forall_newest_matching_iff (fun r => OrderDual.toDual (NewsRow.publishedText r))
      (fun r => OrderDual.toDual (NewsRow.instant r))
      (fun r r' heq => instant_eq_of_publishedText_eq r r' heq) h.window _).mpr ?_
    intro r hr r' hr' hlt
    obtain ⟨hmem, hunscored, -⟩ := mem_matching.mp hr
    obtain ⟨hmem', hunscored', hin'⟩ := mem_matching.mp hr'
    exact h.order r' hmem' r hmem
      (Or.inr (Or.inl ⟨unscored_zero hunscored', unscored_zero hunscored⟩)) hin' hlt
  · refine (forall_newest_matching_iff _ _ impactKey_eq h.window _).mpr ?_
    intro r hr r' hr' hlt
    obtain ⟨hmem, hhas, hin⟩ := mem_matching.mp hr
    obtain ⟨hmem', hhas', -⟩ := mem_matching.mp hr'
    obtain ⟨n, hn⟩ := Option.isSome_iff_exists.mp (isSome_impact hhas)
    obtain ⟨n', hn'⟩ := Option.isSome_iff_exists.mp (isSome_impact hhas')
    rcases eq_or_ne n n' with rfl | hne
    · have himpact : impact r = impact r' := hn.trans hn'.symm
      rw [impactKey_le_iff _ himpact]
      refine h.order r hmem r' hmem' (Or.inr (Or.inr ⟨isSome_impact hhas, himpact⟩)) hin ?_
      exact (impactKey_lt_iff _ himpact).mp hlt
    · -- of different impacts the one is greater whatever the texts are
      simp only [impactKey, Prod.Lex.toLex_lt_toLex, hn, hn', Option.getD_some, hne, false_and,
        or_false] at hlt
      exact Prod.Lex.toLex_le_toLex.mpr (Or.inl (by simpa [hn, hn'] using hlt))

/-- The texts go by the time if the statements do. -/
theorem InTime.textsInTime (h : InTime store start) : TextsInTime store start := by
  have hwindow := prune_iff.mp h.prune
  refine ⟨hwindow, fun r hr r' hr' htogether hin hlt => ?_⟩
  have hin' := hin.trans hlt.le
  rcases htogether with ⟨hsymbols, hsymbols'⟩ | ⟨hunscored, hunscored'⟩ | ⟨hsome, himpact⟩
  · -- the query for a symbol of each considers both rows
    obtain ⟨s, hs⟩ := List.exists_mem_of_ne_nil _ hsymbols
    obtain ⟨s', hs'⟩ := List.exists_mem_of_ne_nil _ hsymbols'
    have horder := (forall_newest_matching_iff _ _ instant_eq_of_publishedText_eq hwindow
      (ofSymbols [s, s'])).mp fun limit found hfound => by
        rw [← recentForSymbols_none (List.cons_ne_nil s [s'])]
        exact h.recent [s, s'] (List.cons_ne_nil s [s']) limit found hfound
    refine horder r (mem_matching.mpr ⟨hr, ?_, hin⟩) r' (mem_matching.mpr ⟨hr', ?_, hin'⟩) hlt
    · exact decide_eq_true ⟨s, List.mem_cons_self, hs⟩
    · exact decide_eq_true ⟨s', List.mem_cons_of_mem _ List.mem_cons_self, hs'⟩
  · have horder := (forall_newest_matching_iff
      (fun r => OrderDual.toDual (NewsRow.publishedText r))
      (fun r => OrderDual.toDual (NewsRow.instant r))
      (fun r r' heq => instant_eq_of_publishedText_eq r r' heq) hwindow (NewsStore.unscored 0)).mp
        (h.unscored 0)
    exact horder r' (mem_matching.mpr ⟨hr', hunscored', hin'⟩) r
      (mem_matching.mpr ⟨hr, hunscored, hin⟩) hlt
  · -- the query for their own impact considers both rows
    obtain ⟨n, hn⟩ := Option.isSome_iff_exists.mp hsome
    have horder := (forall_newest_matching_iff _ _ impactKey_eq hwindow (hasImpact n)).mp (h.top n)
    have hhas : hasImpact n r = true := by simp [hasImpact, hn]
    have hhas' : hasImpact n r' = true := by simp [hasImpact, ← himpact, hn]
    refine (impactKey_le_iff _ himpact).mp (horder r (mem_matching.mpr ⟨hr, hhas, hin⟩) r'
      (mem_matching.mpr ⟨hr', hhas', hin'⟩) ?_)
    exact (impactKey_lt_iff _ himpact).mpr hlt

/-- **When the four statements go by the time**: exactly if the texts do. -/
theorem inTime_iff (store : NewsStore) (start : DateTime) :
    InTime store start ↔ TextsInTime store start :=
  ⟨InTime.textsInTime, TextsInTime.inTime⟩

end Queries

/-! ### An item in another zone -/

theorem valid_march5 : CivilDate.Valid 2026 3 5 := by decide

theorem inRange_winterOffset :
    -86400000000 < (-18000000000 : ℤ) ∧ (-18000000000 : ℤ) < 86400000000 := by decide

/-- Half past four in the afternoon in New York, as the feed writes it. -/
def closingNews : NewsRow where
  source := .finnhub
  headline := text "NVDA closes higher"
  publishedAt := ⟨⟨2026, 3, 5, valid_march5⟩, ⟨16, 30, 0, 0, by decide⟩,
    ⟨-18000000000, inRange_winterOffset⟩, ⟨-18000000000, inRange_winterOffset⟩⟩
  symbols := [text "NVDA"]
  url := text "https://example.com/nvda"

def oneItem : NewsStore := ⟨[closingNews], List.nodup_singleton _, by simp [closingNews]⟩

/-- Eight in the evening, in UTC. -/
def eveningUtc : DateTime := .utc ⟨2026, 3, 5, valid_march5⟩ ⟨20, 0, 0, 0, by decide⟩

/-- **An item of half past nine is pruned as older than eight**, since its text says half past
four. -/
theorem not_inTime_closingNews :
    ¬InTime oneItem eveningUtc ∧ eveningUtc.instant ≤ closingNews.instant ∧
      (oneItem.pruneOlderThan eveningUtc).2 = 1 := by
  refine ⟨fun h => ?_, by decide, by decide⟩
  have hwindow := h.textsInTime.window closingNews List.mem_cons_self
  revert hwindow
  decide

end NewsStore

end TradingPlatform
