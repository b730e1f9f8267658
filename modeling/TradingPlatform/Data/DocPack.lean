import TradingPlatform.Data.NewsStore

/-!
# The research context next to the store

The research context of a deep dive says of a symbol that there were no filings, or no news, in the
last so many days. Both are drawn from one query for the symbol. It returns the newest rows, twenty
more than the news that are shown, and the two kinds are told apart only afterwards. So rows of the
one kind can push out all those of the other.

`TradingPlatform.DocPack.truthful_iff` says of which stores what is said is true, in whatever order
the rows of one text are found: of either kind, some row in front of which there is room for the
rows of the other (`TradingPlatform.DocPack.Reached`).
-/

namespace TradingPlatform

namespace DocPack

/-- Whether a row is a filing. What is not a filing is news. -/
def isFiling (r : NewsRow) : Bool := decide (r.source = .edgar)

def isNews (r : NewsRow) : Bool := decide (r.source ≠ .edgar)

/-- The answer of the store to the one query for the symbol, from the rows that match in the order
in which they are found. -/
def companyItems (found : List NewsRow) (symbol : Str) (maxCompanyItems : ℕ) : List NewsItem :=
  (NewsStore.recentForSymbols found [symbol] (maxCompanyItems + 20) none).map fun r => r.toNewsItem

def filings (items : List NewsItem) : List NewsItem := items.filter fun i => i.source = .edgar

def news (items : List NewsItem) (maxCompanyItems : ℕ) : List NewsItem :=
  (items.filter fun i => i.source ≠ .edgar).take maxCompanyItems

section Blocks

variable (tables : UnicodeTables) (symbol : Str) (lookbackDays : ℕ)

def newsBlocks (items : List NewsItem) : List Str :=
  itemBlocks tables symbol " news (last " " news: no items in last " lookbackDays items

def filingsBlocks (items : List NewsItem) : List Str :=
  itemBlocks tables symbol " SEC filings (last " " SEC filings: no 8-K or 10-Q in last "
    lookbackDays items

/-- The line that there is nothing. -/
def denial (none : String) : Str :=
  text "--- " ++ symbol ++ text none ++ natText lookbackDays ++ text " days ---"

/-- **What the context says of the symbol** is what it says of the news, and then of the filings,
in the answer to the one query. -/
theorem buildDocPack_eq (recent : Str → ℕ → ℕ → List NewsItem) (now : DateTime)
    (sectorLookbackDays maxCompanyItems maxSectorItems : ℕ) :
    ∃ before after, buildDocPack tables recent symbol now lookbackDays sectorLookbackDays
        maxCompanyItems maxSectorItems =
      lines (before ++
        newsBlocks tables symbol lookbackDays
          (news (recent symbol lookbackDays (maxCompanyItems + 20)) maxCompanyItems) ++
        filingsBlocks tables symbol lookbackDays
          (filings (recent symbol lookbackDays (maxCompanyItems + 20))) ++ after) := by
  refine ⟨[text "<external_content source='news_and_filings'>",
      text "=== Deep-dive doc_pack for " ++ symbol ++ text " (assembled " ++
        now.isoformat.map .scalar ++ text ") ===", []],
    sectorBlocks tables recent (sectorProxy symbol) sectorLookbackDays maxSectorItems ++
      [text "Reminders: weigh the news above against your written thesis. " ++
        text "If the disconfirming evidence in `kill_criteria` is present, exit. " ++
        text "Return the deep_dive JSON schema only.", text "</external_content>"], ?_⟩
  rw [← List.append_assoc]
  rfl

variable {tables symbol lookbackDays}

/-- It is denied that there are items exactly if there are none to show. -/
theorem itemBlocks_eq_denial_iff {title none : String} {items : List NewsItem} :
    itemBlocks tables symbol title none lookbackDays items =
        [denial symbol lookbackDays none, []] ↔ items = [] := by
  constructor
  · intro h
    by_contra hne
    have hlen := congrArg List.length h
    have hpos := List.length_pos_of_ne_nil hne
    rw [itemBlocks, if_neg hne] at hlen
    simp only [List.length_cons, List.length_append, List.length_map, List.length_nil] at hlen
    omega
  · rintro rfl
    rfl

end Blocks

/-! ### What is denied -/

/-- Published in the last so many days. -/
def InWindow (start now : DateTime) (r : NewsRow) : Prop :=
  start.instant ≤ r.instant ∧ r.instant ≤ now.instant

/-- There is nothing of a kind about the symbol in the window. -/
def NothingOf (kind : NewsRow → Bool) (store : NewsStore) (start now : DateTime) (symbol : Str) :
    Prop :=
  ∀ r ∈ store.rows, kind r = true → symbol ∈ r.symbols → ¬InWindow start now r

/-- **The context does not deny what the store has.** `start` is the beginning of the window. -/
structure Truthful (tables : UnicodeTables) (store : NewsStore) (start now : DateTime)
    (symbol : Str) (lookbackDays maxCompanyItems : ℕ) (found : List NewsRow) : Prop where
  news : newsBlocks tables symbol lookbackDays
      (news (companyItems found symbol maxCompanyItems) maxCompanyItems) =
        [denial symbol lookbackDays " news: no items in last ", []] →
    NothingOf isNews store start now symbol
  filings : filingsBlocks tables symbol lookbackDays
      (filings (companyItems found symbol maxCompanyItems)) =
        [denial symbol lookbackDays " SEC filings: no 8-K or 10-Q in last ", []] →
    NothingOf isFiling store start now symbol

/-- There is nothing of a kind in the window, or the query reaches some row of that kind: by their
texts, fewer rows of the other kind than are asked for are as new. -/
def Reached (kind : NewsRow → Bool) (store : NewsStore) (start now : DateTime) (symbol : Str)
    (maxCompanyItems : ℕ) : Prop :=
  NothingOf kind store start now symbol ∨
    ∃ x ∈ store.matching start (NewsStore.ofSymbols [symbol]), kind x = true ∧
      (store.matching start (NewsStore.ofSymbols [symbol])).countP
        (fun r => !kind r && decide (x.publishedText ≤ r.publishedText)) < maxCompanyItems + 20

section Denials

variable {tables : UnicodeTables} {store : NewsStore} {start now : DateTime} {symbol : Str}
  {lookbackDays maxCompanyItems : ℕ} {found : List NewsRow}

theorem filings_companyItems_eq_nil_iff :
    filings (companyItems found symbol maxCompanyItems) = [] ↔
      (NewsStore.recentForSymbols found [symbol] (maxCompanyItems + 20) none).filter isFiling =
        [] := by
  rw [filings, companyItems, List.filter_map, List.map_eq_nil_iff]
  rfl

theorem news_companyItems_eq_nil_iff (hmax : 0 < maxCompanyItems) :
    news (companyItems found symbol maxCompanyItems) maxCompanyItems = [] ↔
      (NewsStore.recentForSymbols found [symbol] (maxCompanyItems + 20) none).filter isNews =
        [] := by
  rw [news, List.take_eq_nil_iff, or_iff_right hmax.ne', companyItems, List.filter_map,
    List.map_eq_nil_iff]
  rfl

/-- **When the rows of a kind are found**, in every order of the rows of one text. -/
theorem forall_filter_recentForSymbols_iff (kind : NewsRow → Bool) (rows : List NewsRow)
    (symbol : Str) (limit : ℕ) :
    (∀ found : List NewsRow, found.Perm rows →
        (NewsStore.recentForSymbols found [symbol] limit none).filter kind ≠ []) ↔
      ∃ x ∈ rows, kind x = true ∧
        rows.countP (fun r => !kind r && decide (x.publishedText ≤ r.publishedText)) < limit := by
  rw [← forall_exists_mem_take_iff]
  have hsome : ∀ l : List NewsRow, l.filter kind ≠ [] ↔ ∃ x ∈ l, kind x = true := by
    intro l
    rw [Ne, List.filter_eq_nil_iff, not_forall]
    simp only [not_forall, not_not, exists_prop]
  simp only [NewsStore.recentForSymbols_none (List.cons_ne_nil symbol []), hsome]
  constructor
  · -- rows that are found newest first are returned as they are found
    intro h l hperm hsorted
    have hl := h l hperm
    rwa [List.mergeSort_of_pairwise] at hl
    simpa [NewestFirst] using hsorted
  · intro h found hfound
    exact h _ ((List.mergeSort_perm _ _).trans hfound) (newestFirst_mergeSort _ found)

/-- What is denied of one kind is true, in every order, exactly if the query reaches that kind. -/
theorem forall_nothingOf_iff (kind : NewsRow → Bool) :
    (∀ found : List NewsRow, found.Perm (store.matching start (NewsStore.ofSymbols [symbol])) →
        (NewsStore.recentForSymbols found [symbol] (maxCompanyItems + 20) none).filter kind = [] →
          NothingOf kind store start now symbol) ↔
      Reached kind store start now symbol maxCompanyItems := by
  rw [Reached, ← forall_filter_recentForSymbols_iff]
  by_cases hnothing : NothingOf kind store start now symbol
  · exact iff_of_true (fun _ _ _ => hnothing) (Or.inl hnothing)
  · rw [or_iff_right hnothing]
    constructor
    · intro h found hfound hnil
      exact hnothing (h found hfound hnil)
    · intro h found hfound hnil
      exact absurd hnil (h found hfound)

/-- **When the context does not deny what the store has**: when the query reaches both kinds. -/
theorem truthful_iff (tables : UnicodeTables) (store : NewsStore) (start now : DateTime)
    (symbol : Str) (lookbackDays : ℕ) {maxCompanyItems : ℕ} (hmax : 0 < maxCompanyItems) :
    (∀ found : List NewsRow, found.Perm (store.matching start (NewsStore.ofSymbols [symbol])) →
        Truthful tables store start now symbol lookbackDays maxCompanyItems found) ↔
      Reached isNews store start now symbol maxCompanyItems ∧
        Reached isFiling store start now symbol maxCompanyItems := by
  rw [← forall_nothingOf_iff, ← forall_nothingOf_iff]
  constructor
  · intro h
    refine ⟨fun found hfound hnil => (h found hfound).news ?_,
      fun found hfound hnil => (h found hfound).filings ?_⟩
    · exact itemBlocks_eq_denial_iff.mpr ((news_companyItems_eq_nil_iff hmax).mpr hnil)
    · exact itemBlocks_eq_denial_iff.mpr (filings_companyItems_eq_nil_iff.mpr hnil)
  · rintro ⟨hnews, hfilings⟩ found hfound
    refine ⟨fun hdenied => hnews found hfound ?_, fun hdenied => hfilings found hfound ?_⟩
    · exact (news_companyItems_eq_nil_iff hmax).mp (itemBlocks_eq_denial_iff.mp hdenied)
    · exact filings_companyItems_eq_nil_iff.mp (itemBlocks_eq_denial_iff.mp hdenied)

end Denials

/-! ### A filing and much news after it -/

/-- An item of some minute: a filing first, and then news. -/
def itemAt (n : Fin 22) : NewsRow where
  source := if n = 0 then .edgar else .finnhub
  headline := text "NVDA"
  publishedAt := .utc ⟨2026, 3, 5, NewsStore.valid_march5⟩
    ⟨15, n, 0, 0, ⟨by decide, n.isLt.trans (by decide)⟩, by decide⟩
  symbols := [text "NVDA"]
  url := [.scalar (Char.ofNat (65 + n))]

/-- A filing, and twenty-one items of news after it. -/
def busyDay : NewsStore :=
  ⟨(List.finRange 22).reverse.map itemAt, by decide +kernel, by decide +kernel⟩

theorem valid_four : (16 < 24 ∧ 0 < 60) ∧ 0 < 60 ∧ 0 < 1000000 := by decide

def ninetyDaysBefore : DateTime := .utc ⟨2025, 12, 5, by decide⟩ ⟨16, 0, 0, 0, valid_four⟩

def afternoon : DateTime := .utc ⟨2026, 3, 5, NewsStore.valid_march5⟩ ⟨16, 0, 0, 0, valid_four⟩

theorem itemAt_mem (n : Fin 22) : itemAt n ∈ busyDay.rows :=
  List.mem_map.mpr ⟨n, List.mem_reverse.mpr (List.mem_finRange n), rfl⟩

theorem matching_busyDay :
    busyDay.matching ninetyDaysBefore (NewsStore.ofSymbols [text "NVDA"]) = busyDay.rows :=
  List.filter_eq_self.mpr (by decide +kernel)

/-- **The filing of an hour ago is denied**: twenty-one rows are asked for, and all are news. -/
theorem not_truthful_busyDay :
    busyDay.rows.Perm
        (busyDay.matching ninetyDaysBefore (NewsStore.ofSymbols [text "NVDA"])) ∧
      ¬Truthful .ascii busyDay ninetyDaysBefore afternoon (text "NVDA") 90 1 busyDay.rows := by
  refine ⟨matching_busyDay ▸ List.Perm.refl _, fun h => ?_⟩
  have hsorted : busyDay.rows.Pairwise fun a b => b.publishedText ≤ a.publishedText := by
    decide +kernel
  have hnone : (NewsStore.recentForSymbols busyDay.rows [text "NVDA"] (1 + 20) none).filter
      isFiling = [] := by
    rw [NewsStore.recentForSymbols_none (List.cons_ne_nil _ _), List.mergeSort_of_pairwise]
    · decide +kernel
    · simpa using hsorted
  have hnothing := h.filings
    (itemBlocks_eq_denial_iff.mpr (filings_companyItems_eq_nil_iff.mpr hnone))
  exact hnothing (itemAt 0) (itemAt_mem 0) (by decide) (by decide) ⟨by decide, by decide⟩

/-- With one more item asked for the filing is found. -/
theorem truthful_busyDay :
    0 < 2 ∧ ∀ found : List NewsRow,
      found.Perm (busyDay.matching ninetyDaysBefore (NewsStore.ofSymbols [text "NVDA"])) →
        Truthful .ascii busyDay ninetyDaysBefore afternoon (text "NVDA") 90 2 found := by
  refine ⟨by decide, (truthful_iff .ascii busyDay ninetyDaysBefore afternoon (text "NVDA") 90
    (by decide)).mpr ⟨Or.inr ?_, Or.inr ?_⟩⟩
  · rw [matching_busyDay]
    exact ⟨itemAt 1, itemAt_mem 1, by decide, by decide +kernel⟩
  · rw [matching_busyDay]
    exact ⟨itemAt 0, itemAt_mem 0, by decide, by decide +kernel⟩

end DocPack

end TradingPlatform
