import TradingPlatform.Data.NewsStore

/-!
# Quotas of the news store

A query for many symbols takes at most so many items of each, so that a name that is much in the
news does not crowd out the others. It goes through the rows of the window, newest first, as many as
it has fetched, and keeps count. A row counts against all of the symbols it carries, and is taken as
soon as one of them has some of its quota left.

So a row that carries two symbols can be one too many for the one because of the other
(`TradingPlatform.NewsStore.OverAdmits`), and rows of one symbol can fill what is fetched before
another symbol's rows come. `TradingPlatform.NewsStore.quotas_iff` says that nothing else goes
wrong. What carries the proof is that, until a row is one too many, the count of a symbol is the
number of its rows so far, cut off at the quota (`TradingPlatform.NewsStore.ScanInv`).
-/

namespace TradingPlatform

namespace NewsStore

/-- Whether a row is of a symbol. -/
def carries (s : Str) (r : NewsRow) : Bool := decide (s ∈ r.symbols)

theorem carries_iff {s : Str} {r : NewsRow} : carries s r = true ↔ s ∈ r.symbols :=
  decide_eq_true_iff

/-- Whether the loop takes a row: one of its requested symbols has some of its quota left. -/
def accepts (symbols : List Str) (quota : ℕ) (count : Str → ℕ) (row : NewsRow) : Bool :=
  (row.symbols.filter (· ∈ symbols)).any fun s => decide (count s < quota)

/-- The counts after a row that is taken. -/
def charge (symbols : List Str) (row : NewsRow) (count : Str → ℕ) (s : Str) : ℕ :=
  if s ∈ row.symbols.filter (· ∈ symbols) then count s + 1 else count s

/-- A row that is one too many for one of its requested symbols, and not for another. -/
def OverAdmitsAt (symbols : List Str) (quota : ℕ) (before : List NewsRow) (row : NewsRow) : Prop :=
  ∃ r ∈ symbols, ∃ s ∈ symbols, r ∈ row.symbols ∧ s ∈ row.symbols ∧
    before.countP (carries r) < quota ∧ quota ≤ before.countP (carries s)

/-- There is such a row. -/
def OverAdmits (symbols : List Str) (quota : ℕ) (rows : List NewsRow) : Prop :=
  ∃ before row after, rows = before ++ row :: after ∧ OverAdmitsAt symbols quota before row

/-- **What is asked of a query with a quota**: no symbol occurs in more items than its quota, and
where every item has one symbol, the items of each symbol are its newest. -/
structure Quotas {κ : Type} [LinearOrder κ] (store : NewsStore) (key : NewsRow → κ)
    (window : (NewsRow → Bool) → List NewsRow) (symbols : List Str) (quota : ℕ)
    (items : List NewsRow) : Prop where
  atMost : ∀ s ∈ symbols, items.countP (carries s) ≤ quota
  newest : (∀ r ∈ store.rows, r.symbols.length = 1) → ∀ s ∈ symbols,
    Newest key quota (window (carries s)) (items.filter (carries s))

/-! ### The loop -/

section Loop

variable {symbols : List Str} {quota limit taken : ℕ} {count : Str → ℕ} {before : List NewsRow}
  {row : NewsRow} {rows : List NewsRow}

theorem scan_cons (symbols : List Str) (quota limit : ℕ) (count : Str → ℕ) (taken : ℕ)
    (row : NewsRow) (rows : List NewsRow) :
    scan symbols (some quota) limit count taken (row :: rows) =
      if accepts symbols quota count row then
        row :: if limit ≤ taken + 1 then []
          else scan symbols (some quota) limit (charge symbols row count) (taken + 1) rows
      else scan symbols (some quota) limit count taken rows := rfl

theorem mem_relevant {s : Str} :
    s ∈ row.symbols.filter (· ∈ symbols) ↔ s ∈ row.symbols ∧ s ∈ symbols := by
  rw [List.mem_filter, decide_eq_true_iff]

theorem accepts_iff : accepts symbols quota count row = true ↔
    ∃ s, (s ∈ row.symbols ∧ s ∈ symbols) ∧ count s < quota := by
  simp only [accepts, List.any_eq_true, mem_relevant, decide_eq_true_iff]

theorem charge_of_mem {s : Str} (hs : s ∈ symbols) (hsrow : s ∈ row.symbols) :
    charge symbols row count s = count s + 1 :=
  if_pos (mem_relevant.mpr ⟨hsrow, hs⟩)

theorem charge_of_notMem {s : Str} (hsrow : s ∉ row.symbols) :
    charge symbols row count s = count s :=
  if_neg fun hc => hsrow (mem_relevant.mp hc).1

/-- As long as no row was one too many: the count of a symbol is the number of its rows, cut off at
the quota, and what was taken was counted. -/
structure ScanInv (symbols : List Str) (quota : ℕ) (before : List NewsRow) (count : Str → ℕ)
    (taken : ℕ) : Prop where
  count_eq : ∀ s ∈ symbols, count s = min quota (before.countP (carries s))
  taken_le : taken ≤ ∑ s ∈ symbols.toFinset, count s

theorem scanInv_nil (symbols : List Str) (quota : ℕ) :
    ScanInv symbols quota [] (fun _ => 0) 0 where
  count_eq := by simp
  taken_le := Nat.zero_le _

theorem countP_concat (before : List NewsRow) (row : NewsRow) (s : Str) :
    (before ++ [row]).countP (carries s) =
      before.countP (carries s) + if s ∈ row.symbols then 1 else 0 := by
  rw [List.countP_append, List.countP_singleton]
  simp [carries]

/-- When as many were taken as there is room for, every quota is used up. -/
theorem ScanInv.count_eq_quota (h : ScanInv symbols quota before count taken)
    (hlimit : quota * symbols.length ≤ limit) (hfull : limit ≤ taken) :
    ∀ s ∈ symbols, count s = quota := by
  have hle : ∀ s ∈ symbols.toFinset, count s ≤ quota := by
    intro s hs
    rw [h.count_eq s (List.mem_toFinset.mp hs)]
    exact min_le_left _ _
  -- the counts add up to no less than the quotas, and none is over its quota
  have hcard : symbols.toFinset.card ≤ symbols.length := List.toFinset_card_le symbols
  have hsum : ∑ s ∈ symbols.toFinset, count s = ∑ _s ∈ symbols.toFinset, quota := by
    refine le_antisymm (Finset.sum_le_sum hle) ?_
    rw [Finset.sum_const, smul_eq_mul, Nat.mul_comm]
    exact ((Nat.mul_le_mul_left quota hcard).trans hlimit).trans (hfull.trans h.taken_le)
  intro s hs
  exact (Finset.sum_eq_sum_iff_of_le hle).mp hsum s (List.mem_toFinset.mpr hs)

/-- A row that is taken and not one too many: all of its requested symbols had some of their quota
left. -/
theorem ScanInv.lt_of_accepts (h : ScanInv symbols quota before count taken)
    (hno : ¬OverAdmitsAt symbols quota before row)
    (haccepts : accepts symbols quota count row = true) :
    ∀ s ∈ symbols, s ∈ row.symbols → count s < quota := by
  obtain ⟨r, ⟨hr, hrs⟩, hlt⟩ := accepts_iff.mp haccepts
  intro s hs hsrow
  by_contra hc
  have hcount := h.count_eq r hrs
  have hcount' := h.count_eq s hs
  exact hno ⟨r, hrs, s, hs, hr, hsrow, by omega, by omega⟩

theorem le_of_not_accepts (haccepts : ¬accepts symbols quota count row = true) :
    ∀ s ∈ symbols, s ∈ row.symbols → quota ≤ count s := by
  intro s hs hsrow
  by_contra hc
  exact haccepts (accepts_iff.mpr ⟨s, ⟨hsrow, hs⟩, not_le.mp hc⟩)

/-- The invariant after a row that is taken and not one too many. -/
theorem ScanInv.charge (h : ScanInv symbols quota before count taken)
    (hno : ¬OverAdmitsAt symbols quota before row)
    (haccepts : accepts symbols quota count row = true) :
    ScanInv symbols quota (before ++ [row]) (charge symbols row count) (taken + 1) where
  count_eq := by
    intro s hs
    have hcount := h.count_eq s hs
    rw [countP_concat]
    by_cases hsrow : s ∈ row.symbols
    · have hlt := h.lt_of_accepts hno haccepts s hs hsrow
      rw [charge_of_mem hs hsrow, if_pos hsrow]
      omega
    · rw [charge_of_notMem hsrow, if_neg hsrow]
      omega
  taken_le := by
    obtain ⟨r, ⟨hr, hrs⟩, -⟩ := accepts_iff.mp haccepts
    have hlt : ∑ s ∈ symbols.toFinset, count s <
        ∑ s ∈ symbols.toFinset, NewsStore.charge symbols row count s := by
      refine Finset.sum_lt_sum (fun s _ => ?_) ⟨r, List.mem_toFinset.mpr hrs, ?_⟩
      · rw [NewsStore.charge]
        split_ifs <;> omega
      · rw [charge_of_mem hrs hr]
        omega
    have htaken := h.taken_le
    omega

/-- The invariant after a row that is not taken. -/
theorem ScanInv.skip (h : ScanInv symbols quota before count taken)
    (haccepts : ¬accepts symbols quota count row = true) :
    ScanInv symbols quota (before ++ [row]) count taken where
  count_eq := by
    intro s hs
    have hcount := h.count_eq s hs
    rw [countP_concat]
    by_cases hsrow : s ∈ row.symbols
    · have hle := le_of_not_accepts haccepts s hs hsrow
      rw [if_pos hsrow]
      omega
    · rw [if_neg hsrow]
      omega
  taken_le := h.taken_le

/-- The rest of the rows after the first. -/
theorem not_overAdmitsAt_tail
    (hno : ∀ front row' back, row :: rows = front ++ row' :: back →
      ¬OverAdmitsAt symbols quota (before ++ front) row') :
    ∀ front row' back, rows = front ++ row' :: back →
      ¬OverAdmitsAt symbols quota (before ++ [row] ++ front) row' := by
  rintro front row' back rfl
  rw [List.append_assoc]
  exact hno (row :: front) row' back rfl

/-- **Without a row too many, a symbol gets its first rows**, as many as are left of its quota. -/
theorem ScanInv.filter_scan (h : ScanInv symbols quota before count taken)
    (hlimit : quota * symbols.length ≤ limit)
    (hno : ∀ front row back, rows = front ++ row :: back →
      ¬OverAdmitsAt symbols quota (before ++ front) row) {s : Str} (hs : s ∈ symbols) :
    (scan symbols (some quota) limit count taken rows).filter (carries s) =
      (rows.filter (carries s)).take (quota - count s) := by
  induction rows generalizing before count taken with
  | nil => simp [scan]
  | cons row rows ih =>
    have hrow : ¬OverAdmitsAt symbols quota before row := by
      have hfirst := hno [] row rows rfl
      rwa [List.append_nil] at hfirst
    have htail := not_overAdmitsAt_tail hno
    rw [scan_cons]
    by_cases haccepts : accepts symbols quota count row = true
    · have hcharge := h.charge hrow haccepts
      have hrest : (if limit ≤ taken + 1 then []
          else scan symbols (some quota) limit (NewsStore.charge symbols row count) (taken + 1)
            rows).filter (carries s) =
          (rows.filter (carries s)).take (quota - NewsStore.charge symbols row count s) := by
        split_ifs with hfull
        · rw [hcharge.count_eq_quota hlimit hfull s hs, Nat.sub_self, List.take_zero,
            List.filter_nil]
        · exact ih hcharge htail
      rw [if_pos haccepts]
      by_cases hsrow : s ∈ row.symbols
      · have hlt := h.lt_of_accepts hrow haccepts s hs hsrow
        have hcarries : carries s row = true := carries_iff.mpr hsrow
        rw [List.filter_cons_of_pos hcarries, List.filter_cons_of_pos hcarries, hrest,
          charge_of_mem hs hsrow, show quota - count s = quota - (count s + 1) + 1 by omega,
          List.take_succ_cons]
      · have hcarries : ¬carries s row = true := mt carries_iff.mp hsrow
        rw [List.filter_cons_of_neg hcarries, List.filter_cons_of_neg hcarries, hrest,
          charge_of_notMem hsrow]
    · -- a row that is not taken is not of the symbol, or the quota of that is used up
      rw [if_neg haccepts, ih (h.skip haccepts) htail]
      by_cases hsrow : s ∈ row.symbols
      · have hle := le_of_not_accepts haccepts s hs hsrow
        rw [Nat.sub_eq_zero_of_le hle, List.take_zero, List.take_zero]
      · rw [List.filter_cons_of_neg (mt carries_iff.mp hsrow)]

/-- **With a row too many, some symbol gets more than its quota.** -/
theorem ScanInv.exists_quota_lt (h : ScanInv symbols quota before count taken)
    (hlimit : quota * symbols.length ≤ limit)
    (hover : ∃ front row back, rows = front ++ row :: back ∧
      OverAdmitsAt symbols quota (before ++ front) row) :
    ∃ s ∈ symbols,
      quota < count s + (scan symbols (some quota) limit count taken rows).countP (carries s) := by
  induction rows generalizing before count taken with
  | nil =>
    obtain ⟨front, row, back, hrows, -⟩ := hover
    exact absurd hrows (by simp)
  | cons row rows ih =>
    rw [scan_cons]
    by_cases hrow : OverAdmitsAt symbols quota before row
    · -- the row is taken for the sake of the one symbol and counts against the other
      obtain ⟨r, hr, s, hs, hrrow, hsrow, hlt, hle⟩ := hrow
      have hcount := h.count_eq r hr
      have hcount' := h.count_eq s hs
      have haccepts : accepts symbols quota count row = true :=
        accepts_iff.mpr ⟨r, ⟨hrrow, hr⟩, by omega⟩
      refine ⟨s, hs, ?_⟩
      rw [if_pos haccepts, List.countP_cons_of_pos (carries_iff.mpr hsrow)]
      omega
    · have hrest : ∃ front row' back, rows = front ++ row' :: back ∧
          OverAdmitsAt symbols quota (before ++ [row] ++ front) row' := by
        obtain ⟨front, row', back, hrows, hat⟩ := hover
        rcases front with _ | ⟨first, front⟩
        · obtain ⟨rfl, rfl⟩ := List.cons.inj hrows
          rw [List.append_nil] at hat
          exact absurd hat hrow
        · obtain ⟨rfl, rfl⟩ := List.cons.inj hrows
          exact ⟨front, row', back, rfl, by rwa [List.append_assoc]⟩
      by_cases haccepts : accepts symbols quota count row = true
      · have hcharge := h.charge hrow haccepts
        -- there is still room, since some symbol has some of its quota left further on
        have hfull : ¬limit ≤ taken + 1 := by
          intro hfull
          obtain ⟨front, row', back, -, r, hr, -, -, -, -, hlt, -⟩ := hrest
          have hquota := hcharge.count_eq_quota hlimit hfull r hr
          have hcount := hcharge.count_eq r hr
          rw [List.countP_append] at hlt
          omega
        obtain ⟨s, hs, hlt⟩ := ih hcharge hrest
        refine ⟨s, hs, ?_⟩
        rw [if_pos haccepts, if_neg hfull]
        by_cases hsrow : s ∈ row.symbols
        · rw [charge_of_mem hs hsrow] at hlt
          rw [List.countP_cons_of_pos (carries_iff.mpr hsrow)]
          omega
        · rw [charge_of_notMem hsrow] at hlt
          rw [List.countP_cons_of_neg (mt carries_iff.mp hsrow)]
          exact hlt
      · rw [if_neg haccepts]
        exact ih (h.skip haccepts) hrest

/-- **When no symbol gets more than its quota.** -/
theorem forall_countP_scan_le_iff (hlimit : quota * symbols.length ≤ limit)
    (rows : List NewsRow) :
    (∀ s ∈ symbols,
        (scan symbols (some quota) limit (fun _ => 0) 0 rows).countP (carries s) ≤ quota) ↔
      ¬OverAdmits symbols quota rows := by
  have hinv := scanInv_nil symbols quota
  constructor
  · rintro h ⟨before, row, after, hrows, hat⟩
    obtain ⟨s, hs, hlt⟩ := hinv.exists_quota_lt hlimit ⟨before, row, after, hrows, hat⟩
    have hle := h s hs
    omega
  · intro h s hs
    rw [List.countP_eq_length_filter, hinv.filter_scan hlimit ?_ hs]
    · exact List.length_take_le _ _
    · intro front row back hrows hat
      exact h ⟨front, row, back, hrows, hat⟩

end Loop

/-! ### The whole query -/

section Query

variable {store : NewsStore} {start : DateTime} {symbols : List Str} {quota limit : ℕ}
  {found : List NewsRow}

theorem scan_nil_symbols (quota limit : ℕ) (count : Str → ℕ) (taken : ℕ) (rows : List NewsRow) :
    scan [] (some quota) limit count taken rows = [] := by
  induction rows with
  | nil => rfl
  | cons row rows ih =>
    have hno : ¬accepts [] quota count row = true := by
      rw [accepts_iff]
      rintro ⟨s, ⟨-, hs⟩, -⟩
      exact List.not_mem_nil hs
    rw [scan_cons, if_neg hno, ih]

theorem recentForSymbols_some (symbols : List Str) (quota limit : ℕ) (found : List NewsRow) :
    recentForSymbols found symbols limit (some quota) =
      scan symbols (some quota) limit (fun _ => 0) 0 (pool found symbols limit (some quota)) := by
  rw [recentForSymbols]
  split_ifs with hsymbols
  · rw [hsymbols, scan_nil_symbols]
  · rfl

/-- Where every item has one symbol, no row is one too many. -/
theorem not_overAdmits_of_single {rows : List NewsRow} (h : ∀ r ∈ rows, r.symbols.length = 1) :
    ¬OverAdmits symbols quota rows := by
  rintro ⟨before, row, after, rfl, r, -, s, -, hr, hs, hlt, hle⟩
  obtain ⟨t, ht⟩ := List.length_eq_one_iff.mp
    (h row (List.mem_append_right _ List.mem_cons_self))
  rw [ht, List.mem_singleton] at hr hs
  subst hr hs
  omega

/-- The rows of a symbol that match, in the order of the query. -/
theorem filter_carries_perm (hfound : found.Perm (store.matching start (ofSymbols symbols)))
    {s : Str} (hs : s ∈ symbols) :
    ((found.mergeSort fun a b => b.publishedText ≤ a.publishedText).filter (carries s)).Perm
      (store.matching start (carries s)) := by
  have hperm := (List.mergeSort_perm found fun a b =>
    decide (b.publishedText ≤ a.publishedText)).trans hfound
  refine (hperm.filter (carries s)).trans (List.Perm.of_eq ?_)
  rw [matching, matching, List.filter_filter]
  refine List.filter_congr fun r _ => ?_
  rw [Bool.eq_iff_iff, Bool.and_eq_true, decide_eq_true_iff, decide_eq_true_iff]
  constructor
  · rintro ⟨hcarries, -, hin⟩
    exact ⟨hcarries, hin⟩
  · rintro ⟨hcarries, hin⟩
    exact ⟨hcarries, decide_eq_true ⟨s, hs, carries_iff.mp hcarries⟩, hin⟩

theorem mem_rows_of_mem_pool (hfound : found.Perm (store.matching start (ofSymbols symbols)))
    {perSymbolLimit : Option ℕ} {r : NewsRow} (hr : r ∈ pool found symbols limit perSymbolLimit) :
    r ∈ store.rows := by
  have hsorted := (List.mergeSort_perm found fun a b =>
    decide (b.publishedText ≤ a.publishedText)).trans hfound
  exact (mem_matching.mp (hsorted.subset (List.mem_of_mem_take hr))).1

/-- Where every item has one symbol, the items of a symbol are its newest exactly if enough of its
rows are fetched. -/
theorem newest_filter_iff (hlimit : quota * symbols.length ≤ limit)
    (hfound : found.Perm (store.matching start (ofSymbols symbols)))
    (hsingle : ∀ r ∈ store.rows, r.symbols.length = 1) {s : Str} (hs : s ∈ symbols) :
    Newest NewsRow.publishedText quota (store.matching start (carries s))
        ((recentForSymbols found symbols limit (some quota)).filter (carries s)) ↔
      min quota (store.matching start (carries s)).length ≤
        (pool found symbols limit (some quota)).countP (carries s) := by
  have hno : ¬OverAdmits symbols quota (pool found symbols limit (some quota)) :=
    not_overAdmits_of_single fun r hr => hsingle r (mem_rows_of_mem_pool hfound hr)
  rw [recentForSymbols_some, (scanInv_nil symbols quota).filter_scan hlimit ?_ hs]
  · exact newest_take_filter_take_iff (newestFirst_mergeSort NewsRow.publishedText found)
      (filter_carries_perm hfound hs) quota _
  · intro front row back hrows hat
    exact hno ⟨front, row, back, hrows, hat⟩

/-- Enough rows of every symbol are fetched, where every item has one symbol. -/
def Fetches (store : NewsStore) (start : DateTime) (symbols : List Str) (quota : ℕ)
    (rows : List NewsRow) : Prop :=
  (∀ r ∈ store.rows, r.symbols.length = 1) → ∀ s ∈ symbols,
    min quota (store.matching start (carries s)).length ≤ rows.countP (carries s)

/-- The texts compare with the start and with each other as the times do. -/
structure Chronological (store : NewsStore) (start : DateTime) : Prop where
  window : ∀ r ∈ store.rows, start.isoformat ≤ r.publishedText ↔ start.instant ≤ r.instant
  order : ∀ r ∈ store.rows, ∀ r' ∈ store.rows,
    r.publishedText ≤ r'.publishedText ↔ r.instant ≤ r'.instant

/-- **When the quotas are exact**, as the texts of the times go: when no fetched row is one too many
for a symbol, and enough rows of every symbol are fetched. -/
theorem quotas_text_iff (hlimit : quota * symbols.length ≤ limit)
    (hfound : found.Perm (store.matching start (ofSymbols symbols))) :
    Quotas store NewsRow.publishedText (store.matching start) symbols quota
        (recentForSymbols found symbols limit (some quota)) ↔
      ¬OverAdmits symbols quota (pool found symbols limit (some quota)) ∧
        Fetches store start symbols quota (pool found symbols limit (some quota)) := by
  have hatMost := forall_countP_scan_le_iff hlimit (pool found symbols limit (some quota))
  rw [← recentForSymbols_some] at hatMost
  constructor
  · intro h
    refine ⟨hatMost.mp h.atMost, fun hsingle s hs => ?_⟩
    exact (newest_filter_iff hlimit hfound hsingle hs).mp (h.newest hsingle s hs)
  · rintro ⟨hno, hfetches⟩
    refine ⟨hatMost.mpr hno, fun hsingle s hs => ?_⟩
    exact (newest_filter_iff hlimit hfound hsingle hs).mpr (hfetches hsingle s hs)

/-- Where the texts go by the time, the newest by the one are the newest by the other. -/
theorem Chronological.quotas_instant_iff (h : Chronological store start) {items : List NewsRow} :
    Quotas store NewsRow.instant (store.since start) symbols quota items ↔
      Quotas store NewsRow.publishedText (store.matching start) symbols quota items := by
  have hnewest : ∀ s, Newest NewsRow.instant quota (store.since start (carries s))
      (items.filter (carries s)) ↔
        Newest NewsRow.publishedText quota (store.matching start (carries s))
          (items.filter (carries s)) := by
    intro s
    rw [matching_eq_since h.window]
    refine newest_congr_key fun r hr r' hr' => ?_
    exact (h.order r (List.mem_of_mem_filter hr) r' (List.mem_of_mem_filter hr')).symm
  constructor
  · rintro ⟨hatMost, hall⟩
    exact ⟨hatMost, fun hsingle s hs => (hnewest s).mp (hall hsingle s hs)⟩
  · rintro ⟨hatMost, hall⟩
    exact ⟨hatMost, fun hsingle s hs => (hnewest s).mpr (hall hsingle s hs)⟩

/-- The newest rows of those found, as the query orders them. -/
def newestRows (found : List NewsRow) (n : ℕ) : List NewsRow :=
  (found.mergeSort fun a b => b.publishedText ≤ a.publishedText).take n

/-- **When the quotas are exact**: when of the newest rows, twice as many as the quotas allow or as
many as the limit does, none is one too many for a symbol, and enough are of each symbol. What is
newest is so by the text, and by the time where the texts go by it. -/
theorem quotas_iff (store : NewsStore) (start : DateTime) (symbols : List Str) {quota limit : ℕ}
    (hlimit : quota * symbols.length ≤ limit) {found : List NewsRow}
    (hfound : found.Perm (store.matching start (ofSymbols symbols))) :
    (Quotas store NewsRow.publishedText (store.matching start) symbols quota
        (recentForSymbols found symbols limit (some quota)) ↔
      ¬OverAdmits symbols quota (newestRows found (max limit (quota * symbols.length * 2))) ∧
        Fetches store start symbols quota
          (newestRows found (max limit (quota * symbols.length * 2)))) ∧
    (Chronological store start →
      (Quotas store NewsRow.instant (store.since start) symbols quota
          (recentForSymbols found symbols limit (some quota)) ↔
        ¬OverAdmits symbols quota (newestRows found (max limit (quota * symbols.length * 2))) ∧
          Fetches store start symbols quota
            (newestRows found (max limit (quota * symbols.length * 2))))) :=
  ⟨quotas_text_iff hlimit hfound,
    fun h => h.quotas_instant_iff.trans (quotas_text_iff hlimit hfound)⟩

end Query

/-! ### An item of two names, and a name that is much in the news -/

/-- An item of some minute. -/
def newsAt (minute : Fin 60) (symbols : List String) : NewsRow where
  source := .finnhub
  headline := text "news"
  publishedAt := .utc ⟨2026, 3, 5, valid_march5⟩
    ⟨15, minute, 0, 0, ⟨by decide, minute.isLt⟩, by decide⟩
  symbols := symbols.map text
  url := [.scalar (Char.ofNat (65 + minute))]

theorem valid_three : (15 < 24 ∧ 0 < 60) ∧ 0 < 60 ∧ 0 < 1000000 := by decide

/-- Three in the afternoon. -/
def threeUtc : DateTime := .utc ⟨2026, 3, 5, valid_march5⟩ ⟨15, 0, 0, 0, valid_three⟩

def twoNames : List Str := [text "NVDA", text "SPY"]

/-- One item of one name, and before it one of both. -/
def sharedItem : NewsStore :=
  ⟨[newsAt 2 ["NVDA"], newsAt 1 ["NVDA", "SPY"]], by decide, by decide⟩

/-- Four items of one name, and before them one of the other. -/
def hotName : NewsStore :=
  ⟨[newsAt 5 ["NVDA"], newsAt 4 ["NVDA"], newsAt 3 ["NVDA"], newsAt 2 ["NVDA"], newsAt 1 ["SPY"]],
    by decide, by decide⟩

theorem matching_sharedItem :
    sharedItem.matching threeUtc (ofSymbols twoNames) = sharedItem.rows :=
  List.filter_eq_self.mpr (by decide)

theorem matching_hotName : hotName.matching threeUtc (ofSymbols twoNames) = hotName.rows :=
  List.filter_eq_self.mpr (by decide)

theorem chronological_sharedItem : Chronological sharedItem threeUtc := ⟨by decide, by decide⟩

theorem chronological_hotName : Chronological hotName threeUtc := ⟨by decide, by decide⟩

/-- Rows that are found newest first stay so. -/
theorem newestRows_eq {rows : List NewsRow}
    (h : rows.Pairwise fun a b => b.publishedText ≤ a.publishedText) (n : ℕ) :
    newestRows rows n = rows.take n := by
  rw [newestRows, List.mergeSort_of_pairwise]
  simpa using h

/-- **An item of both names is taken for the one and is one too many for the other**; and where one
name is much in the news, the only item of the other is not even fetched. -/
theorem not_quotas_sharedItem :
    ¬Quotas sharedItem NewsRow.instant (sharedItem.since threeUtc) twoNames 1
        (recentForSymbols sharedItem.rows twoNames 2 (some 1)) ∧
      ¬Quotas hotName NewsRow.instant (hotName.since threeUtc) twoNames 1
        (recentForSymbols hotName.rows twoNames 2 (some 1)) := by
  constructor
  · intro h
    have hfound : sharedItem.rows.Perm (sharedItem.matching threeUtc (ofSymbols twoNames)) :=
      matching_sharedItem ▸ List.Perm.refl _
    obtain ⟨hno, -⟩ := (quotas_text_iff (by decide) hfound).mp
      (chronological_sharedItem.quotas_instant_iff.mp h)
    refine hno ⟨[newsAt 2 ["NVDA"]], newsAt 1 ["NVDA", "SPY"], [], ?_, ?_⟩
    · exact newestRows_eq (by decide) 4
    · exact ⟨text "SPY", by decide, text "NVDA", by decide, by decide, by decide, by decide,
        by decide⟩
  · intro h
    have hfound : hotName.rows.Perm (hotName.matching threeUtc (ofSymbols twoNames)) :=
      matching_hotName ▸ List.Perm.refl _
    obtain ⟨-, hfetches⟩ := (quotas_text_iff (by decide) hfound).mp
      (chronological_hotName.quotas_instant_iff.mp h)
    have hspy := hfetches (by decide) (text "SPY") (by decide)
    have hpool : pool hotName.rows twoNames 2 (some 1) = hotName.rows.take 4 :=
      newestRows_eq (by decide) 4
    rw [hpool] at hspy
    revert hspy
    decide

/-- With a quota of two eight rows are fetched, and both names have their newest items. -/
theorem quotas_hotName :
    2 * twoNames.length ≤ 5 ∧
      hotName.rows.Perm (hotName.matching threeUtc (ofSymbols twoNames)) ∧
      Chronological hotName threeUtc ∧
      Quotas hotName NewsRow.instant (hotName.since threeUtc) twoNames 2
        (recentForSymbols hotName.rows twoNames 5 (some 2)) := by
  have hfound : hotName.rows.Perm (hotName.matching threeUtc (ofSymbols twoNames)) :=
    matching_hotName ▸ List.Perm.refl _
  have hrows : newestRows hotName.rows 8 = hotName.rows := newestRows_eq (by decide) 8
  refine ⟨by decide, hfound, chronological_hotName,
    ((quotas_iff hotName threeUtc twoNames (by decide) hfound).2 chronological_hotName).mpr ?_⟩
  show ¬OverAdmits twoNames 2 (newestRows hotName.rows 8) ∧
    Fetches hotName threeUtc twoNames 2 (newestRows hotName.rows 8)
  rw [hrows]
  refine ⟨not_overAdmits_of_single (by decide), fun _ => ?_⟩
  decide

end NewsStore

end TradingPlatform
