import TradingPlatform.Core.Types
import TradingPlatform.Dict
import TradingPlatform.Run
import TradingPlatform.StableSort

/-!
# The bar cache

Daily bars are kept in a table, by symbol and date, and only what is missing is fetched from
upstream. What is missing is judged by one date for each symbol, the latest one in the table,
and one fetch serves all symbols of a call, from the earliest of their gaps on. Today's bar is
never kept, as it may still change.

The latest date says nothing about the dates before it: a call with a short window leaves a late
date behind, and a later call with a long window takes all that comes before for cached.
`TradingPlatform.CachedMarketData.transparent_iff_covered` says when a call returns what the
upstream would: just when every bar of its window that is not fetched is in the table.
-/

namespace TradingPlatform

structure Bar where
  symbol : String
  timestamp : Time
  openPrice : Decimal
  high : Decimal
  low : Decimal
  close : Decimal
  volume : ℤ
  vwap : Option Decimal := none
  deriving DecidableEq

def Bar.date (b : Bar) : Date := b.timestamp.date

/-- The start of a day. -/
def midnight (day : Date) : Time := day * microsPerDay

/-- The dates of a window, in order. -/
def datesFrom (first last : Date) : List Date :=
  (List.range (last + 1 - first).toNat).map fun n : ℕ => first + (n : ℤ)

/-- The daily bars the upstream has: for each symbol, at most one of each date. -/
structure Upstream where
  bar : String → Date → Option Bar
  symbol_bar : ∀ {sym : String} {day : Date} {b : Bar}, bar sym day = some b → b.symbol = sym
  date_bar : ∀ {sym : String} {day : Date} {b : Bar}, bar sym day = some b → b.date = day

/-- What the upstream returns for a symbol: its bars of a window. -/
def Upstream.getBarsBatch (u : Upstream) (sym : String) (start stop : Time) : List Bar :=
  (datesFrom start.date stop.date).filterMap (u.bar sym)

/-- The table, with a primary key. -/
structure BarCache where
  rows : Dict (String × Date) Bar

namespace BarCache

def empty : BarCache := ⟨.empty⟩

/-- The bars of a symbol in a window, by date. -/
def readRange (cache : BarCache) (sym : String) (start stop : Time) : List Bar :=
  (cache.rows.values.filter fun b =>
    b.symbol = sym ∧ start.date ≤ b.date ∧ b.date ≤ stop.date).mergeSort
      fun a b => a.date ≤ b.date

def lastCachedDate (cache : BarCache) (sym : String) : Option Date :=
  ((cache.rows.values.filter fun b => b.symbol = sym).map Bar.date).max?

/-- Insert or replace bars, except those of today and later. -/
def write (cache : BarCache) (bars : List Bar) (now : Time) : BarCache where
  rows := (bars.filter fun b => b.date < now.date).foldl
    (fun rows b => rows.set (b.symbol, b.date) b) cache.rows

end BarCache

/-- A call for daily bars, and the instant it is made at. The window's end is `stop`. -/
structure BarsCall where
  symbols : List String
  start : Time
  stop : Time
  now : Time

namespace CachedMarketData

/-- Where the gap of a symbol begins. A symbol whose past is taken for cached needs today's bar
only. -/
def gapStart (cache : BarCache) (call : BarsCall) (sym : String) : Time :=
  match cache.lastCachedDate sym with
  | none => call.start
  | some last =>
    if min call.stop.date (call.now.date - 1) ≤ last then midnight call.now.date
    else midnight (last + 1)

/-- Where the fetch of a call begins, if it has symbols. -/
def fetchStart (cache : BarCache) (call : BarsCall) : Option Time :=
  (call.symbols.map (gapStart cache call)).min?

/-- The cached bars and the fresh ones, of which the fresh win, within the window. -/
def merge (call : BarsCall) (cached fresh : List Bar) : List Bar :=
  let seenDates : Dict Date Bar :=
    (cached ++ fresh).foldl (fun seen b => seen.set b.date b) .empty
  (seenDates.values.filter fun b =>
    call.start.date ≤ b.date ∧ b.date ≤ call.stop.date).mergeSort
      fun a b => a.timestamp ≤ b.timestamp

/-- One call: the table afterwards, and the bars of each symbol asked for. -/
def getBarsBatch (cache : BarCache) (u : Upstream) (call : BarsCall) :
    BarCache × (String → List Bar) :=
  let cached sym := cache.readRange sym call.start call.stop
  match fetchStart cache call with
  | none => (cache, fun sym => u.getBarsBatch sym call.start call.stop)
  | some gapStart =>
    if call.stop < gapStart then (cache, cached)
    else
      let fresh sym := u.getBarsBatch sym gapStart call.stop
      (cache.write (call.symbols.dedup.flatMap fresh) call.now,
        fun sym => merge call (cached sym) (fresh sym))

/-- The date is in what a call fetches. -/
def Fetched (cache : BarCache) (call : BarsCall) (day : Date) : Prop :=
  ∃ gapStart ∈ fetchStart cache call, gapStart ≤ call.stop ∧ gapStart.date ≤ day

/-- **A call is transparent**: it returns for each symbol what the upstream would. -/
def Transparent (cache : BarCache) (u : Upstream) (call : BarsCall) : Prop :=
  ∀ sym ∈ call.symbols,
    (getBarsBatch cache u call).2 sym = u.getBarsBatch sym call.start call.stop

/-- **The condition**: every bar of the window is fetched or in the table. -/
def Covered (cache : BarCache) (u : Upstream) (call : BarsCall) : Prop :=
  ∀ sym ∈ call.symbols, ∀ day, call.start.date ≤ day → day ≤ call.stop.date →
    (u.bar sym day).isSome = true →
      Fetched cache call day ∨ (cache.rows.get? (sym, day)).isSome = true

end CachedMarketData

/-! ### Windows -/

theorem mem_datesFrom {first last day : ℤ} :
    day ∈ datesFrom first last ↔ first ≤ day ∧ day ≤ last := by
  simp only [datesFrom, List.mem_map, List.mem_range]
  constructor
  · rintro ⟨n, hn, rfl⟩
    omega
  · rintro ⟨h₁, h₂⟩
    exact ⟨(day - first).toNat, by omega, by omega⟩

theorem pairwise_datesFrom (first last : ℤ) : (datesFrom first last).Pairwise (· < ·) := by
  refine List.pairwise_map.mpr (List.pairwise_lt_range.imp fun h => ?_)
  exact Int.add_lt_add_left (Int.ofNat_lt.mpr h) first

namespace Upstream

variable {u : Upstream} {sym : String} {start stop : Time}

theorem mem_getBarsBatch {b : Bar} :
    b ∈ u.getBarsBatch sym start stop ↔
      u.bar sym b.date = some b ∧ start.date ≤ b.date ∧ b.date ≤ stop.date := by
  simp only [getBarsBatch, List.mem_filterMap, mem_datesFrom]
  constructor
  · rintro ⟨day, hday, hb⟩
    obtain rfl := u.date_bar hb
    exact ⟨hb, hday⟩
  · rintro ⟨hb, hday⟩
    exact ⟨b.date, hday, hb⟩

theorem pairwise_getBarsBatch (u : Upstream) (sym : String) (start stop : Time) :
    (u.getBarsBatch sym start stop).Pairwise fun a b => a.date < b.date := by
  refine List.Pairwise.filterMap _ ?_ (pairwise_datesFrom _ _)
  intro day day' hlt b hb b' hb'
  rw [u.date_bar hb, u.date_bar hb']
  exact hlt

end Upstream

/-! ### What is in the table -/

theorem Bar.timestamp_lt_of_date_lt {a b : Bar} (h : a.date < b.date) :
    a.timestamp < b.timestamp := by
  by_contra hc
  exact absurd h (not_lt.mpr (Int.ediv_le_ediv (by decide) (not_lt.mp hc)))

namespace BarCache

/-- **The table is settled**: its rows are under their keys, and are the final bars of days before
`clock`. -/
structure Settled (settled : Upstream) (clock : Date) (cache : BarCache) : Prop where
  key : ∀ {k b}, cache.rows.get? k = some b → k = (b.symbol, b.date)
  bar : ∀ {k b}, cache.rows.get? k = some b → settled.bar b.symbol b.date = some b
  past : ∀ {k b}, cache.rows.get? k = some b → b.date < clock

variable {settled : Upstream} {clock : Date} {cache : BarCache}

theorem Settled.mem_readRange (h : cache.Settled settled clock) {sym : String} {start stop : Time}
    {b : Bar} :
    b ∈ cache.readRange sym start stop ↔
      cache.rows.get? (sym, b.date) = some b ∧ start.date ≤ b.date ∧ b.date ≤ stop.date := by
  simp only [readRange, List.mem_mergeSort, List.mem_filter, Dict.mem_values_iff,
    decide_eq_true_eq]
  constructor
  · rintro ⟨⟨k, hk⟩, rfl, hdate⟩
    exact ⟨h.key hk ▸ hk, hdate⟩
  · rintro ⟨hk, hdate⟩
    have hsym : sym = b.symbol := congrArg Prod.fst (h.key hk)
    exact ⟨⟨_, hk⟩, hsym.symm, hdate⟩

/-- Rows of one symbol have different dates. -/
theorem Settled.pairwise_date_ne (h : cache.Settled settled clock) (sym : String) :
    (cache.rows.values.filter fun b => b.symbol = sym).Pairwise fun a b => a.date ≠ b.date := by
  refine List.pairwise_filter.mpr ((Dict.pairwise_values h.key).imp ?_)
  intro a b hne hsym hsym' hdate
  exact hne (Prod.ext ((of_decide_eq_true hsym).trans (of_decide_eq_true hsym').symm) hdate)

theorem Settled.pairwise_readRange (h : cache.Settled settled clock) (sym : String)
    (start stop : Time) :
    (cache.readRange sym start stop).Pairwise fun a b => a.timestamp < b.timestamp := by
  have hsplit : (cache.rows.values.filter fun b =>
        b.symbol = sym ∧ start.date ≤ b.date ∧ b.date ≤ stop.date) =
      (cache.rows.values.filter fun b => b.symbol = sym).filter fun b =>
        start.date ≤ b.date ∧ b.date ≤ stop.date := by
    rw [List.filter_filter]
    exact List.filter_congr fun b _ => (Bool.decide_and ..).trans (Bool.and_comm _ _)
  have hne := (h.pairwise_date_ne sym).sublist
    (List.filter_sublist (p := fun b => decide (start.date ≤ b.date ∧ b.date ≤ stop.date)))
  rw [readRange, hsplit]
  exact (pairwise_lt_mergeSort hne).imp Bar.timestamp_lt_of_date_lt

/-- **A write keeps the table settled** if what it writes is. -/
theorem Settled.write (h : cache.Settled settled clock) {u : Upstream} {bars : List Bar}
    {now : Time}
    (hclock : clock ≤ now.date) (hbars : ∀ b ∈ bars, u.bar b.symbol b.date = some b)
    (hsettled : ∀ sym day, day < now.date → u.bar sym day = settled.bar sym day) :
    (cache.write bars now).Settled settled now.date := by
  have hinj : ∀ a ∈ bars.filter fun b => b.date < now.date,
      ∀ b ∈ bars.filter fun b => b.date < now.date,
        (a.symbol, a.date) = (b.symbol, b.date) → a = b := by
    intro a ha b hb hkey
    obtain ⟨hsym, hdate⟩ := Prod.mk.inj hkey
    have hua := hbars a (List.mem_filter.mp ha).1
    have hub := hbars b (List.mem_filter.mp hb).1
    rw [hsym, hdate] at hua
    exact Option.some.inj (hua.symm.trans hub)
  have hrow : ∀ {k b}, (cache.write bars now).rows.get? k = some b →
      (b ∈ bars ∧ b.date < now.date) ∧ (b.symbol, b.date) = k ∨ cache.rows.get? k = some b := by
    intro k b hk
    rcases (Dict.get?_foldl_set_eq_some_iff hinj).mp hk with ⟨hb, hkey⟩ | ⟨hb, -⟩
    · exact Or.inl ⟨by simpa using hb, hkey⟩
    · exact Or.inr hb
  refine ⟨fun {k b} hk => ?_, fun {k b} hk => ?_, fun {k b} hk => ?_⟩
  · rcases hrow hk with ⟨-, hkey⟩ | hk
    · exact hkey.symm
    · exact h.key hk
  · rcases hrow hk with ⟨⟨hb, hdate⟩, -⟩ | hk
    · exact (hsettled _ _ hdate).symm.trans (hbars b hb)
    · exact h.bar hk
  · rcases hrow hk with ⟨⟨-, hdate⟩, -⟩ | hk
    · exact hdate
    · exact (h.past hk).trans_le hclock

end BarCache

/-! ### One call -/

namespace CachedMarketData

section Merge

variable {call : BarsCall} {cached fresh : List Bar}

/-- Where no two bars of a date differ, the fresh have nothing to win over. -/
theorem mem_merge
    (hinj : ∀ a ∈ cached ++ fresh, ∀ b ∈ cached ++ fresh, a.date = b.date → a = b) {b : Bar} :
    b ∈ merge call cached fresh ↔
      (b ∈ cached ∨ b ∈ fresh) ∧ call.start.date ≤ b.date ∧ b.date ≤ call.stop.date := by
  simp only [merge, List.mem_mergeSort, List.mem_filter, Dict.mem_values_iff,
    decide_eq_true_eq, Dict.get?_foldl_set_eq_some_iff hinj, List.mem_append, Dict.get?_empty]
  refine and_congr_left fun _ => ?_
  constructor
  · rintro ⟨k, ⟨hb, -⟩ | ⟨hb, -⟩⟩
    · exact hb
    · cases hb
  · exact fun hb => ⟨b.date, Or.inl ⟨hb, rfl⟩⟩

theorem pairwise_merge
    (hinj : ∀ a ∈ cached ++ fresh, ∀ b ∈ cached ++ fresh, a.date = b.date → a = b) :
    (merge call cached fresh).Pairwise fun a b => a.timestamp < b.timestamp := by
  refine pairwise_lt_mergeSort (List.Pairwise.filter _ ?_)
  have hvalues := Dict.pairwise_values (f := Bar.date)
    (d := (cached ++ fresh).foldl (fun seen b => seen.set b.date b) .empty) (fun {k v} hk => ?_)
  · exact hvalues.imp fun hne heq => hne (congrArg Time.date heq)
  · rcases (Dict.get?_foldl_set_eq_some_iff hinj).mp hk with ⟨-, hkey⟩ | ⟨hv, -⟩
    · exact hkey.symm
    · cases hv

end Merge

section Call

variable {settled u : Upstream} {clock : Date} {cache : BarCache} {call : BarsCall}

/-- A cached bar is the one the upstream has. -/
theorem bar_of_cached (h : cache.Settled settled clock) (hclock : clock ≤ call.now.date)
    (hsettled : ∀ sym day, day < call.now.date → u.bar sym day = settled.bar sym day)
    {sym : String} {day : Date} {b : Bar} (hb : cache.rows.get? (sym, day) = some b) :
    u.bar sym day = some b := by
  obtain ⟨rfl, rfl⟩ := Prod.mk.inj (h.key hb)
  rw [hsettled _ _ ((h.past hb).trans_le hclock)]
  exact h.bar hb

/-- **What a call returns** for a symbol, in order: the bars of its window that are fetched or
cached. -/
theorem getBarsBatch_spec (h : cache.Settled settled clock) (hclock : clock ≤ call.now.date)
    (hsettled : ∀ sym day, day < call.now.date → u.bar sym day = settled.bar sym day)
    {sym : String} (hsym : sym ∈ call.symbols) :
    ((getBarsBatch cache u call).2 sym).Pairwise (fun a b => a.timestamp < b.timestamp) ∧
      ∀ b, b ∈ (getBarsBatch cache u call).2 sym ↔
        u.bar sym b.date = some b ∧ (call.start.date ≤ b.date ∧ b.date ≤ call.stop.date) ∧
          (Fetched cache call b.date ∨ (cache.rows.get? (sym, b.date)).isSome = true) := by
  have hcached : ∀ b : Bar, cache.rows.get? (sym, b.date) = some b ↔
      u.bar sym b.date = some b ∧ (cache.rows.get? (sym, b.date)).isSome = true := by
    intro b
    constructor
    · exact fun hb => ⟨bar_of_cached h hclock hsettled hb, by rw [hb]; rfl⟩
    · rintro ⟨hu, hsome⟩
      obtain ⟨b', hb'⟩ := Option.isSome_iff_exists.mp hsome
      rw [hb', ← hu, bar_of_cached h hclock hsettled hb']
  unfold getBarsBatch Fetched
  cases hg : fetchStart cache call with
  | none =>
    rw [fetchStart, List.min?_eq_none_iff, List.map_eq_nil_iff] at hg
    exact absurd (hg ▸ hsym) List.not_mem_nil
  | some gapStart =>
    dsimp only
    by_cases hstop : call.stop < gapStart
    · -- nothing is fetched
      rw [if_pos hstop]
      refine ⟨h.pairwise_readRange sym _ _, fun b => ?_⟩
      rw [h.mem_readRange, hcached]
      simp only [Option.mem_def, Option.some.injEq, exists_eq_left', not_le.mpr hstop, false_and,
        false_or]
      tauto
    · rw [if_neg hstop]
      have hmem : ∀ b, b ∈ cache.readRange sym call.start call.stop ++
            u.getBarsBatch sym gapStart call.stop → u.bar sym b.date = some b := by
        intro b hb
        rcases List.mem_append.mp hb with hb | hb
        · exact ((hcached b).mp (h.mem_readRange.mp hb).1).1
        · exact (Upstream.mem_getBarsBatch.mp hb).1
      have hinj : ∀ a ∈ cache.readRange sym call.start call.stop ++
          u.getBarsBatch sym gapStart call.stop, ∀ b ∈ cache.readRange sym call.start call.stop ++
            u.getBarsBatch sym gapStart call.stop, a.date = b.date → a = b := by
        intro a ha b hb hdate
        have hua := hmem a ha
        rw [hdate] at hua
        exact Option.some.inj (hua.symm.trans (hmem b hb))
      refine ⟨pairwise_merge hinj, fun b => ?_⟩
      rw [mem_merge hinj, h.mem_readRange, hcached, Upstream.mem_getBarsBatch]
      simp only [Option.mem_def, Option.some.injEq, exists_eq_left', not_lt.mp hstop, true_and]
      tauto

/-- **A call is transparent exactly when** every bar of its window is fetched or cached. -/
theorem transparent_iff_covered (h : cache.Settled settled clock)
    (hclock : clock ≤ call.now.date)
    (hsettled : ∀ sym day, day < call.now.date → u.bar sym day = settled.bar sym day) :
    Transparent cache u call ↔ Covered cache u call := by
  refine forall₂_congr fun sym hsym => ?_
  obtain ⟨hsorted, hmem⟩ := getBarsBatch_spec h hclock hsettled hsym
  constructor
  · intro heq day hstart hstop hsome
    obtain ⟨b, hb⟩ := Option.isSome_iff_exists.mp hsome
    obtain rfl := u.date_bar hb
    have hup : b ∈ u.getBarsBatch sym call.start call.stop :=
      Upstream.mem_getBarsBatch.mpr ⟨hb, hstart, hstop⟩
    exact ((hmem b).mp (heq ▸ hup)).2.2
  · intro hcovered
    have hup := (u.pairwise_getBarsBatch sym call.start call.stop).imp Bar.timestamp_lt_of_date_lt
    refine eq_of_pairwise_lt_of_mem_iff hsorted hup fun b => ?_
    rw [hmem, Upstream.mem_getBarsBatch]
    constructor
    · rintro ⟨hb, hdate, -⟩
      exact ⟨hb, hdate⟩
    · rintro ⟨hb, hdate⟩
      exact ⟨hb, hdate, hcovered b.date hdate.1 hdate.2 (by rw [hb]; rfl)⟩

end Call

/-! ### Runs -/

/-- A table, and the latest day there was a call on. -/
structure CacheClock where
  cache : BarCache
  clock : Date

/-- A call, and what the upstream has when it is made. -/
structure CallAt where
  call : BarsCall
  upstream : Upstream

def step (s : CacheClock) (c : CallAt) : CacheClock where
  cache := (getBarsBatch s.cache c.upstream c.call).1
  clock := c.call.now.date

/-- **What can happen**: the days go by, and the upstream's bars of the days before do not
change. -/
def Admissible (settled : Upstream) (s : CacheClock) (c : CallAt) : Prop :=
  s.clock ≤ c.call.now.date ∧
    ∀ sym day, day < c.call.now.date → c.upstream.bar sym day = settled.bar sym day

theorem settled_step {settled : Upstream} {s : CacheClock}
    (h : s.cache.Settled settled s.clock) {c : CallAt} (hc : Admissible settled s c) :
    (step s c).cache.Settled settled (step s c).clock := by
  obtain ⟨hclock, hsettled⟩ := hc
  have hlater : s.cache.Settled settled c.call.now.date :=
    ⟨h.key, h.bar, fun hk => (h.past hk).trans_le hclock⟩
  unfold step getBarsBatch
  cases fetchStart s.cache c.call with
  | none => exact hlater
  | some gapStart =>
    dsimp only
    split_ifs
    · exact hlater
    · refine h.write hclock (fun b hb => ?_) hsettled
      obtain ⟨sym, -, hb⟩ := List.mem_flatMap.mp hb
      have hbar := (Upstream.mem_getBarsBatch.mp hb).1
      rwa [c.upstream.symbol_bar hbar]

theorem settled_empty (settled : Upstream) (clock : Date) :
    BarCache.empty.Settled settled clock :=
  ⟨fun hk => absurd hk (Option.some_ne_none _).symm,
    fun hk => absurd hk (Option.some_ne_none _).symm,
    fun hk => absurd hk (Option.some_ne_none _).symm⟩

/-- **The runs in which every call is transparent** are those in which every bar of a call's
window is fetched or cached. -/
theorem transparent_run_iff (settled : Upstream) (clock : Date) {calls : List CallAt}
    (h : Along step (Admissible settled) ⟨.empty, clock⟩ calls) :
    Along step (fun s c => Transparent s.cache c.upstream c.call) ⟨.empty, clock⟩ calls ↔
      Along step (fun s c => Covered s.cache c.upstream c.call) ⟨.empty, clock⟩ calls := by
  have hstep : ∀ s c, s.cache.Settled settled s.clock → Admissible settled s c →
      (Transparent s.cache c.upstream c.call ↔ Covered s.cache c.upstream c.call) ∧
        (step s c).cache.Settled settled (step s c).clock :=
    fun _ _ hs hc => ⟨transparent_iff_covered hs hc.1 hc.2, settled_step hs hc⟩
  constructor
  · intro htransparent
    exact (h.and htransparent).imp_of_invariant
      (fun s c hs hc => ⟨(hstep s c hs hc.1).1.mp hc.2, (hstep s c hs hc.1).2⟩) (settled_empty _ _)
  · intro hcovered
    exact (h.and hcovered).imp_of_invariant
      (fun s c hs hc => ⟨(hstep s c hs hc.1).1.mpr hc.2, (hstep s c hs hc.1).2⟩)
      (settled_empty _ _)

/-! ### A short window, then a long one -/

theorem date_midnight (day : ℤ) : (midnight day).date = day :=
  Int.mul_ediv_cancel _ (by decide)

def spyBar (day : Date) : Bar := ⟨"SPY", midnight day, 100, 101, 99, 100, 1000, none⟩

/-- A bar of SPY for each of ten days. -/
def tenDays : Upstream where
  bar sym day := if sym = "SPY" ∧ 0 ≤ day ∧ day ≤ 9 then some (spyBar day) else none
  symbol_bar := by
    intro sym day b hb
    obtain ⟨⟨rfl, -⟩, heq⟩ := Option.ite_none_right_eq_some.mp hb
    rw [← Option.some.inj heq]
    rfl
  date_bar := by
    intro sym day b hb
    obtain ⟨-, heq⟩ := Option.ite_none_right_eq_some.mp hb
    rw [← Option.some.inj heq]
    exact date_midnight day

/-- On the tenth day, the last bars from `first` on. -/
def lastBars (first : Date) : CallAt where
  call := ⟨["SPY"], midnight first, midnight 10, midnight 10⟩
  upstream := tenDays

theorem admissible_lastBars {s : CacheClock} (hs : s.clock ≤ 10) (first : Date) :
    Admissible tenDays s (lastBars first) :=
  ⟨hs.trans_eq (date_midnight 10).symm, fun _ _ _ => rfl⟩

/-- The long window first: all is there for the short one. -/
theorem transparent_long_short :
    Along step (fun s c => Transparent s.cache c.upstream c.call) ⟨.empty, 0⟩
      [lastBars 1, lastBars 8] := by
  have hadmissible : Along step (Admissible tenDays) ⟨.empty, 0⟩ [lastBars 1, lastBars 8] :=
    ⟨admissible_lastBars (by decide) 1, admissible_lastBars (by decide) 8, trivial⟩
  refine (transparent_run_iff tenDays 0 hadmissible).mpr ⟨?_, ?_, trivial⟩
  · intro sym hsym day hstart hstop hsome
    obtain rfl := List.mem_singleton.mp hsym
    exact Or.inl ⟨midnight 1, by decide +kernel, by decide +kernel, hstart⟩
  · intro sym hsym day hstart hstop hsome
    obtain rfl := List.mem_singleton.mp hsym
    have hlo : (8 : ℤ) ≤ day := (date_midnight 8).symm.trans_le hstart
    have hhi : day ≤ (10 : ℤ) := hstop.trans_eq (date_midnight 10)
    interval_cases day
    · exact Or.inr (by decide +kernel)
    · exact Or.inr (by decide +kernel)
    · exact absurd hsome (by decide +kernel)

/-- **The short window first**: it leaves the ninth day behind, and the bars before the eighth are
not fetched. -/
theorem not_transparent_short_long :
    Along step (Admissible tenDays) ⟨.empty, 0⟩ [lastBars 8, lastBars 1] ∧
      ¬Along step (fun s c => Transparent s.cache c.upstream c.call) ⟨.empty, 0⟩
        [lastBars 8, lastBars 1] := by
  have hfirst : Admissible tenDays ⟨.empty, 0⟩ (lastBars 8) :=
    admissible_lastBars (by decide) 8
  have hsecond : Admissible tenDays (step ⟨.empty, 0⟩ (lastBars 8)) (lastBars 1) :=
    admissible_lastBars (by decide) 1
  have hsettled := settled_step (settled_empty tenDays 0) hfirst
  refine ⟨⟨hfirst, hsecond, trivial⟩, ?_⟩
  rintro ⟨-, htransparent, -⟩
  have hcovered := (transparent_iff_covered hsettled hsecond.1 hsecond.2).mp htransparent
  rcases hcovered "SPY" List.mem_cons_self 1 (by decide +kernel) (by decide +kernel)
    (by decide +kernel) with ⟨gapStart, hgap, -, hday⟩ | hcached
  · have hstart : fetchStart (step ⟨.empty, 0⟩ (lastBars 8)).cache (lastBars 1).call =
        some (midnight 10) := by decide +kernel
    obtain rfl := Option.some.inj (hstart.symm.trans hgap)
    exact absurd hday (by decide +kernel)
  · exact absurd hcached (by decide +kernel)

end CachedMarketData

end TradingPlatform
