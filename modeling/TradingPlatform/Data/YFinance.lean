import TradingPlatform.AppLeverage
import TradingPlatform.Extended

/-!
# Daily bars from a data frame

The market data asks for daily bars in three ways, and has three loops that make bars of the rows
of a frame. A cell of a frame may hold no number. What it becomes then is a decimal that is not a
number, which is as good a price as any until it is compared.

One of the three loops leaves out the rows without an open or a close. The others leave out none,
and the application compares the latest close of the volatility index outside the handler that is
there for failed requests. `TradingPlatform.YFinanceMarketData.sound_iff` says when nothing comes of
this: exactly when no price is missing in the frame.

Two symbols of one batch may have one ticker. The frame is looked up by ticker, and only the last of
them gets its bars.
-/

namespace TradingPlatform

/-- A row of a frame: a cell holds a number, or none. -/
structure FrameRow where
  timestamp : Time
  openCell : Option Decimal
  high : Option Decimal
  low : Option Decimal
  close : Option Decimal
  volume : Option Decimal
  deriving DecidableEq

/-- No price is missing. -/
def FrameRow.Complete (r : FrameRow) : Prop :=
  r.openCell.isSome ∧ r.high.isSome ∧ r.low.isSome ∧ r.close.isSome

instance (r : FrameRow) : Decidable r.Complete :=
  inferInstanceAs (Decidable (r.openCell.isSome ∧ r.high.isSome ∧ r.low.isSome ∧ r.close.isSome))

/-- A bar as the market data returns it. -/
structure MarketBar where
  symbol : String
  timestamp : Time
  openPrice : Extended Decimal
  high : Extended Decimal
  low : Extended Decimal
  close : Extended Decimal
  volume : ℤ
  deriving DecidableEq

/-- The price is a finite number. -/
def Extended.IsFinite {K : Type*} (x : Extended K) : Prop := x.toFinite?.isSome

/-- All four prices are finite. -/
def MarketBar.Finite (b : MarketBar) : Prop :=
  b.openPrice.IsFinite ∧ b.high.IsFinite ∧ b.low.IsFinite ∧ b.close.IsFinite

/-- What the download of several tickers returns: one frame without tickers, or one for each. -/
inductive Download
  | flat (rows : List FrameRow)
  | keyed (frames : Dict String (List FrameRow))

/-- The frame of a ticker, unless the lookup raises a `KeyError`. Of a frame by ticker that is taken
for one without, every row raises and is left out. -/
def Download.sub? (singleTicker : Bool) (ticker : String) : Download → Option (List FrameRow)
  | .flat rows => if singleTicker then some rows else none
  | .keyed frames => if singleTicker then some [] else frames.get? ticker

/-- The library that is asked for frames. -/
structure YFinance where
  history (ticker : String) (start stop : Time) : Option (List FrameRow)
  /-- the rows of the last five days -/
  recent (ticker : String) : Option (List FrameRow)
  download (tickers : List String) (start stop : Time) : Option Download

/-- The market data: crypto bars are asked for elsewhere first, and may be had or not. -/
structure YFinanceMarketData where
  yf : YFinance
  alpacaCryptoBars : String → Time → Time → List MarketBar

namespace YFinanceMarketData

def cryptoMap : List (String × String) :=
  [("BTCUSD", "BTC-USD"), ("ETHUSD", "ETH-USD"), ("SOLUSD", "SOL-USD")]

def yfSymbol (symbol : String) : String := (cryptoMap.lookup symbol).getD symbol

def isCrypto (symbol : String) : Bool := (cryptoMap.lookup symbol).isSome

/-! ### The three loops -/

/-- `Decimal(str(x))` of a cell. -/
def price : Option Decimal → Extended Decimal
  | some x => .finite x
  | none => .nan false

/-- `int(x)` of a cell, and 0 without a number. -/
def wholeVolume : Option Decimal → ℤ
  | some x => x.num.tdiv x.den
  | none => 0

def barOfRow (symbol : String) (row : FrameRow) : MarketBar where
  symbol := symbol
  timestamp := row.timestamp
  openPrice := price row.openCell
  high := price row.high
  low := price row.low
  close := price row.close
  volume := wholeVolume row.volume

/-- The loop of `get_bars`. -/
def barsOfHistory (symbol : String) (rows : List FrameRow) : List MarketBar :=
  rows.map (barOfRow symbol)

/-- The loop of `get_bars_batch`, with its guard. -/
def barsOfDownload (symbol : String) (rows : List FrameRow) : List MarketBar :=
  rows.filterMap fun row =>
    if row.openCell.isNone ∨ row.close.isNone then none else some (barOfRow symbol row)

/-- The last row, for `get_latest_bar`. -/
def latestOfRows (symbol : String) (rows : List FrameRow) : Option MarketBar :=
  rows.getLast?.map (barOfRow symbol)

/-! ### The three requests -/

section Requests

variable (market : YFinanceMarketData)

/-- The bars of a crypto symbol, where they are to be had. -/
def cryptoBars (symbol : String) (start stop : Time) : List MarketBar :=
  if isCrypto symbol then market.alpacaCryptoBars symbol start stop else []

def getBars (symbol : String) (start stop : Time) : List MarketBar :=
  let bars := market.cryptoBars symbol start stop
  if bars ≠ [] then bars
  else
    match market.yf.history (yfSymbol symbol) start stop with
    | none => []
    | some rows => barsOfHistory symbol rows

/-- The symbols of a batch that are left to the library, by ticker. -/
def yfToOrig (symbols : List String) (start stop : Time) : Dict String String :=
  .ofList ((symbols.filter fun sym => market.cryptoBars sym start stop = []).map
    fun sym => (yfSymbol sym, sym))

/-- Before the library is asked: the crypto bars, and nothing for the other symbols. -/
def batchStart (symbols : List String) (start stop : Time) : Dict String (List MarketBar) :=
  symbols.foldl (fun out sym =>
    let bars := market.cryptoBars sym start stop
    if bars ≠ [] then out.set sym bars else out) (.ofList (symbols.map fun sym => (sym, [])))

/-- Enter the bars of a symbol, if there are any. -/
def fill (df : Download) (singleTicker : Bool) (out : Dict String (List MarketBar))
    (entry : String × String) : Dict String (List MarketBar) :=
  match df.sub? singleTicker entry.1 with
  | none => out
  | some rows =>
    let bars := barsOfDownload entry.2 rows
    if bars = [] then out else out.set entry.2 bars

def getBarsBatch (symbols : List String) (start stop : Time) : Dict String (List MarketBar) :=
  let out := market.batchStart symbols start stop
  let tickers := market.yfToOrig symbols start stop
  if tickers.keys = [] then out
  else
    match market.yf.download tickers.keys start stop with
    | none => out
    | some df => tickers.entries.foldl (fill df (tickers.keys.length = 1)) out

def getLatestBar (symbol : String) (now : Time) : Option MarketBar :=
  let bars := market.cryptoBars symbol (now - 5 * microsPerDay) now
  if bars ≠ [] then bars.getLast?
  else
    match market.yf.recent (yfSymbol symbol) with
    | none => none
    | some rows => latestOfRows symbol rows

end Requests

end YFinanceMarketData

/-! ### The volatility index -/

/-- The bucket of a reading; a comparison with what is not a number raises. -/
def classifyVix? : Extended Decimal → Option VixBucket
  | .finite vix => some (classifyVix vix)
  | .infinity negative => some (if negative then .veryLow else .crisis)
  | .nan _ => none

namespace VixFeed

/-- `_live_vix` with the bar that the market data returns. -/
def liveVix? (v : VixFeed) (now : Time) (bar : Option MarketBar) :
    Option (Option (Extended Decimal) × VixBucket) :=
  match v.cached? now with
  | some answer => some (answer.1.map .finite, answer.2)
  | none =>
    match bar with
    | none => some (none, .sweetSpot)
    | some bar => (classifyVix? bar.close).map fun bucket => (some bar.close, bucket)

end VixFeed

namespace YFinanceMarketData

/-! ### The loops on one frame -/

theorem isFinite_price (cell : Option Decimal) : (price cell).IsFinite ↔ cell.isSome := by
  cases cell <;> simp [price, Extended.IsFinite, Extended.toFinite?]

theorem finite_barOfRow (symbol : String) (row : FrameRow) :
    (barOfRow symbol row).Finite ↔ row.Complete := by
  simp only [MarketBar.Finite, barOfRow, isFinite_price, FrameRow.Complete]

/-- The bars of the history are finite exactly if no price is missing. -/
theorem finite_barsOfHistory_iff (symbol : String) (rows : List FrameRow) :
    (∀ b ∈ barsOfHistory symbol rows, b.Finite) ↔ ∀ row ∈ rows, row.Complete := by
  rw [barsOfHistory, List.forall_mem_map]
  exact forall₂_congr fun row _ => finite_barOfRow symbol row

/-- Without a missing price the guard of the batch leaves out nothing. -/
theorem barsOfDownload_eq {rows : List FrameRow} (h : ∀ row ∈ rows, row.Complete)
    (symbol : String) : barsOfDownload symbol rows = barsOfHistory symbol rows := by
  rw [barsOfDownload, barsOfHistory, ← List.filterMap_eq_map]
  refine List.filterMap_congr fun row hrow => if_neg ?_
  obtain ⟨hopen, -, -, hclose⟩ := h row hrow
  rw [Option.isNone_iff_eq_none, Option.isNone_iff_eq_none]
  rintro (hnone | hnone)
  · rw [hnone] at hopen
    exact absurd hopen (by decide)
  · rw [hnone] at hclose
    exact absurd hclose (by decide)

theorem latestOfRows_eq (symbol : String) (rows : List FrameRow) :
    latestOfRows symbol rows = (barsOfHistory symbol rows).getLast? :=
  List.getLast?_map.symm

/-! ### The requests that one frame answers -/

variable {market : YFinanceMarketData} {symbols : List String} {start stop now : Time}
  {sym : String} {rows : List FrameRow}

/-- The library answers every request for a symbol with the same rows, and there are no crypto bars
for it. -/
structure Serves (market : YFinanceMarketData) (symbols : List String) (start stop : Time)
    (sym : String) (rows : List FrameRow) : Prop where
  requested : sym ∈ symbols
  noCrypto : ∀ start stop, market.cryptoBars sym start stop = []
  history : market.yf.history (yfSymbol sym) start stop = some rows
  recent : market.yf.recent (yfSymbol sym) = some rows
  download : ∃ df, market.yf.download (market.yfToOrig symbols start stop).keys start stop =
      some df ∧
    df.sub? ((market.yfToOrig symbols start stop).keys.length = 1) (yfSymbol sym) = some rows

/-- Of the symbols of a batch with its ticker, it is the last. -/
def LastOfTicker (market : YFinanceMarketData) (symbols : List String) (start stop : Time)
    (sym : String) : Prop :=
  (symbols.filter fun s =>
    market.cryptoBars s start stop = [] ∧ yfSymbol s = yfSymbol sym).getLast? = some sym

theorem getBars_eq (h : Serves market symbols start stop sym rows) :
    market.getBars sym start stop = barsOfHistory sym rows := by
  rw [getBars, h.noCrypto, if_neg (fun hc => hc rfl), h.history]

theorem getLatestBar_eq (h : Serves market symbols start stop sym rows) (now : Time) :
    market.getLatestBar sym now = latestOfRows sym rows := by
  rw [getLatestBar, h.noCrypto, if_neg (fun hc => hc rfl), h.recent]

/-- The symbol that a ticker stands for is the last of the batch that has it. -/
theorem get?_yfToOrig_iff :
    (market.yfToOrig symbols start stop).get? (yfSymbol sym) = some sym ↔
      LastOfTicker market symbols start stop sym := by
  rw [yfToOrig, Dict.get?_ofList, LastOfTicker, List.filter_map, List.getLast?_map, Option.map_map,
    List.filter_filter]
  have hid : (Prod.snd ∘ fun s => (yfSymbol s, s) : String → String) = id := rfl
  rw [hid, Option.map_id]
  have htest : (fun s =>
      (decide (((fun s => (yfSymbol s, s)) s : String × String).1 = yfSymbol sym) &&
      decide (market.cryptoBars s start stop = []))) =
      fun s => decide (market.cryptoBars s start stop = [] ∧ yfSymbol s = yfSymbol sym) := by
    funext s
    rw [Bool.decide_and, Bool.and_comm]
  exact iff_of_eq (congrArg (fun f => (symbols.filter f).getLast? = some sym) htest)

/-- What a batch starts with for a symbol without crypto bars. -/
theorem get?_batchStart (hsym : sym ∈ symbols) (hcrypto : market.cryptoBars sym start stop = []) :
    (market.batchStart symbols start stop).get? sym = some [] := by
  have hstart : (Dict.ofList (symbols.map fun s => (s, ([] : List MarketBar)))).get? sym =
      some [] := by
    obtain ⟨bars, hbars⟩ := Dict.exists_get?_ofList
      (l := symbols.map fun s => (s, ([] : List MarketBar))) (k := sym) (by simpa using hsym)
    obtain ⟨s, -, hs⟩ := List.mem_map.mp (Dict.mem_of_get?_ofList hbars)
    rw [hbars, ← (Prod.mk.inj hs).2]
  rw [batchStart]
  generalize Dict.ofList (symbols.map fun s => (s, ([] : List MarketBar))) = out at hstart
  clear hsym
  induction symbols generalizing out with
  | nil => exact hstart
  | cons s symbols ih =>
    refine ih _ ?_
    by_cases hbars : market.cryptoBars s start stop = []
    · simpa [hbars] using hstart
    · have hne : sym ≠ s := by
        rintro rfl
        exact hbars hcrypto
      simpa [hbars, Dict.get?_set, hne] using hstart

/-- Only the symbol that is filled in changes. -/
theorem get?_fill_of_ne (df : Download) (single : Bool) (out : Dict String (List MarketBar))
    {entry : String × String} (hne : entry.2 ≠ sym) :
    (fill df single out entry).get? sym = out.get? sym := by
  rw [fill]
  cases df.sub? single entry.1 with
  | none => rfl
  | some rows =>
    show (if barsOfDownload entry.2 rows = [] then out
      else out.set entry.2 (barsOfDownload entry.2 rows)).get? sym = out.get? sym
    split_ifs
    · rfl
    · exact Dict.get?_set_of_ne _ hne.symm _

/-- Filling in the frames, ticker by ticker, gives a symbol its bars if a ticker stands for it. -/
theorem get?_foldl_fill (df : Download) (single : Bool) {entries : List (String × String)}
    (hticker : ∀ e ∈ entries, e.1 = yfSymbol e.2) {out : Dict String (List MarketBar)}
    (hout : out.get? sym = some []) (hsub : df.sub? single (yfSymbol sym) = some rows) :
    (entries.foldl (fill df single) out).get? sym =
      some (if (yfSymbol sym, sym) ∈ entries then barsOfDownload sym rows else []) := by
  induction entries using List.reverseRecOn with
  | nil => simpa using hout
  | append_singleton entries e ih =>
    have hbefore := ih fun e' he' => hticker e' (List.mem_append_left _ he')
    have he := hticker e (List.mem_append_right _ List.mem_cons_self)
    rw [List.foldl_append, List.foldl_cons, List.foldl_nil]
    obtain ⟨ticker, orig⟩ := e
    obtain rfl : ticker = yfSymbol orig := he
    by_cases horig : orig = sym
    · subst horig
      rw [if_pos (List.mem_append_right _ List.mem_cons_self), fill, hsub]
      by_cases hbars : barsOfDownload orig rows = []
      · rw [hbars, ite_self] at hbefore
        simpa [hbars] using hbefore
      · simp [hbars]
    · have hmem : (yfSymbol sym, sym) ∈ entries ++ [(yfSymbol orig, orig)] ↔
          (yfSymbol sym, sym) ∈ entries := by
        simp [Ne.symm horig]
      rw [get?_fill_of_ne df single _ horig, hbefore, if_congr hmem rfl rfl]

/-- **What a batch returns for a symbol**: the bars of the frame, if it is the last of its
ticker. -/
theorem get?_getBarsBatch (h : Serves market symbols start stop sym rows) :
    (market.getBarsBatch symbols start stop).get? sym =
      some (if (market.yfToOrig symbols start stop).get? (yfSymbol sym) = some sym then
        barsOfDownload sym rows else []) := by
  have hstart := get?_batchStart h.requested (h.noCrypto start stop)
  have hticker : ∀ e ∈ (market.yfToOrig symbols start stop).entries, e.1 = yfSymbol e.2 := by
    rintro ⟨ticker, orig⟩ he
    have hmem := Dict.mem_of_get?_ofList (Dict.get?_eq_some_iff.mpr he)
    obtain ⟨s, -, hs⟩ := List.mem_map.mp hmem
    obtain ⟨rfl, rfl⟩ := Prod.mk.inj hs
    rfl
  obtain ⟨df, hdf, hsub⟩ := h.download
  rw [getBarsBatch]
  have hkeys : (market.yfToOrig symbols start stop).keys ≠ [] := by
    obtain ⟨orig, horig⟩ : ∃ orig,
        (market.yfToOrig symbols start stop).get? (yfSymbol sym) = some orig := by
      refine Dict.exists_get?_ofList ?_
      simp only [List.map_map, List.mem_map, List.mem_filter]
      exact ⟨sym, ⟨h.requested, decide_eq_true (h.noCrypto start stop)⟩, rfl⟩
    exact List.ne_nil_of_mem (Dict.mem_keys_of_get? horig)
  rw [if_neg hkeys, hdf]
  refine (get?_foldl_fill df _ hticker hstart hsub).trans ?_
  exact congrArg some (if_congr Dict.get?_eq_some_iff.symm rfl rfl)

/-! ### When the three agree, and nothing bad gets through -/

/-- **What one wants of the bars**: all that are returned are finite, the three requests agree, and
the volatility index is classified without an exception, whatever the feed has kept. -/
structure Sound (market : YFinanceMarketData) (symbols : List String) (start stop now : Time)
    (sym : String) (rows : List FrameRow) : Prop where
  history : ∀ b ∈ market.getBars sym start stop, b.Finite
  batch : ∀ bars, (market.getBarsBatch symbols start stop).get? sym = some bars →
    ∀ b ∈ bars, b.Finite
  latest : ∀ b, market.getLatestBar sym now = some b → b.Finite
  batch_agrees : (market.getBarsBatch symbols start stop).get? sym =
    some (market.getBars sym start stop)
  latest_agrees : market.getLatestBar sym now = (market.getBars sym start stop).getLast?
  vix : ∀ (v : VixFeed) (t : Time), (v.liveVix? t (latestOfRows "^VIX" rows)).isSome

/-- The index is classified without an exception if its last close is a number. -/
theorem isSome_liveVix? (v : VixFeed) (t : Time) (h : ∀ row ∈ rows, row.Complete) :
    (v.liveVix? t (latestOfRows "^VIX" rows)).isSome := by
  cases hcached : v.cached? t with
  | some answer => simp [VixFeed.liveVix?, hcached]
  | none =>
    rw [latestOfRows]
    cases hlast : rows.getLast? with
    | none => simp [VixFeed.liveVix?, hcached]
    | some row =>
      obtain ⟨-, -, -, hclose⟩ := h row (List.mem_of_getLast? hlast)
      obtain ⟨close, hclose⟩ := Option.isSome_iff_exists.mp hclose
      simp [VixFeed.liveVix?, hcached, barOfRow, hclose, price, classifyVix?]

/-- With a number it answers as without the exception. -/
theorem liveVix?_finite (v : VixFeed) (t : Time) {b : MarketBar} {close : Decimal}
    (hclose : b.close = .finite close) :
    v.liveVix? t (some b) =
      some ((v.liveVix t (.bar close)).2.1.map .finite, (v.liveVix t (.bar close)).2.2) := by
  cases hcached : v.cached? t with
  | some answer => simp [VixFeed.liveVix?, VixFeed.liveVix, hcached]
  | none => simp [VixFeed.liveVix?, VixFeed.liveVix, hcached, hclose, classifyVix?]

/-- **When the bars are sound**: if no price is missing in the frame, and the symbol is the last of
its ticker, unless the frame has no rows. -/
theorem sound_iff (h : Serves market symbols start stop sym rows) (now : Time) :
    Sound market symbols start stop now sym rows ↔
      (∀ row ∈ rows, row.Complete) ∧
        (rows = [] ∨ LastOfTicker market symbols start stop sym) := by
  have hbatch := get?_getBarsBatch h
  constructor
  · intro hsound
    have hcomplete : ∀ row ∈ rows, row.Complete := by
      rw [← finite_barsOfHistory_iff sym, ← getBars_eq h]
      exact hsound.history
    refine ⟨hcomplete, ?_⟩
    by_cases howner : (market.yfToOrig symbols start stop).get? (yfSymbol sym) = some sym
    · exact Or.inr (get?_yfToOrig_iff.mp howner)
    · -- nothing is entered for the symbol, so the history has nothing either
      rw [if_neg howner, hsound.batch_agrees, getBars_eq h] at hbatch
      exact Or.inl (List.map_eq_nil_iff.mp (Option.some_inj.mp hbatch))
  · rintro ⟨hcomplete, howner⟩
    have hfinite := (finite_barsOfHistory_iff sym rows).mpr hcomplete
    have hagrees : (market.getBarsBatch symbols start stop).get? sym =
        some (market.getBars sym start stop) := by
      rw [hbatch, getBars_eq h, barsOfDownload_eq hcomplete]
      rcases howner with rfl | howner
      · exact congrArg some (ite_self _)
      · rw [if_pos (get?_yfToOrig_iff.mpr howner)]
    have hlatest : market.getLatestBar sym now = (market.getBars sym start stop).getLast? := by
      rw [getLatestBar_eq h, latestOfRows_eq, getBars_eq h]
    rw [← getBars_eq h] at hfinite
    refine ⟨hfinite, fun bars hbars => ?_, fun b hb => ?_, hagrees, hlatest, fun v t => ?_⟩
    · rwa [← Option.some_inj.mp (hagrees.symm.trans hbars)]
    · exact hfinite b (List.mem_of_getLast? (hlatest.symm.trans hb))
    · exact isSome_liveVix? v t hcomplete

/-! ### A row without a high, and one without a close -/

/-- A library that answers every request with the same rows. -/
def oneFrame (rows : List FrameRow) : YFinanceMarketData where
  yf := ⟨fun _ _ _ => some rows, fun _ => some rows, fun _ _ _ => some (.flat rows)⟩
  alpacaCryptoBars _ _ _ := []

theorem serves_oneFrame (sym : String) (rows : List FrameRow) :
    Serves (oneFrame rows) [sym] 0 0 sym rows := by
  have hcrypto : ∀ s start stop, (oneFrame rows).cryptoBars s start stop = [] :=
    fun s start stop => ite_self _
  have hkeys : ((oneFrame rows).yfToOrig [sym] 0 0).keys = [yfSymbol sym] := by
    have hfilter : ([sym].filter fun s => (oneFrame rows).cryptoBars s 0 0 = []) = [sym] := by
      simp [hcrypto]
    rw [yfToOrig, hfilter]
    rfl
  refine ⟨List.mem_cons_self, hcrypto sym, rfl, rfl, .flat rows, rfl, ?_⟩
  rw [hkeys]
  rfl

/-- A row as it should be. -/
def completeRow : FrameRow := ⟨0, some 14, some 16, some 13, some 15, some 0⟩

theorem sound_iff_completeRow :
    Sound (oneFrame [completeRow]) ["^VIX"] 0 0 0 "^VIX" [completeRow] := by
  refine (sound_iff (serves_oneFrame "^VIX" [completeRow]) 0).mpr ⟨by decide, Or.inr ?_⟩
  rfl

/-- A row without a close. -/
def missingClose : FrameRow := ⟨0, some 14, some 16, some 13, none, some 0⟩

/-- **A bar without a close is returned**, the batch does not return it, and classifying the index
raises. -/
theorem not_sound_missingClose :
    ¬Sound (oneFrame [missingClose]) ["^VIX"] 0 0 0 "^VIX" [missingClose] ∧
      ((oneFrame [missingClose]).getBars "^VIX" 0 0).map MarketBar.close = [.nan false] ∧
      ((oneFrame [missingClose]).getBarsBatch ["^VIX"] 0 0).get? "^VIX" = some [] ∧
      VixFeed.new.liveVix? 0 ((oneFrame [missingClose]).getLatestBar "^VIX" 0) = none := by
  refine ⟨fun h => ?_, rfl, rfl, rfl⟩
  exact absurd (h.vix VixFeed.new 0) (by decide)

end YFinanceMarketData

end TradingPlatform
