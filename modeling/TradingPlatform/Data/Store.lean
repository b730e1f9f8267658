import TradingPlatform.Agents.ExternalContent
import TradingPlatform.Data.BarCache
import TradingPlatform.Json.Print
import TradingPlatform.Text.DecimalText
import TradingPlatform.Upsert

/-!
# The store of bars and news

Bars are kept by symbol and instant, and items of news by URL, each in a table of its own. The
prices are in columns of a decimal type without a precision, which is one of eighteen digits with
three of them after the point: a price is rounded to thousandths, and one that is too large for
that raises, as does a volume of more than 64 bits. A text is in a column of characters, and the
symbols of an item are in one as JSON, which joins the two halves of a surrogate pair.

`TradingPlatform.DataStore.roundTrips_iff` says for which sequences of calls what is loaded is what
was saved last. That all of it can be saved is one half of it
(`TradingPlatform.Bar.Storable`, `TradingPlatform.DatedItem.Storable`), and that what is saved last
is not changed by it the other (`TradingPlatform.Bar.Exact`, `TradingPlatform.DatedItem.Exact`).
-/

namespace TradingPlatform

/-! ### The columns -/

/-- The nearest integer, of two the one that is farther from zero. -/
def roundHalfAway (q : Decimal) : ℤ := if q < 0 then -⌊-q + 1 / 2⌋ else ⌊q + 1 / 2⌋

theorem roundHalfAway_intCast (n : ℤ) : roundHalfAway (n : Decimal) = n := by
  have hfloor : ∀ k : ℤ, ⌊(k : Decimal) + 1 / 2⌋ = k := by
    intro k
    rw [Int.floor_intCast_add, show ⌊(1 / 2 : Decimal)⌋ = 0 by norm_num, add_zero]
  rw [roundHalfAway]
  split_ifs
  · rw [← Int.cast_neg, hfloor, neg_neg]
  · exact hfloor n

theorem abs_roundHalfAway (q : Decimal) : |roundHalfAway q| = ⌊|q| + 1 / 2⌋ := by
  have hpos : ∀ x : Decimal, 0 ≤ x → 0 ≤ ⌊x + 1 / 2⌋ := fun x hx =>
    Int.floor_nonneg.mpr (by linarith)
  rw [roundHalfAway]
  split_ifs with hq
  · rw [abs_neg, abs_of_neg hq, abs_of_nonneg (hpos (-q) (by linarith))]
  · rw [abs_of_nonneg (not_lt.mp hq), abs_of_nonneg (hpos q (not_lt.mp hq))]

/-- A value of the type `DECIMAL(18,3)`. -/
structure Decimal183 where
  thousandths : ℤ
  inRange : |thousandths| < 10 ^ 18
  deriving DecidableEq

namespace Decimal183

def ofDecimal (p : Decimal) : Option Decimal183 :=
  if h : |roundHalfAway (p * 1000)| < 10 ^ 18 then some ⟨roundHalfAway (p * 1000), h⟩ else none

def toDecimal (d : Decimal183) : Decimal := d.thousandths / 1000

/-- What is left of a price. -/
def rounded (p : Decimal) : Decimal := roundHalfAway (p * 1000) / 1000

theorem toDecimal_of_ofDecimal {p : Decimal} {d : Decimal183} (h : ofDecimal p = some d) :
    d.toDecimal = rounded p := by
  rw [ofDecimal] at h
  split_ifs at h
  obtain rfl := Option.some.inj h
  rfl

/-- A price fits if it is less than a million billions after rounding. -/
theorem isSome_ofDecimal_iff {p : Decimal} :
    (ofDecimal p).isSome ↔ |p| * 1000 + 1 / 2 < 10 ^ 18 := by
  have habs : |roundHalfAway (p * 1000)| < 10 ^ 18 ↔ |p| * 1000 + 1 / 2 < 10 ^ 18 := by
    rw [abs_roundHalfAway, Int.floor_lt, abs_mul, abs_of_pos (by norm_num : (0 : Decimal) < 1000)]
    norm_num
  rw [ofDecimal, ← habs]
  split_ifs with h
  · exact iff_of_true rfl h
  · exact iff_of_false Bool.false_ne_true h

/-- **A price is kept** if it has at most three digits after the point. -/
theorem rounded_eq_self_iff {p : Decimal} : rounded p = p ↔ ∃ n : ℤ, p * 1000 = n := by
  rw [rounded, div_eq_iff (by norm_num : (1000 : Decimal) ≠ 0)]
  constructor
  · intro h
    exact ⟨_, h.symm⟩
  · rintro ⟨n, hn⟩
    rw [hn, roundHalfAway_intCast]

end Decimal183

/-- A value of the type `BIGINT`. -/
structure BigInt where
  value : ℤ
  inRange : -2 ^ 63 ≤ value ∧ value < 2 ^ 63
  deriving DecidableEq

def BigInt.ofInt (n : ℤ) : Option BigInt :=
  if h : -2 ^ 63 ≤ n ∧ n < 2 ^ 63 then some ⟨n, h⟩ else none

theorem BigInt.value_of_ofInt {n : ℤ} {b : BigInt} (h : ofInt n = some b) : b.value = n := by
  rw [ofInt] at h
  split_ifs at h
  obtain rfl := Option.some.inj h
  rfl

theorem BigInt.isSome_ofInt_iff {n : ℤ} : (ofInt n).isSome ↔ -2 ^ 63 ≤ n ∧ n < 2 ^ 63 := by
  rw [ofInt]
  split_ifs with h
  · exact iff_of_true rfl h
  · exact iff_of_false Bool.false_ne_true h

/-- A column that may be null. -/
def nullable {α β : Type} (f : α → Option β) : Option α → Option (Option β)
  | none => some none
  | some a => (f a).map some

theorem nullable_eq_some_iff {α β : Type} {f : α → Option β} {x : Option α} {y : Option β} :
    nullable f x = some y ↔
      x = none ∧ y = none ∨ ∃ a b, x = some a ∧ f a = some b ∧ y = some b := by
  cases x with
  | none => simp [nullable, eq_comm]
  | some a => simp [nullable, Option.map_eq_some_iff, eq_comm]

theorem isSome_nullable_iff {α β : Type} {f : α → Option β} {x : Option α} :
    (nullable f x).isSome ↔ ∀ a ∈ x, (f a).isSome := by
  cases x with
  | none => simp [nullable]
  | some a => simp [nullable]

/-! ### Bars -/

/-- A row of the table of bars. -/
structure BarRow where
  symbol : String
  timestamp : Time
  openPrice : Decimal183
  high : Decimal183
  low : Decimal183
  close : Decimal183
  volume : BigInt
  vwap : Option Decimal183
  deriving DecidableEq

namespace Bar

/-- The primary key. -/
def key (b : Bar) : String × Time := (b.symbol, b.timestamp)

def toRow (b : Bar) : Option BarRow := do
  let openPrice ← Decimal183.ofDecimal b.openPrice
  let high ← Decimal183.ofDecimal b.high
  let low ← Decimal183.ofDecimal b.low
  let close ← Decimal183.ofDecimal b.close
  let volume ← BigInt.ofInt b.volume
  let vwap ← nullable Decimal183.ofDecimal b.vwap
  some ⟨b.symbol, b.timestamp, openPrice, high, low, close, volume, vwap⟩

def ofRow (row : BarRow) : Bar where
  symbol := row.symbol
  timestamp := row.timestamp
  openPrice := row.openPrice.toDecimal
  high := row.high.toDecimal
  low := row.low.toDecimal
  close := row.close.toDecimal
  volume := row.volume.value
  vwap := row.vwap.map Decimal183.toDecimal

/-- The bar with its prices rounded. -/
def rounded (b : Bar) : Bar :=
  { b with
    openPrice := Decimal183.rounded b.openPrice
    high := Decimal183.rounded b.high
    low := Decimal183.rounded b.low
    close := Decimal183.rounded b.close
    vwap := b.vwap.map Decimal183.rounded }

def prices (b : Bar) : List Decimal := [b.openPrice, b.high, b.low, b.close] ++ b.vwap.toList

/-- The prices and the volume fit into their columns. -/
def Storable (b : Bar) : Prop :=
  (∀ p ∈ b.prices, |p| * 1000 + 1 / 2 < 10 ^ 18) ∧ -2 ^ 63 ≤ b.volume ∧ b.volume < 2 ^ 63

/-- No price has more than three digits after the point. -/
def Exact (b : Bar) : Prop := ∀ p ∈ b.prices, ∃ n : ℤ, p * 1000 = n

theorem toRow_eq_some {b : Bar} {row : BarRow} (h : b.toRow = some row) :
    Decimal183.ofDecimal b.openPrice = some row.openPrice ∧
      Decimal183.ofDecimal b.high = some row.high ∧ Decimal183.ofDecimal b.low = some row.low ∧
      Decimal183.ofDecimal b.close = some row.close ∧ BigInt.ofInt b.volume = some row.volume ∧
      nullable Decimal183.ofDecimal b.vwap = some row.vwap ∧ row.symbol = b.symbol ∧
      row.timestamp = b.timestamp := by
  simp only [toRow, Option.bind_eq_bind, Option.bind_eq_some_iff] at h
  obtain ⟨o, ho, hi, hhi, lo, hlo, c, hc, v, hv, w, hw, hrow⟩ := h
  obtain rfl := Option.some.inj hrow
  exact ⟨ho, hhi, hlo, hc, hv, hw, rfl, rfl⟩

theorem ofRow_of_toRow {b : Bar} {row : BarRow} (h : b.toRow = some row) :
    ofRow row = b.rounded := by
  obtain ⟨hopen, hhigh, hlow, hclose, hvolume, hvwap, hsymbol, htimestamp⟩ := toRow_eq_some h
  have hvwap' : row.vwap.map Decimal183.toDecimal = b.vwap.map Decimal183.rounded := by
    rcases nullable_eq_some_iff.mp hvwap with ⟨hnone, hnone'⟩ | ⟨p, d, hp, hd, hrow⟩
    · rw [hnone, hnone']
      rfl
    · rw [hp, hrow, Option.map_some, Option.map_some, Decimal183.toDecimal_of_ofDecimal hd]
  rw [ofRow, hsymbol, htimestamp, Decimal183.toDecimal_of_ofDecimal hopen,
    Decimal183.toDecimal_of_ofDecimal hhigh, Decimal183.toDecimal_of_ofDecimal hlow,
    Decimal183.toDecimal_of_ofDecimal hclose, BigInt.value_of_ofInt hvolume, hvwap']
  rfl

theorem isSome_toRow_iff {b : Bar} : b.toRow.isSome ↔ b.Storable := by
  have hbind : b.toRow.isSome ↔ (Decimal183.ofDecimal b.openPrice).isSome ∧
      (Decimal183.ofDecimal b.high).isSome ∧ (Decimal183.ofDecimal b.low).isSome ∧
      (Decimal183.ofDecimal b.close).isSome ∧ (BigInt.ofInt b.volume).isSome ∧
      (nullable Decimal183.ofDecimal b.vwap).isSome := by
    rw [toRow]
    cases Decimal183.ofDecimal b.openPrice <;> cases Decimal183.ofDecimal b.high <;>
      cases Decimal183.ofDecimal b.low <;> cases Decimal183.ofDecimal b.close <;>
      cases BigInt.ofInt b.volume <;> cases nullable Decimal183.ofDecimal b.vwap <;> simp
  rw [hbind, BigInt.isSome_ofInt_iff, isSome_nullable_iff, Storable, prices]
  simp only [Decimal183.isSome_ofDecimal_iff, List.forall_mem_append, List.forall_mem_cons,
    List.not_mem_nil, false_imp_iff, implies_true, and_true, Option.mem_toList]
  tauto

/-- **A bar is kept** if its prices are. -/
theorem rounded_eq_self_iff {b : Bar} : b.rounded = b ↔ b.Exact := by
  have hvwap : b.vwap.map Decimal183.rounded = b.vwap ↔
      ∀ p ∈ b.vwap.toList, ∃ n : ℤ, p * 1000 = n := by
    simp only [← Decimal183.rounded_eq_self_iff]
    cases b.vwap <;> simp
  rw [Exact, prices, List.forall_mem_append, ← hvwap]
  simp only [List.forall_mem_cons, List.not_mem_nil, false_imp_iff, implies_true, and_true,
    ← Decimal183.rounded_eq_self_iff]
  constructor
  · intro h
    exact ⟨⟨congrArg openPrice h, congrArg high h, congrArg low h, congrArg close h⟩,
      congrArg vwap h⟩
  · rintro ⟨⟨hopen, hhigh, hlow, hclose⟩, hvwap⟩
    rw [rounded, hopen, hhigh, hlow, hclose, hvwap]

/-- Bars and their rows. -/
def codec : RowCodec Bar BarRow (String × Time) where
  key := key
  rowKey row := (row.symbol, row.timestamp)
  encode := toRow
  decode row := some (ofRow row)
  kept := rounded
  key_kept _ := rfl
  rowKey_encode h := by
    obtain ⟨-, -, -, -, -, -, hsymbol, htimestamp⟩ := toRow_eq_some h
    rw [hsymbol, htimestamp]
    rfl
  decode_encode h := congrArg some (ofRow_of_toRow h)

end Bar

/-! ### News -/

/-- An item of news, with the instant for its datetime: datetimes of one instant are equal. -/
structure DatedItem where
  url : Str
  source : NewsSource
  headline : Str
  publishedAt : Time
  symbols : List Str
  summary : Option Str := none
  sentiment : Option Decimal := none
  body : Option Str := none
  deriving DecidableEq

/-- A row of the table of news. -/
structure ItemRow where
  url : List Char
  source : List Char
  headline : List Char
  publishedAt : Time
  symbols : List Char
  summary : Option (List Char)
  sentiment : Option Decimal
  body : Option (List Char)

def NewsSource.ofValue? (cs : List Char) : Option NewsSource :=
  [.edgar, .finnhub, .rss, .yfinance, .fred, .reddit].find? fun s => s.value.toList = cs

theorem NewsSource.ofValue?_value (s : NewsSource) : ofValue? s.value.toList = some s := by
  cases s <;> decide

/-- The list of strings that a JSON text denotes. -/
def symbolsOfText (cs : List Char) : Option (List Str) :=
  match loads decimalFloats cs with
  | some (.arr items) => items.mapM fun item =>
    match item with
    | .str s => some s
    | _ => none
  | _ => none

def symbolsText (symbols : List Str) : List Char :=
  dumps decimalFloats .compact (.arr (symbols.map .str))

theorem symbolsOfText_symbolsText (symbols : List Str) :
    symbolsOfText (symbolsText symbols) = some (symbols.map Str.joined) := by
  rw [symbolsOfText, symbolsText, loads_dumps_strs]
  show (symbols.map fun s => JsonValue.str s.joined).mapM _ = _
  rw [List.mapM_map]
  exact Dict.mapM_eq_some_map fun s _ => rfl

namespace DatedItem

def toRow (x : DatedItem) : Option ItemRow := do
  let url ← x.url.toText?
  let headline ← x.headline.toText?
  let summary ← nullable Str.toText? x.summary
  let body ← nullable Str.toText? x.body
  some ⟨url, x.source.value.toList, headline, x.publishedAt, symbolsText x.symbols, summary,
    x.sentiment, body⟩

def ofRow (row : ItemRow) : Option DatedItem := do
  let symbols ← symbolsOfText row.symbols
  let source ← NewsSource.ofValue? row.source
  some ⟨row.url.map .scalar, source, row.headline.map .scalar, row.publishedAt, symbols,
    row.summary.map (List.map .scalar), row.sentiment, row.body.map (List.map .scalar)⟩

/-- The item with the pairs in its symbols joined. -/
def joined (x : DatedItem) : DatedItem := { x with symbols := x.symbols.map Str.joined }

/-- The texts other than the symbols have no lone half of a surrogate pair. -/
def Storable (x : DatedItem) : Prop :=
  x.url.toText?.isSome ∧ x.headline.toText?.isSome ∧ (∀ s ∈ x.summary, s.toText?.isSome) ∧
    ∀ s ∈ x.body, s.toText?.isSome

/-- In no symbol the halves of a surrogate pair stand side by side. -/
def Exact (x : DatedItem) : Prop := ∀ s ∈ x.symbols, s.Apart

theorem toRow_eq_some {x : DatedItem} {row : ItemRow} (h : x.toRow = some row) :
    x.url.toText? = some row.url ∧ x.headline.toText? = some row.headline ∧
      nullable Str.toText? x.summary = some row.summary ∧
      nullable Str.toText? x.body = some row.body ∧ row.source = x.source.value.toList ∧
      row.publishedAt = x.publishedAt ∧ row.symbols = symbolsText x.symbols ∧
      row.sentiment = x.sentiment := by
  simp only [toRow, Option.bind_eq_bind, Option.bind_eq_some_iff] at h
  obtain ⟨url, hurl, headline, hheadline, summary, hsummary, body, hbody, hrow⟩ := h
  obtain rfl := Option.some.inj hrow
  exact ⟨hurl, hheadline, hsummary, hbody, rfl, rfl, rfl, rfl⟩

theorem map_scalar_of_nullable {s : Option Str} {cs : Option (List Char)}
    (h : nullable Str.toText? s = some cs) : cs.map (List.map .scalar) = s := by
  rcases nullable_eq_some_iff.mp h with ⟨rfl, rfl⟩ | ⟨s, cs, rfl, hcs, rfl⟩
  · rfl
  · rw [Option.map_some, Str.toText?_eq_some hcs]

theorem ofRow_of_toRow {x : DatedItem} {row : ItemRow} (h : x.toRow = some row) :
    ofRow row = some x.joined := by
  obtain ⟨hurl, hheadline, hsummary, hbody, hsource, hpublished, hsymbols, hsentiment⟩ :=
    toRow_eq_some h
  rw [ofRow, hsymbols, symbolsOfText_symbolsText, hsource, NewsSource.ofValue?_value,
    ← Str.toText?_eq_some hurl, ← Str.toText?_eq_some hheadline, hpublished, hsentiment,
    map_scalar_of_nullable hsummary, map_scalar_of_nullable hbody]
  rfl

theorem isSome_toRow_iff {x : DatedItem} : x.toRow.isSome ↔ x.Storable := by
  have hbind : x.toRow.isSome ↔ x.url.toText?.isSome ∧ x.headline.toText?.isSome ∧
      (nullable Str.toText? x.summary).isSome ∧ (nullable Str.toText? x.body).isSome := by
    rw [toRow]
    cases x.url.toText? <;> cases x.headline.toText? <;>
      cases nullable Str.toText? x.summary <;> cases nullable Str.toText? x.body <;> simp
  rw [hbind, isSome_nullable_iff, isSome_nullable_iff, Storable]

/-- **An item is kept** if its symbols are. -/
theorem joined_eq_self_iff {x : DatedItem} : x.joined = x ↔ x.Exact := by
  have hsymbols : x.symbols.map Str.joined = x.symbols ↔ x.Exact := by
    have hmap : x.symbols.map Str.joined = x.symbols.map id ↔
        ∀ s ∈ x.symbols, s.joined = id s := List.map_inj_left
    rw [List.map_id] at hmap
    exact hmap.trans (forall₂_congr fun s _ => Str.joined_eq_self_iff s)
  rw [← hsymbols]
  constructor
  · intro h
    exact congrArg symbols h
  · intro h
    rw [joined, h]

/-- Items and their rows. -/
def codec : RowCodec DatedItem ItemRow Str where
  key := url
  rowKey row := row.url.map .scalar
  encode := toRow
  decode := ofRow
  kept := joined
  key_kept _ := rfl
  rowKey_encode h := (Str.toText?_eq_some (toRow_eq_some h).1).symm
  decode_encode := ofRow_of_toRow

end DatedItem

/-! ### The store -/

structure DataStore where
  bars : Dict (String × Time) BarRow
  news : Dict Str ItemRow

/-- A call that saves a list that is not empty. -/
inductive Save
  | bars (bars : List Bar) (nonempty : bars ≠ [])
  | news (items : List DatedItem) (nonempty : items ≠ [])

def Save.savedBars : Save → List Bar
  | .bars items _ => items
  | .news _ _ => []

def Save.savedNews : Save → List DatedItem
  | .bars _ _ => []
  | .news items _ => items

namespace DataStore

def empty : DataStore := ⟨.empty, .empty⟩

/-- The store after a call that does not raise. -/
def save (store : DataStore) : Save → Option DataStore
  | .bars bars _ =>
    (Bar.codec.saveAll store.bars bars).map fun table => { store with bars := table }
  | .news items _ =>
    (DatedItem.codec.saveAll store.news items).map fun table => { store with news := table }

/-- The store after some calls none of which raises. -/
def run (store : DataStore) (saves : List Save) : Option DataStore := saves.foldlM save store

def loadBars (store : DataStore) (symbol : String) (start stop : Time) : List Bar :=
  ((store.bars.values.filter fun row =>
    row.symbol = symbol ∧ start ≤ row.timestamp ∧ row.timestamp ≤ stop).mergeSort
      fun a b => a.timestamp ≤ b.timestamp).map Bar.ofRow

/-- The rows that `load_news` asks for. -/
def newsRows (store : DataStore) (start stop : Time) : List ItemRow :=
  store.news.values.filter fun row => start ≤ row.publishedAt ∧ row.publishedAt ≤ stop

/-- The loop over the rows of `load_news`. -/
def readRows (symbol : Str) : List ItemRow → Option (List DatedItem)
  | [] => some []
  | row :: rows => do
    let rawSymbols ← symbolsOfText row.symbols
    if symbol ∈ rawSymbols then
      let item ← DatedItem.ofRow row
      let items ← readRows symbol rows
      some (item :: items)
    else readRows symbol rows

/-- What `load_news` returns, from the rows that it asks for in the order in which they are
found. -/
def loadNews (found : List ItemRow) (symbol : Str) : Option (List DatedItem) :=
  readRows symbol (found.mergeSort fun a b => a.publishedAt ≤ b.publishedAt)

/-- **What is saved last is loaded**, in the order of time. -/
structure RoundTrips (saves : List Save) (store : DataStore) : Prop where
  bars : ∀ (symbol : String) (start stop : Time),
    (store.loadBars symbol start stop).Pairwise (fun a b => a.timestamp < b.timestamp) ∧
      ∀ b, b ∈ store.loadBars symbol start stop ↔
        IsLast Bar.key (saves.flatMap Save.savedBars) b ∧ b.symbol = symbol ∧
          start ≤ b.timestamp ∧ b.timestamp ≤ stop
  news : ∀ (symbol : Str) (start stop : Time) (found : List ItemRow),
    found.Perm (store.newsRows start stop) → ∃ items, loadNews found symbol = some items ∧
      items.Pairwise (fun x y => x.publishedAt ≤ y.publishedAt) ∧
      (items.map DatedItem.url).Nodup ∧
      ∀ x, x ∈ items ↔
        IsLast DatedItem.url (saves.flatMap Save.savedNews) x ∧ symbol ∈ x.symbols ∧
          start ≤ x.publishedAt ∧ x.publishedAt ≤ stop

/-! ### The two tables -/

section Tables

variable {store store' : DataStore} {saves : List Save}

theorem save_eq_some_iff (call : Save) :
    store.save call = some store' ↔
      Bar.codec.saveAll store.bars call.savedBars = some store'.bars ∧
        DatedItem.codec.saveAll store.news call.savedNews = some store'.news := by
  obtain ⟨bars', news'⟩ := store'
  cases call with
  | bars bars _ =>
    simp only [save, Save.savedBars, Save.savedNews, Option.map_eq_some_iff, DataStore.mk.injEq]
    constructor
    · rintro ⟨table, htable, rfl, rfl⟩
      exact ⟨htable, rfl⟩
    · rintro ⟨htable, hnews⟩
      exact ⟨bars', htable, rfl, Option.some.inj hnews⟩
  | news items _ =>
    simp only [save, Save.savedBars, Save.savedNews, Option.map_eq_some_iff, DataStore.mk.injEq]
    constructor
    · rintro ⟨table, htable, rfl, rfl⟩
      exact ⟨rfl, htable⟩
    · rintro ⟨hbars, htable⟩
      exact ⟨news', htable, Option.some.inj hbars, rfl⟩

/-- **Each table has what the calls save in it**, one after the other. -/
theorem run_eq_some_iff :
    store.run saves = some store' ↔
      Bar.codec.saveAll store.bars (saves.flatMap Save.savedBars) = some store'.bars ∧
        DatedItem.codec.saveAll store.news (saves.flatMap Save.savedNews) = some store'.news := by
  induction saves generalizing store with
  | nil =>
    obtain ⟨bars, news⟩ := store
    obtain ⟨bars', news'⟩ := store'
    simp [run, RowCodec.saveAll]
  | cons call saves ih =>
    rw [run, List.foldlM_cons, Option.bind_eq_bind, Option.bind_eq_some_iff]
    simp only [List.flatMap_cons, RowCodec.saveAll_append, Option.bind_eq_some_iff]
    constructor
    · rintro ⟨store₁, h₁, h⟩
      obtain ⟨hbars, hnews⟩ := (save_eq_some_iff call).mp h₁
      obtain ⟨hbars', hnews'⟩ := ih.mp h
      exact ⟨⟨_, hbars, hbars'⟩, ⟨_, hnews, hnews'⟩⟩
    · rintro ⟨⟨bars₁, hbars, hbars'⟩, ⟨news₁, hnews, hnews'⟩⟩
      exact ⟨⟨bars₁, news₁⟩, (save_eq_some_iff call).mpr ⟨hbars, hnews⟩,
        ih.mpr ⟨hbars', hnews'⟩⟩

/-- All calls return exactly if all that is saved fits into its columns. -/
theorem exists_run_iff :
    (∃ store', store.run saves = some store') ↔
      (∀ b ∈ saves.flatMap Save.savedBars, b.Storable) ∧
        ∀ x ∈ saves.flatMap Save.savedNews, x.Storable := by
  have hbars : (Bar.codec.saveAll store.bars (saves.flatMap Save.savedBars)).isSome ↔
      ∀ b ∈ saves.flatMap Save.savedBars, b.toRow.isSome := RowCodec.isSome_saveAll_iff
  have hnews : (DatedItem.codec.saveAll store.news (saves.flatMap Save.savedNews)).isSome ↔
      ∀ x ∈ saves.flatMap Save.savedNews, x.toRow.isSome := RowCodec.isSome_saveAll_iff
  simp only [run_eq_some_iff, ← Bar.isSome_toRow_iff, ← DatedItem.isSome_toRow_iff]
  rw [← hbars, ← hnews, Option.isSome_iff_exists, Option.isSome_iff_exists]
  constructor
  · rintro ⟨store', h, h'⟩
    exact ⟨⟨_, h⟩, ⟨_, h'⟩⟩
  · rintro ⟨⟨bars', h⟩, ⟨news', h'⟩⟩
    exact ⟨⟨bars', news'⟩, h, h'⟩

end Tables

/-! ### What is loaded -/

section Loads

variable {store : DataStore} {saves : List Save}

theorem bars_eq_saveAll (h : empty.run saves = some store) :
    Bar.codec.saveAll .empty (saves.flatMap Save.savedBars) = some store.bars :=
  (run_eq_some_iff.mp h).1

theorem news_eq_saveAll (h : empty.run saves = some store) :
    DatedItem.codec.saveAll .empty (saves.flatMap Save.savedNews) = some store.news :=
  (run_eq_some_iff.mp h).2

/-- **Which bars are loaded**: those that were saved last, with their prices rounded. -/
theorem mem_loadBars (h : empty.run saves = some store) {symbol : String} {start stop : Time}
    {b : Bar} :
    b ∈ store.loadBars symbol start stop ↔
      (∃ a, IsLast Bar.key (saves.flatMap Save.savedBars) a ∧ a.rounded = b) ∧
        b.symbol = symbol ∧ start ≤ b.timestamp ∧ b.timestamp ≤ stop := by
  simp only [loadBars, List.mem_map, List.mem_mergeSort, List.mem_filter, decide_eq_true_iff,
    RowCodec.mem_values_saveAll (bars_eq_saveAll h)]
  constructor
  · rintro ⟨row, ⟨⟨a, ha, hrow⟩, hin⟩, rfl⟩
    exact ⟨⟨a, ha, (Bar.ofRow_of_toRow hrow).symm⟩, hin⟩
  · rintro ⟨⟨a, ha, rfl⟩, hin⟩
    obtain ⟨row, hrow⟩ := RowCodec.encode_of_saveAll (bars_eq_saveAll h) ha.mem
    have hkept := Bar.ofRow_of_toRow hrow
    refine ⟨row, ⟨⟨a, ha, hrow⟩, ?_⟩, hkept⟩
    rw [← hkept] at hin
    exact hin

/-- Of one symbol no two rows are of one instant. -/
theorem pairwise_loadBars (h : empty.run saves = some store) (symbol : String)
    (start stop : Time) :
    (store.loadBars symbol start stop).Pairwise fun a b => a.timestamp < b.timestamp := by
  refine List.pairwise_map.mpr (pairwise_lt_mergeSort ?_)
  have hkeys := RowCodec.pairwise_values_saveAll (bars_eq_saveAll h)
  refine (hkeys.filter _).imp_of_mem fun {row row'} hrow hrow' hne htimestamp => hne ?_
  -- two rows of the symbol and of one instant would have one key
  have hsymbol := (of_decide_eq_true (List.mem_filter.mp hrow).2).1
  have hsymbol' := (of_decide_eq_true (List.mem_filter.mp hrow').2).1
  exact Prod.ext (hsymbol.trans hsymbol'.symm) htimestamp

/-- The loop takes the items that name the symbol. -/
theorem readRows_eq (symbol : Str) {rows : List ItemRow} {g : ItemRow → DatedItem}
    (h : ∀ row ∈ rows, DatedItem.ofRow row = some (g row)) :
    readRows symbol rows = some ((rows.map g).filter fun x => symbol ∈ x.symbols) := by
  induction rows with
  | nil => rfl
  | cons row rows ih =>
    have hrow := h row List.mem_cons_self
    have hsymbols : symbolsOfText row.symbols = some (g row).symbols := by
      simp only [DatedItem.ofRow, Option.bind_eq_bind, Option.bind_eq_some_iff] at hrow
      obtain ⟨symbols, hsymbols, source, -, hitem⟩ := hrow
      rw [← Option.some.inj hitem, hsymbols]
    rw [readRows, hsymbols, hrow, ih fun row hmem => h row (List.mem_cons_of_mem _ hmem)]
    simp only [Option.bind_eq_bind, Option.bind_some, List.map_cons]
    split_ifs with hmem
    · rw [List.filter_cons_of_pos (by simpa using hmem)]
    · rw [List.filter_cons_of_neg (by simpa using hmem)]

/-- **Which items are loaded**: those that were saved last, with their symbols joined. -/
theorem exists_loadNews (h : empty.run saves = some store) (symbol : Str) {start stop : Time}
    {found : List ItemRow} (hfound : found.Perm (store.newsRows start stop)) :
    ∃ items, loadNews found symbol = some items ∧
      items.Pairwise (fun x y => x.publishedAt ≤ y.publishedAt) ∧
      (items.map DatedItem.url).Nodup ∧
      ∀ x, x ∈ items ↔
        (∃ a, IsLast DatedItem.url (saves.flatMap Save.savedNews) a ∧ a.joined = x) ∧
          symbol ∈ x.symbols ∧ start ≤ x.publishedAt ∧ x.publishedAt ≤ stop := by
  have hall := news_eq_saveAll h
  have hperm := (List.mergeSort_perm found fun a b => a.publishedAt ≤ b.publishedAt).trans hfound
  -- every row is of an item that was saved
  have hrow : ∀ row ∈ found.mergeSort fun a b => a.publishedAt ≤ b.publishedAt,
      ∃ a, IsLast DatedItem.url (saves.flatMap Save.savedNews) a ∧ a.toRow = some row := by
    intro row hmem
    exact (RowCodec.mem_values_saveAll hall).mp (List.mem_of_mem_filter (hperm.subset hmem))
  let g : ItemRow → DatedItem := fun row => (DatedItem.ofRow row).getD
    ⟨[], .edgar, [], 0, [], none, none, none⟩
  have hdecode : ∀ {a : DatedItem} {row : ItemRow}, a.toRow = some row → g row = a.joined := by
    intro a row hencode
    show (DatedItem.ofRow row).getD _ = _
    rw [DatedItem.ofRow_of_toRow hencode, Option.getD_some]
  have hg : ∀ row ∈ found.mergeSort fun a b => a.publishedAt ≤ b.publishedAt,
      DatedItem.ofRow row = some (g row) := by
    intro row hmem
    obtain ⟨a, -, hencode⟩ := hrow row hmem
    rw [hdecode hencode, DatedItem.ofRow_of_toRow hencode]
  have hpublished : ∀ {a : DatedItem} {row : ItemRow}, a.toRow = some row →
      (g row).publishedAt = row.publishedAt := by
    intro a row hencode
    rw [hdecode hencode, (DatedItem.toRow_eq_some hencode).2.2.2.2.2.1]
    rfl
  refine ⟨_, readRows_eq symbol hg, (List.pairwise_map.mpr ?_).filter _, ?_, fun x => ?_⟩
  · refine (pairwise_mergeSort_key found).imp_of_mem fun {row row'} hmem hmem' hle => ?_
    obtain ⟨a, -, hencode⟩ := hrow row hmem
    obtain ⟨a', -, hencode'⟩ := hrow row' hmem'
    rwa [hpublished hencode, hpublished hencode']
  · -- the URL of an item that is read is the key of its row
    refine (List.Sublist.map _ List.filter_sublist).nodup (List.pairwise_map.mpr ?_)
    have hkeys := (RowCodec.pairwise_values_saveAll hall).filter
      fun row => start ≤ row.publishedAt ∧ row.publishedAt ≤ stop
    refine List.pairwise_map.mpr ((hperm.symm.pairwise hkeys ?_).imp_of_mem ?_)
    · exact fun hne => hne.symm
    · intro row row' hmem hmem' hne heq
      obtain ⟨a, -, hencode⟩ := hrow row hmem
      obtain ⟨a', -, hencode'⟩ := hrow row' hmem'
      rw [hdecode hencode, hdecode hencode'] at heq
      refine hne ?_
      rw [DatedItem.codec.rowKey_encode hencode, DatedItem.codec.rowKey_encode hencode']
      exact heq
  · rw [List.mem_filter, decide_eq_true_iff, List.mem_map]
    constructor
    · rintro ⟨⟨row, hmem, rfl⟩, hsymbol⟩
      obtain ⟨a, ha, hencode⟩ := hrow row hmem
      have hin := of_decide_eq_true (List.mem_filter.mp (hperm.subset hmem)).2
      rw [← hpublished hencode] at hin
      exact ⟨⟨a, ha, (hdecode hencode).symm⟩, hsymbol, hin⟩
    · rintro ⟨⟨a, ha, rfl⟩, hsymbol, hin⟩
      obtain ⟨row, hencode⟩ := RowCodec.encode_of_saveAll hall ha.mem
      refine ⟨⟨row, hperm.symm.subset (List.mem_filter.mpr ⟨?_, ?_⟩), hdecode hencode⟩, hsymbol⟩
      · exact (RowCodec.mem_values_saveAll hall).mpr ⟨a, ha, hencode⟩
      · rw [decide_eq_true_iff, ← hpublished hencode, hdecode hencode]
        exact hin

end Loads

/-! ### When it round-trips -/

section RoundTrips

variable {store : DataStore} {saves : List Save}

/-- What was saved last is as it was. -/
structure LastExact (saves : List Save) : Prop where
  bars : ∀ b, IsLast Bar.key (saves.flatMap Save.savedBars) b → b.Exact
  news : ∀ x, IsLast DatedItem.url (saves.flatMap Save.savedNews) x → x.Exact

theorem LastExact.roundTrips (h : LastExact saves) (hrun : empty.run saves = some store) :
    RoundTrips saves store where
  bars := by
    intro symbol start stop
    refine ⟨pairwise_loadBars hrun symbol start stop, fun b => ?_⟩
    rw [mem_loadBars hrun]
    refine and_congr_left' ⟨?_, fun hb => ⟨b, hb, Bar.rounded_eq_self_iff.mpr (h.bars b hb)⟩⟩
    rintro ⟨a, ha, rfl⟩
    rwa [Bar.rounded_eq_self_iff.mpr (h.bars a ha)]
  news := by
    intro symbol start stop found hfound
    obtain ⟨items, hitems, hsorted, hnodup, hmem⟩ := exists_loadNews hrun symbol hfound
    refine ⟨items, hitems, hsorted, hnodup, fun x => (hmem x).trans ?_⟩
    refine and_congr_left' ⟨?_, fun hx => ⟨x, hx, DatedItem.joined_eq_self_iff.mpr (h.news x hx)⟩⟩
    rintro ⟨a, ha, rfl⟩
    rwa [DatedItem.joined_eq_self_iff.mpr (h.news a ha)]

theorem RoundTrips.lastExact (h : RoundTrips saves store) (hrun : empty.run saves = some store) :
    LastExact saves where
  bars := by
    intro b hb
    have hmem := ((h.bars b.symbol b.timestamp b.timestamp).2 b).mpr ⟨hb, rfl, le_rfl, le_rfl⟩
    obtain ⟨⟨a, ha, hkept⟩, -⟩ := (mem_loadBars hrun).mp hmem
    exact Bar.rounded_eq_self_iff.mp (RowCodec.kept_eq_of_isLast (c := Bar.codec) hb ha hkept)
  news := by
    intro x hx s hs
    -- the item is asked for by one of its symbols
    obtain ⟨items, hitems, -, -, hmem⟩ := h.news s x.publishedAt x.publishedAt _ (List.Perm.refl _)
    obtain ⟨items', hitems', -, -, hmem'⟩ :=
      exists_loadNews hrun s (List.Perm.refl (store.newsRows x.publishedAt x.publishedAt))
    obtain rfl := Option.some.inj (hitems.symm.trans hitems')
    obtain ⟨⟨a, ha, hkept⟩, -⟩ := (hmem' x).mp ((hmem x).mpr ⟨hx, hs, le_rfl, le_rfl⟩)
    have hself := RowCodec.kept_eq_of_isLast (c := DatedItem.codec) hx ha hkept
    exact DatedItem.joined_eq_self_iff.mp hself s hs

/-- **When what is loaded is what was saved last**: when all that is saved fits into its columns,
and of what is saved last no price has more than three digits after the point, and no symbol has
the halves of a surrogate pair side by side. -/
theorem roundTrips_iff (saves : List Save) :
    (∃ store, empty.run saves = some store ∧ RoundTrips saves store) ↔
      ((∀ b ∈ saves.flatMap Save.savedBars, b.Storable) ∧
        ∀ x ∈ saves.flatMap Save.savedNews, x.Storable) ∧
      (∀ b, IsLast Bar.key (saves.flatMap Save.savedBars) b → b.Exact) ∧
        ∀ x, IsLast DatedItem.url (saves.flatMap Save.savedNews) x → x.Exact := by
  rw [← @exists_run_iff empty]
  constructor
  · rintro ⟨store, hrun, h⟩
    have hexact := h.lastExact hrun
    exact ⟨⟨store, hrun⟩, hexact.bars, hexact.news⟩
  · rintro ⟨⟨store, hrun⟩, hbars, hnews⟩
    exact ⟨store, hrun, LastExact.roundTrips ⟨hbars, hnews⟩ hrun⟩

end RoundTrips

/-! ### A price of four decimals -/

/-- A bar of a coin. -/
def coinBar : Bar where
  symbol := "DOGE/USD"
  timestamp := 0
  openPrice := 1 / 8
  high := 1 / 8
  low := 1 / 8
  close := 1234 / 10000
  volume := 1000

/-- **The closing price of 0.1234 is not what is loaded.** -/
theorem not_roundTrips_coinBar :
    ¬∃ store, empty.run [.bars [coinBar] (List.cons_ne_nil _ _)] = some store ∧
      RoundTrips [.bars [coinBar] (List.cons_ne_nil _ _)] store := by
  rintro ⟨store, hrun, h⟩
  have hlast : IsLast Bar.key ([] ++ [coinBar]) coinBar := (isLast_concat_of_key_eq rfl).mpr rfl
  obtain ⟨n, hn⟩ := (h.lastExact hrun).bars coinBar hlast (1234 / 10000) (by decide +kernel)
  have hten : (1234 : Decimal) = ((10 * n : ℤ) : Decimal) := by
    push_cast
    rw [← hn]
    norm_num
  have hint : (1234 : ℤ) = 10 * n := by exact_mod_cast hten
  omega

end DataStore

end TradingPlatform
