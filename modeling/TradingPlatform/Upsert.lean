import TradingPlatform.Dict

/-!
# A table that later rows overwrite

Values are saved in a table with a primary key. Each is turned into a row, which may not be possible
(`TradingPlatform.RowCodec`), and takes the place of the row of its key. What is loaded is what the
rows say, and that need not be what was saved (`kept`).

`TradingPlatform.RowCodec.get?_saveAll` says which rows are in the table: those of the values saved
last of their keys. So the table returns what was saved exactly if these values are kept as they are
(`TradingPlatform.RowCodec.kept_eq_of_isLast`). Nothing here is about any one program.
-/

namespace TradingPlatform

variable {α ρ κ : Type*} [DecidableEq κ]

/-- Of the items of its key it is the last one. -/
def IsLast (key : α → κ) (items : List α) (a : α) : Prop :=
  (items.filter fun b => key b = key a).getLast? = some a

section IsLast

variable {key : α → κ} {items : List α} {a b : α}

theorem IsLast.mem (h : IsLast key items a) : a ∈ items :=
  (List.mem_filter.mp (List.mem_of_getLast? h)).1

theorem IsLast.eq_of_key_eq (h : IsLast key items a) (h' : IsLast key items b)
    (hkey : key a = key b) : a = b := by
  rw [IsLast] at h h'
  rw [hkey] at h
  exact Option.some.inj (h.symm.trans h')

theorem not_isLast_nil : ¬IsLast key [] a := by
  intro h
  exact List.not_mem_nil h.mem

/-- The last item is the last one of its key. -/
theorem isLast_concat_of_key_eq (hkey : key a = key b) : IsLast key (items ++ [a]) b ↔ a = b := by
  rw [IsLast, List.filter_append, List.filter_cons_of_pos (by simpa using hkey), List.filter_nil,
    List.getLast?_concat, Option.some_inj]

theorem isLast_concat_of_key_ne (hkey : key a ≠ key b) :
    IsLast key (items ++ [a]) b ↔ IsLast key items b := by
  rw [IsLast, List.filter_append, List.filter_cons_of_neg (by simpa using hkey), List.filter_nil,
    List.append_nil, IsLast]

end IsLast

/-- How values are turned into rows, and rows into values. -/
structure RowCodec (α ρ κ : Type*) where
  key : α → κ
  rowKey : ρ → κ
  encode : α → Option ρ
  decode : ρ → Option α
  /-- What is left of a value. -/
  kept : α → α
  key_kept : ∀ a, key (kept a) = key a
  rowKey_encode : ∀ {a r}, encode a = some r → rowKey r = key a
  decode_encode : ∀ {a r}, encode a = some r → decode r = some (kept a)

namespace RowCodec

variable (c : RowCodec α ρ κ)

/-- Save a value: its row takes the place of the row of its key. -/
def save (table : Dict κ ρ) (a : α) : Option (Dict κ ρ) :=
  (c.encode a).map fun row => table.set (c.key a) row

/-- Save some values, one after the other. -/
def saveAll (table : Dict κ ρ) (items : List α) : Option (Dict κ ρ) :=
  items.foldlM c.save table

variable {c} {table table' : Dict κ ρ} {items : List α} {a b : α}

theorem saveAll_append (table : Dict κ ρ) (items items' : List α) :
    c.saveAll table (items ++ items') =
      (c.saveAll table items).bind fun table => c.saveAll table items' :=
  List.foldlM_append

theorem saveAll_concat_eq_some_iff :
    c.saveAll table (items ++ [a]) = some table' ↔
      ∃ table₀ row, c.saveAll table items = some table₀ ∧ c.encode a = some row ∧
        table' = table₀.set (c.key a) row := by
  rw [saveAll_append, Option.bind_eq_some_iff]
  simp only [saveAll, List.foldlM_cons, List.foldlM_nil, save]
  constructor
  · rintro ⟨table₀, htable₀, h⟩
    obtain ⟨table₁, h₁, h₂⟩ := Option.bind_eq_some_iff.mp h
    obtain ⟨row, hrow, rfl⟩ := Option.map_eq_some_iff.mp h₁
    exact ⟨table₀, row, htable₀, hrow, (Option.some.inj h₂).symm⟩
  · rintro ⟨table₀, row, htable₀, hrow, rfl⟩
    exact ⟨table₀, htable₀, by rw [hrow]; rfl⟩

/-- **Which rows are in the table**: those of the values saved last of their keys. -/
theorem get?_saveAll (h : c.saveAll .empty items = some table) (k : κ) (row : ρ) :
    table.get? k = some row ↔
      ∃ a, IsLast c.key items a ∧ c.key a = k ∧ c.encode a = some row := by
  induction items using List.reverseRecOn generalizing table with
  | nil =>
    obtain rfl : Dict.empty = table := Option.some.inj h
    rw [Dict.get?_empty]
    refine iff_of_false (by simp) ?_
    rintro ⟨a, ha, -⟩
    exact not_isLast_nil ha
  | append_singleton items a ih =>
    obtain ⟨table₀, row₀, htable₀, hrow₀, rfl⟩ := saveAll_concat_eq_some_iff.mp h
    rw [Dict.get?_set]
    split_ifs with hk
    · rw [Option.some_inj]
      constructor
      · rintro rfl
        exact ⟨a, (isLast_concat_of_key_eq rfl).mpr rfl, hk.symm, hrow₀⟩
      · rintro ⟨b, hb, hkey, hrow⟩
        obtain rfl := (isLast_concat_of_key_eq (hk.symm.trans hkey.symm)).mp hb
        exact Option.some.inj (hrow₀.symm.trans hrow)
    · rw [ih htable₀]
      refine exists_congr fun b => and_congr_left fun hb => ?_
      rw [isLast_concat_of_key_ne]
      intro hkey
      exact hk (hb.1.symm.trans hkey.symm)

theorem mem_values_saveAll (h : c.saveAll .empty items = some table) {row : ρ} :
    row ∈ table.values ↔ ∃ a, IsLast c.key items a ∧ c.encode a = some row := by
  rw [Dict.mem_values_iff]
  simp only [get?_saveAll h]
  constructor
  · rintro ⟨-, a, ha, -, hrow⟩
    exact ⟨a, ha, hrow⟩
  · rintro ⟨a, ha, hrow⟩
    exact ⟨_, a, ha, rfl, hrow⟩

/-- Each key has one row. -/
theorem pairwise_values_saveAll (h : c.saveAll .empty items = some table) :
    table.values.Pairwise fun row row' => c.rowKey row ≠ c.rowKey row' := by
  refine Dict.pairwise_values fun {k row} hrow => ?_
  obtain ⟨a, -, rfl, hencode⟩ := (get?_saveAll h k row).mp hrow
  exact (c.rowKey_encode hencode).symm

/-- **When all values can be saved.** -/
theorem isSome_saveAll_iff :
    (c.saveAll table items).isSome ↔ ∀ a ∈ items, (c.encode a).isSome := by
  induction items generalizing table with
  | nil => simp [saveAll]
  | cons a items ih =>
    rw [List.forall_mem_cons, saveAll, List.foldlM_cons, save]
    cases c.encode a with
    | none => simp
    | some row => simpa [saveAll] using ih

theorem encode_of_saveAll (h : c.saveAll table items = some table') (ha : a ∈ items) :
    ∃ row, c.encode a = some row :=
  Option.isSome_iff_exists.mp (isSome_saveAll_iff.mp (Option.isSome_of_eq_some h) a ha)

/-- **A value that was saved last of its key is loaded only if it is kept as it is.** -/
theorem kept_eq_of_isLast (ha : IsLast c.key items a) (hb : IsLast c.key items b)
    (h : c.kept b = a) : c.kept a = a := by
  have hkey : c.key b = c.key a := by rw [← h, c.key_kept]
  obtain rfl := hb.eq_of_key_eq ha hkey
  exact h

end RowCodec

end TradingPlatform
