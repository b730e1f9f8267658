import Mathlib

/-!
# Greedy allocation

A demand is met from a list of items, each with a capacity: the first item gives what it can,
the next one what is still missing, until nothing is. First in, first out is this over a list
in order of age. Nothing here is about any one program.

What a user of an allocation needs is in a few lemmas. It takes from the front of the list
(`TradingPlatform.sublist_allocate`), from each item something and no more than there is
(`TradingPlatform.allocate_pos_le`), it meets the demand if the items can meet it
(`TradingPlatform.sum_allocate`), and at most one item is left with a part of what it had
(`TradingPlatform.sum_map_allocate`, `TradingPlatform.pairwise_allocate`). An item gives what it
can of what the items before it leave (`TradingPlatform.allocate_append`). Two demands on one
list are compared by `TradingPlatform.sum_map_allocate_mono`.
-/

namespace TradingPlatform

variable {α M : Type*} [AddCommGroup M] [LinearOrder M]

/-- Meet a demand from a list of items: which items give, and how much. -/
def allocate (capacity : α → M) : List α → M → List (α × M)
  | [], _ => []
  | item :: items, demand =>
    if demand ≤ 0 then []
    else (item, min (capacity item) demand) ::
      allocate capacity items (demand - min (capacity item) demand)

variable {capacity : α → M}

theorem allocate_of_nonpos {demand : M} (h : demand ≤ 0) (items : List α) :
    allocate capacity items demand = [] := by
  cases items with
  | nil => rfl
  | cons item items => exact if_pos h

theorem allocate_cons_of_pos {demand : M} (h : 0 < demand) (item : α) (items : List α) :
    allocate capacity (item :: items) demand =
      (item, min (capacity item) demand) ::
        allocate capacity items (demand - min (capacity item) demand) :=
  if_neg h.not_ge

/-- The items that give are the first ones. -/
theorem sublist_allocate (capacity : α → M) (items : List α) (demand : M) :
    ((allocate capacity items demand).map Prod.fst).Sublist items := by
  induction items generalizing demand with
  | nil => exact List.Sublist.refl []
  | cons item items ih =>
    rcases le_or_gt demand 0 with h | h
    · rw [allocate_of_nonpos h]
      exact List.nil_sublist _
    · rw [allocate_cons_of_pos h]
      exact (ih _).cons_cons item

/-- An item gives something, and no more than it has. -/
theorem allocate_pos_le {items : List α} (hpos : ∀ item ∈ items, 0 < capacity item) {demand : M}
    {item : α} {taken : M} (h : (item, taken) ∈ allocate capacity items demand) :
    item ∈ items ∧ 0 < taken ∧ taken ≤ capacity item := by
  induction items generalizing demand with
  | nil => simp [allocate] at h
  | cons item' items ih =>
    rcases le_or_gt demand 0 with hd | hd
    · rw [allocate_of_nonpos hd] at h
      simp at h
    · rw [allocate_cons_of_pos hd] at h
      rcases List.mem_cons.mp h with heq | hmem
      · obtain ⟨rfl, rfl⟩ := Prod.mk.inj heq
        exact ⟨List.mem_cons_self, lt_min (hpos _ List.mem_cons_self) hd, min_le_left _ _⟩
      · obtain ⟨hi, ht⟩ := ih (fun i hi => hpos i (List.mem_cons_of_mem _ hi)) hmem
        exact ⟨List.mem_cons_of_mem _ hi, ht⟩

/-- **A demand that can be met is met.** -/
theorem sum_allocate [IsOrderedAddMonoid M] {items : List α}
    (hpos : ∀ item ∈ items, 0 < capacity item) {demand : M} (h₀ : 0 ≤ demand)
    (h : demand ≤ (items.map capacity).sum) :
    ((allocate capacity items demand).map Prod.snd).sum = demand := by
  induction items generalizing demand with
  | nil => exact le_antisymm h₀ h
  | cons item items ih =>
    rcases h₀.eq_or_lt with hd | hd
    · rw [allocate_of_nonpos hd.ge, ← hd]
      rfl
    · rw [allocate_cons_of_pos hd, List.map_cons, List.sum_cons]
      rw [List.map_cons, List.sum_cons] at h
      have hpos' : ∀ item ∈ items, 0 < capacity item :=
        fun i hi => hpos i (List.mem_cons_of_mem _ hi)
      have hrest : demand - min (capacity item) demand ≤ (items.map capacity).sum := by
        rcases min_cases (capacity item) demand with ⟨heq, -⟩ | ⟨heq, -⟩
        · rw [heq]
          exact sub_le_iff_le_add'.mpr h
        · rw [heq, sub_self]
          exact List.sum_nonneg (by simpa using fun i hi => (hpos' i hi).le)
      rw [ih hpos' (sub_nonneg.mpr (min_le_right _ _)) hrest]
      exact add_sub_cancel _ _

/-- **At most one item gives a part of what it has**: what vanishes at the items that give
everything sums up to what it is at one item, or to nothing. -/
theorem sum_map_allocate {N : Type*} [AddMonoid N] (f : α × M → N)
    (hf : ∀ item, f (item, capacity item) = 0) (items : List α) (demand : M) :
    ((allocate capacity items demand).map f).sum = 0 ∨
      ∃ p ∈ allocate capacity items demand, ((allocate capacity items demand).map f).sum = f p := by
  induction items generalizing demand with
  | nil => exact Or.inl rfl
  | cons item items ih =>
    rcases le_or_gt demand 0 with h | h
    · rw [allocate_of_nonpos h]
      exact Or.inl rfl
    · rw [allocate_cons_of_pos h, List.map_cons, List.sum_cons]
      rcases le_total (capacity item) demand with hle | hle
      · -- it gives everything, and one of the others may be the one
        rw [min_eq_left hle, hf, zero_add]
        refine (ih _).imp_right ?_
        rintro ⟨p, hp, hsum⟩
        exact ⟨p, List.mem_cons_of_mem _ hp, hsum⟩
      · -- it meets the demand, and no other item gives anything
        rw [min_eq_right hle, sub_self, allocate_of_nonpos le_rfl, List.map_nil, List.sum_nil,
          add_zero]
        exact Or.inr ⟨_, List.mem_cons_self, rfl⟩

/-- **What an allocation costs grows with the demand**, if what an item costs grows with what it
gives. -/
theorem sum_map_allocate_mono [IsOrderedAddMonoid M] {N : Type*} [AddCommMonoid N]
    [PartialOrder N] [IsOrderedAddMonoid N] {items : List α} (f : α × M → N)
    (hpos : ∀ item ∈ items, 0 < capacity item)
    (hf : ∀ item ∈ items, ∀ taken taken', 0 < taken → taken ≤ taken' → taken' ≤ capacity item →
      0 ≤ f (item, taken) ∧ f (item, taken) ≤ f (item, taken'))
    {demand demand' : M} (h : demand ≤ demand') :
    ((allocate capacity items demand).map f).sum ≤
      ((allocate capacity items demand').map f).sum := by
  induction items generalizing demand demand' with
  | nil => exact le_rfl
  | cons item items ih =>
    rcases le_or_gt demand 0 with hd | hd
    · rw [allocate_of_nonpos hd, List.map_nil, List.sum_nil]
      refine List.sum_nonneg fun q hq => ?_
      obtain ⟨p, hp, rfl⟩ := List.mem_map.mp hq
      obtain ⟨hmem, hgives, hle⟩ := allocate_pos_le hpos hp
      exact (hf p.1 hmem p.2 p.2 hgives le_rfl hle).1
    · rw [allocate_cons_of_pos hd, allocate_cons_of_pos (hd.trans_le h), List.map_cons,
        List.map_cons, List.sum_cons, List.sum_cons]
      have hfirst : 0 < min (capacity item) demand :=
        lt_min (hpos item List.mem_cons_self) hd
      have hrest : demand - min (capacity item) demand ≤
          demand' - min (capacity item) demand' := by
        rcases le_total (capacity item) demand with hle | hle
        · rw [min_eq_left hle, min_eq_left (hle.trans h)]
          exact sub_le_sub_right h _
        · rw [min_eq_right hle, sub_self]
          exact sub_nonneg.mpr (min_le_right _ _)
      refine add_le_add ?_ (ih (fun i hi => hpos i (List.mem_cons_of_mem _ hi))
        (fun i hi => hf i (List.mem_cons_of_mem _ hi)) hrest)
      exact (hf item List.mem_cons_self _ _ hfirst (min_le_min_left _ h) (min_le_left _ _)).2

/-- What is still missing of a demand once some items gave. -/
def unmet (capacity : α → M) : List α → M → M
  | [], demand => demand
  | item :: items, demand => unmet capacity items (demand - min (capacity item) demand)

theorem unmet_zero {items : List α} (hpos : ∀ item ∈ items, 0 < capacity item) :
    unmet capacity items 0 = 0 := by
  induction items with
  | nil => rfl
  | cons item items ih =>
    rw [unmet, min_eq_right (hpos item List.mem_cons_self).le, sub_zero]
    exact ih fun i hi => hpos i (List.mem_cons_of_mem _ hi)

section Unmet

variable [IsOrderedAddMonoid M] {items : List α} {demand : M}

theorem unmet_nonneg (items : List α) (h₀ : 0 ≤ demand) : 0 ≤ unmet capacity items demand := by
  induction items generalizing demand with
  | nil => exact h₀
  | cons item items ih => exact ih (sub_nonneg.mpr (min_le_right _ _))

/-- The items behind some items meet what those leave. -/
theorem allocate_append (hpos : ∀ item ∈ items, 0 < capacity item) (h₀ : 0 ≤ demand)
    (items' : List α) :
    allocate capacity (items ++ items') demand =
      allocate capacity items demand ++ allocate capacity items' (unmet capacity items demand) := by
  induction items generalizing demand with
  | nil => rfl
  | cons item items ih =>
    have hpos' : ∀ item ∈ items, 0 < capacity item := fun i hi => hpos i (List.mem_cons_of_mem _ hi)
    rcases h₀.eq_or_lt with hd | hd
    · rw [← hd, unmet_zero hpos, allocate_of_nonpos le_rfl, allocate_of_nonpos le_rfl,
        allocate_of_nonpos le_rfl]
      rfl
    · rw [List.cons_append, allocate_cons_of_pos hd, allocate_cons_of_pos hd, unmet,
        ih hpos' (sub_nonneg.mpr (min_le_right _ _))]
      rfl

theorem sum_allocate_add_unmet (hpos : ∀ item ∈ items, 0 < capacity item) (h₀ : 0 ≤ demand) :
    ((allocate capacity items demand).map Prod.snd).sum + unmet capacity items demand =
      demand := by
  induction items generalizing demand with
  | nil => exact zero_add _
  | cons item items ih =>
    rcases h₀.eq_or_lt with hd | hd
    · rw [← hd, unmet_zero hpos, allocate_of_nonpos le_rfl]
      exact add_zero _
    · have hrest := ih (fun i hi => hpos i (List.mem_cons_of_mem _ hi))
        (sub_nonneg.mpr (min_le_right (capacity item) demand))
      rw [allocate_cons_of_pos hd, unmet, List.map_cons, List.sum_cons, add_assoc, hrest]
      exact add_sub_cancel _ _

end Unmet

/-- Every item but the last that gives gives everything. -/
theorem pairwise_allocate (items : List α) (demand : M) :
    (allocate capacity items demand).Pairwise fun p _ => p.2 = capacity p.1 := by
  induction items generalizing demand with
  | nil => exact List.Pairwise.nil
  | cons item items ih =>
    rcases le_or_gt demand 0 with hd | hd
    · rw [allocate_of_nonpos hd]
      exact List.Pairwise.nil
    rw [allocate_cons_of_pos hd]
    refine List.pairwise_cons.mpr ⟨fun q hq => ?_, ih _⟩
    rcases le_total (capacity item) demand with hle | hle
    · exact min_eq_left hle
    · -- it meets the demand, and nothing is asked of the others
      rw [min_eq_right hle, sub_self, allocate_of_nonpos le_rfl] at hq
      exact absurd hq List.not_mem_nil

end TradingPlatform
