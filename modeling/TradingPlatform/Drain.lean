import TradingPlatform.Allocate

/-!
# What an allocation leaves

A queue of items with quantities is drained from the front: the first items are used up, one is
left with a part of what it had, the rest is untouched. Nothing here is about any one program.

Draining is what is left after a greedy allocation (`TradingPlatform.sum_map_drain`). It can be
done in two steps (`TradingPlatform.drain_drain`), and items that come later can be added before
or after (`TradingPlatform.drain_append`). So a queue that is drained now and then, and grows in
between, is at every moment the queue of all items, drained of all that was taken. What is left
of it is worth what its back is worth (`TradingPlatform.worth_drain_eq_takenWorth_reverse`).
-/

namespace TradingPlatform

variable {β M : Type*}

section Supply

variable [AddCommGroup M]

/-- What there is in a queue. -/
def supply (items : List (M × β)) : M := (items.map Prod.fst).sum

@[simp] theorem supply_nil : supply ([] : List (M × β)) = 0 := rfl

@[simp] theorem supply_cons (item : M × β) (items : List (M × β)) :
    supply (item :: items) = item.1 + supply items := List.sum_cons

theorem supply_append (items items' : List (M × β)) :
    supply (items ++ items') = supply items + supply items' := by
  rw [supply, List.map_append, List.sum_append]
  rfl

end Supply

section Ordered

variable [AddCommGroup M] [LinearOrder M]

/-- Take a quantity off the front of a queue. -/
def drain : List (M × β) → M → List (M × β)
  | [], _ => []
  | item :: items, demand =>
    if demand ≤ 0 then item :: items
    else if item.1 ≤ demand then drain items (demand - item.1)
    else (item.1 - demand, item.2) :: items

theorem drain_of_nonpos {demand : M} (h : demand ≤ 0) (items : List (M × β)) :
    drain items demand = items := by
  cases items with
  | nil => rfl
  | cons item items => exact if_pos h

theorem drain_cons_of_le {item : M × β} {items : List (M × β)} {demand : M} (h₀ : 0 < demand)
    (h : item.1 ≤ demand) : drain (item :: items) demand = drain items (demand - item.1) := by
  rw [drain, if_neg h₀.not_ge, if_pos h]

theorem drain_cons_of_lt {item : M × β} {items : List (M × β)} {demand : M} (h₀ : 0 < demand)
    (h : demand < item.1) :
    drain (item :: items) demand = (item.1 - demand, item.2) :: items := by
  rw [drain, if_neg h₀.not_ge, if_neg h.not_ge]

variable [IsOrderedAddMonoid M]

theorem supply_nonneg {items : List (M × β)} (h : ∀ item ∈ items, 0 < item.1) :
    0 ≤ supply items := by
  refine List.sum_nonneg fun q hq => ?_
  obtain ⟨item, hitem, rfl⟩ := List.mem_map.mp hq
  exact (h item hitem).le

/-- Nothing empty is left. -/
theorem pos_of_mem_drain {items : List (M × β)} (h : ∀ item ∈ items, 0 < item.1) {demand : M} :
    ∀ item ∈ drain items demand, 0 < item.1 := by
  induction items generalizing demand with
  | nil => exact h
  | cons item items ih =>
    have htail : ∀ i ∈ items, 0 < i.1 := fun i hi => h i (List.mem_cons_of_mem _ hi)
    rcases le_or_gt demand 0 with h₀ | h₀
    · rw [drain_of_nonpos h₀]
      exact h
    · rcases le_or_gt item.1 demand with hle | hlt
      · rw [drain_cons_of_le h₀ hle]
        exact ih htail
      · rw [drain_cons_of_lt h₀ hlt]
        exact List.forall_mem_cons.mpr ⟨sub_pos.mpr hlt, htail⟩

/-- **Items that come later** stay behind a demand that is met without them. -/
theorem drain_append {items : List (M × β)} {demand : M} (h : demand ≤ supply items)
    (items' : List (M × β)) : drain (items ++ items') demand = drain items demand ++ items' := by
  induction items generalizing demand with
  | nil => rw [List.nil_append, drain_of_nonpos h, drain_of_nonpos h, List.nil_append]
  | cons item items ih =>
    rcases le_or_gt demand 0 with h₀ | h₀
    · rw [drain_of_nonpos h₀, drain_of_nonpos h₀]
    · rw [List.cons_append]
      rcases le_or_gt item.1 demand with hle | hlt
      · rw [supply_cons] at h
        rw [drain_cons_of_le h₀ hle, drain_cons_of_le h₀ hle, ih (sub_le_iff_le_add'.mpr h)]
      · rw [drain_cons_of_lt h₀ hlt, drain_cons_of_lt h₀ hlt, List.cons_append]

/-- **Draining in two steps.** -/
theorem drain_drain {items : List (M × β)} (hpos : ∀ item ∈ items, 0 < item.1) {demand demand' : M}
    (h : 0 ≤ demand) (h' : 0 ≤ demand') :
    drain (drain items demand) demand' = drain items (demand + demand') := by
  induction items generalizing demand with
  | nil => rfl
  | cons item items ih =>
    rcases h'.eq_or_lt with rfl | h₁
    · rw [drain_of_nonpos le_rfl, add_zero]
    rcases h.eq_or_lt with rfl | h₀
    · rw [drain_of_nonpos le_rfl, zero_add]
    · have hsum : 0 < demand + demand' := add_pos h₀ h₁
      rcases le_or_gt item.1 demand with hle | hlt
      · rw [drain_cons_of_le h₀ hle, drain_cons_of_le hsum (hle.trans (le_add_of_nonneg_right h')),
          ih (fun i hi => hpos i (List.mem_cons_of_mem _ hi)) (sub_nonneg.mpr hle),
          sub_add_eq_add_sub]
      · rw [drain_cons_of_lt h₀ hlt]
        -- the item that is left with a part of what it had comes first in the second step
        rcases le_or_gt item.1 (demand + demand') with hle' | hlt'
        · rw [drain_cons_of_le hsum hle', drain_cons_of_le h₁ (sub_le_iff_le_add'.mpr hle')]
          have hleft : demand' - (item.1 - demand) = demand + demand' - item.1 := by
            rw [sub_sub_eq_add_sub, add_comm]
          exact congrArg (drain items) hleft
        · rw [drain_cons_of_lt hsum hlt', drain_cons_of_lt h₁ (lt_sub_iff_add_lt'.mpr hlt')]
          exact congrArg (fun q => (q, item.2) :: items) (sub_sub item.1 demand demand')

end Ordered

section Worth

variable [CommRing M]

/-- What a queue is worth. -/
def worth (f : β → M) (items : List (M × β)) : M := (items.map fun item => item.1 * f item.2).sum

theorem worth_append (f : β → M) (items items' : List (M × β)) :
    worth f (items ++ items') = worth f items + worth f items' := by
  rw [worth, List.map_append, List.sum_append]
  rfl

variable [LinearOrder M]

/-- What an allocation from a queue is worth. -/
def takenWorth (f : β → M) (items : List (M × β)) (demand : M) : M :=
  ((allocate Prod.fst items demand).map fun p => p.2 * f p.1.2).sum

/-- **What an allocation takes and what it leaves** make up what there was. -/
theorem worth_drain (f : β → M) (items : List (M × β)) (demand : M) :
    worth f (drain items demand) = worth f items - takenWorth f items demand := by
  induction items generalizing demand with
  | nil => simp [drain, worth, takenWorth, allocate]
  | cons item items ih =>
    rcases le_or_gt demand 0 with h₀ | h₀
    · rw [drain_of_nonpos h₀, takenWorth, allocate_of_nonpos h₀, List.map_nil, List.sum_nil,
        sub_zero]
    · have htaken : takenWorth f (item :: items) demand =
          min item.1 demand * f item.2 + takenWorth f items (demand - min item.1 demand) := by
        rw [takenWorth, allocate_cons_of_pos h₀, List.map_cons, List.sum_cons]
        rfl
      have hworth : ∀ item' : M × β, worth f (item' :: items) =
          item'.1 * f item'.2 + worth f items := fun _ => List.sum_cons
      rcases le_or_gt item.1 demand with hle | hlt
      · rw [drain_cons_of_le h₀ hle, ih, htaken, min_eq_left hle, hworth]
        ring
      · rw [drain_cons_of_lt h₀ hlt, htaken, min_eq_right hlt.le, sub_self, hworth, hworth,
          takenWorth, allocate_of_nonpos le_rfl]
        simp only [List.map_nil, List.sum_nil]
        ring

/-- What is taken, in items. -/
theorem takenWorth_one (items : List (M × β)) (demand : M) :
    takenWorth (fun _ => 1) items demand =
      ((allocate Prod.fst items demand).map Prod.snd).sum := by
  simp only [takenWorth, mul_one]

/-- What an allocation is worth if every item gains up to one price. -/
theorem takenWorth_const_sub (c : M) (f : β → M) (items : List (M × β)) (demand : M) :
    takenWorth (fun x => c - f x) items demand =
      c * ((allocate Prod.fst items demand).map Prod.snd).sum - takenWorth f items demand := by
  rw [takenWorth, takenWorth]
  induction allocate Prod.fst items demand with
  | nil => simp
  | cons p taken ih =>
    simp only [List.map_cons, List.sum_cons, ih]
    ring

variable [IsStrictOrderedRing M]

/-- What is taken in a second step is what both steps take, less the first. -/
theorem takenWorth_drain (f : β → M) {items : List (M × β)} (hpos : ∀ item ∈ items, 0 < item.1)
    {demand demand' : M} (h : 0 ≤ demand) (h' : 0 ≤ demand') :
    takenWorth f (drain items demand) demand' =
      takenWorth f items (demand + demand') - takenWorth f items demand := by
  have hboth := worth_drain f items (demand + demand')
  rw [← drain_drain hpos h h', worth_drain f (drain items demand), worth_drain f items demand]
    at hboth
  linarith

/-- What is left when a demand is met. -/
theorem supply_drain {items : List (M × β)} (hpos : ∀ item ∈ items, 0 < item.1) {demand : M}
    (h₀ : 0 ≤ demand) (h : demand ≤ supply items) :
    supply (drain items demand) = supply items - demand := by
  have hworth := worth_drain (fun _ : β => (1 : M)) items demand
  rw [takenWorth_one, sum_allocate hpos h₀ h] at hworth
  simpa [worth, supply] using hworth

/-- **A demand is met** exactly if there is enough. -/
theorem sum_allocate_eq_iff {items : List (M × β)} (hpos : ∀ item ∈ items, 0 < item.1) {demand : M}
    (h₀ : 0 ≤ demand) :
    ((allocate Prod.fst items demand).map Prod.snd).sum = demand ↔ demand ≤ supply items := by
  constructor
  · intro h
    have hworth := worth_drain (fun _ : β => (1 : M)) items demand
    rw [takenWorth_one, h] at hworth
    have hleft := supply_nonneg (@pos_of_mem_drain β M _ _ _ items hpos demand)
    simp only [worth, mul_one] at hworth
    rw [supply, hworth] at hleft
    exact sub_nonneg.mp hleft
  · exact sum_allocate hpos h₀

/-! ### The back of the queue -/

omit [IsStrictOrderedRing M] in
/-- An allocation from two queues, one behind the other. -/
theorem takenWorth_append [IsOrderedAddMonoid M] (f : β → M) {items : List (M × β)}
    (hpos : ∀ item ∈ items, 0 < item.1) {demand : M} (h₀ : 0 ≤ demand) (items' : List (M × β)) :
    takenWorth f (items ++ items') demand =
      takenWorth f items demand + takenWorth f items' (unmet Prod.fst items demand) := by
  rw [takenWorth, allocate_append hpos h₀, List.map_append, List.sum_append]
  rfl

/-- A demand for all there is, and more. -/
theorem drain_of_supply_le {items : List (M × β)} (hpos : ∀ item ∈ items, 0 < item.1) {demand : M}
    (h : supply items ≤ demand) : drain items demand = [] ∧
      unmet Prod.fst items demand = demand - supply items := by
  induction items generalizing demand with
  | nil => exact ⟨rfl, (sub_zero demand).symm⟩
  | cons item items ih =>
    have hitem := hpos item List.mem_cons_self
    have htail : ∀ i ∈ items, 0 < i.1 := fun i hi => hpos i (List.mem_cons_of_mem _ hi)
    rw [supply_cons] at h
    have hle : item.1 ≤ demand := (le_add_of_nonneg_right (supply_nonneg htail)).trans h
    obtain ⟨hdrain, hunmet⟩ := ih htail (le_sub_iff_add_le'.mpr h)
    rw [drain_cons_of_le (hitem.trans_le hle) hle, unmet, min_eq_left hle, supply_cons, hunmet]
    exact ⟨hdrain, sub_sub demand item.1 (supply items)⟩

/-- **What is left of a queue that is drained from the front** is what its back is worth. -/
theorem worth_drain_eq_takenWorth_reverse (f : β → M) {items : List (M × β)}
    (hpos : ∀ item ∈ items, 0 < item.1) {demand : M} (h₀ : 0 ≤ demand)
    (h : demand ≤ supply items) :
    worth f (drain items demand) = takenWorth f items.reverse (supply items - demand) := by
  induction items generalizing demand with
  | nil => rfl
  | cons item items ih =>
    have htail : ∀ i ∈ items, 0 < i.1 := fun i hi => hpos i (List.mem_cons_of_mem _ hi)
    have hback : ∀ i ∈ items.reverse, 0 < i.1 := fun i hi => htail i (List.mem_reverse.mp hi)
    have hsupply : supply items.reverse = supply items := by
      rw [supply, List.map_reverse, List.sum_reverse]
      rfl
    rw [supply_cons] at h
    rw [List.reverse_cons, takenWorth_append f hback (by rwa [supply_cons, sub_nonneg])]
    rcases le_or_gt item.1 demand with hle | hlt
    · -- the first item is used up, and the items behind it make up what is left
      have hleft : supply (item :: items) - demand = supply items - (demand - item.1) := by
        rw [supply_cons]
        ring
      have hmet : demand - item.1 ≤ supply items := sub_le_iff_le_add'.mpr h
      have hsum := sum_allocate_add_unmet hback (sub_nonneg.mpr hmet)
      rw [sum_allocate hback (sub_nonneg.mpr hmet) (by
        change _ ≤ supply items.reverse
        rw [hsupply]
        exact sub_le_self _ (sub_nonneg.mpr hle))] at hsum
      rw [drain_cons_of_le ((hpos item List.mem_cons_self).trans_le hle) hle,
        ih htail (sub_nonneg.mpr hle) hmet, hleft, add_eq_left.mp hsum, takenWorth,
        takenWorth, allocate_of_nonpos le_rfl, List.map_nil, List.sum_nil, add_zero]
    · -- a part of the first item is left, and all of those behind it
      have hall : supply items.reverse ≤ supply (item :: items) - demand := by
        rw [hsupply, supply_cons]
        linarith
      obtain ⟨hdrain, hunmet⟩ := drain_of_supply_le hback hall
      have hworth := worth_drain f items.reverse (supply (item :: items) - demand)
      have hreverse : worth f items.reverse = worth f items := by
        rw [worth, List.map_reverse, List.sum_reverse]
        rfl
      have hpart : supply (item :: items) - demand - supply items.reverse = item.1 - demand := by
        rw [hsupply, supply_cons]
        ring
      have hdrained : worth f (drain (item :: items) demand) =
          (item.1 - demand) * f item.2 + worth f items := by
        rcases h₀.eq_or_lt with rfl | hd
        · rw [drain_of_nonpos le_rfl, sub_zero]
          exact List.sum_cons
        · rw [drain_cons_of_lt hd hlt]
          exact List.sum_cons
      have hlast : takenWorth f [item] (item.1 - demand) = (item.1 - demand) * f item.2 := by
        rw [takenWorth, allocate_cons_of_pos (sub_pos.mpr hlt), min_eq_right (sub_le_self _ h₀),
          List.map_cons, List.sum_cons, sub_self, allocate_of_nonpos le_rfl]
        exact add_zero _
      rw [hdrain, hreverse] at hworth
      have hzero : worth f ([] : List (M × β)) = 0 := rfl
      rw [hdrained, hunmet, hpart, hlast]
      linarith

end Worth

end TradingPlatform
