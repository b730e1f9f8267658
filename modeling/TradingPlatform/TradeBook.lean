import Mathlib

/-!
# Trades and what they come to

A trade moves a signed quantity of something at a price. This file is about a list of trades, in
the order in which they were made: the position they leave in each thing, what was paid for them in
total, and the last price each thing was traded at.

* `TradingPlatform.Trades.sum_position_mul`: a sum over the things traded, of the position in each
  times a value of it, is a sum over the trades.
* `TradingPlatform.Trades.sum_position_mark`: the positions at the last prices are worth what was
  paid for them, and the gain: what each trade has gained since it was made.

The quantities are in any commutative ring, and the things traded are of any type.
-/

namespace TradingPlatform

/-- A signed quantity of something, at a price. -/
structure Deal (κ R : Type*) where
  key : κ
  qty : R
  price : R

namespace Trades

variable {κ R : Type*} {trades : List (Deal κ R)} {t : Deal κ R}

/-! ### What was paid -/

section Paid

variable [CommRing R]

/-- What was paid, less what was received. -/
def paid (trades : List (Deal κ R)) : R := (trades.map fun t => t.qty * t.price).sum

@[simp] theorem paid_nil : paid ([] : List (Deal κ R)) = 0 := rfl

theorem paid_concat : paid (trades ++ [t]) = paid trades + t.qty * t.price := by
  simp [paid]

end Paid

variable [DecidableEq κ]

/-! ### The last prices -/

/-- The last price a thing was traded at. -/
def mark (trades : List (Deal κ R)) (k : κ) : Option R :=
  ((trades.filter fun t => t.key = k).getLast?).map Deal.price

@[simp] theorem mark_nil (k : κ) : mark ([] : List (Deal κ R)) k = none := rfl

theorem mark_concat (k : κ) :
    mark (trades ++ [t]) k = if t.key = k then some t.price else mark trades k := by
  rw [mark, List.filter_append]
  split_ifs with hk
  · simp [hk]
  · simp [hk, mark]

/-- The last price is the price of a trade. -/
theorem exists_of_mark {k : κ} {price : R} (h : mark trades k = some price) :
    ∃ t ∈ trades, t.key = k ∧ t.price = price := by
  obtain ⟨t, ht, rfl⟩ := Option.map_eq_some_iff.mp h
  obtain ⟨hmem, hk⟩ := List.mem_filter.mp (List.mem_of_getLast? ht)
  exact ⟨t, hmem, of_decide_eq_true hk, rfl⟩

/-! ### The positions -/

variable [CommRing R]

/-- The position in a thing. -/
def position (trades : List (Deal κ R)) (k : κ) : R :=
  (trades.map fun t => if t.key = k then t.qty else 0).sum

/-- What the trades have gained since they were made, at the last prices. -/
def gain (trades : List (Deal κ R)) : R :=
  (trades.map fun t => t.qty * ((mark trades t.key).getD 0 - t.price)).sum

@[simp] theorem position_nil (k : κ) : position ([] : List (Deal κ R)) k = 0 := rfl

theorem position_concat (k : κ) :
    position (trades ++ [t]) k = position trades k + if t.key = k then t.qty else 0 := by
  simp [position]

/-- **A sum over the things traded is a sum over the trades.** -/
theorem sum_position_mul {keys : List κ} (hnd : keys.Nodup) (hkeys : ∀ t ∈ trades, t.key ∈ keys)
    (value : κ → R) :
    (keys.map fun k => position trades k * value k).sum =
      (trades.map fun t => t.qty * value t.key).sum := by
  induction trades using List.reverseRecOn with
  | nil => simp
  | append_singleton trades t ih =>
    obtain ⟨hold, hnew⟩ := List.forall_mem_append.mp hkeys
    have hk : t.key ∈ keys := hnew t (List.mem_singleton_self t)
    -- the last trade counts once among the keys
    have hone : (keys.map fun k => (if t.key = k then t.qty else 0) * value k).sum =
        t.qty * value t.key := by
      have hite : (fun k => (if t.key = k then t.qty else 0) * value k) =
          fun k => if k = t.key then t.qty * value t.key else 0 := by
        funext k
        by_cases hkk : k = t.key
        · rw [if_pos hkk, if_pos hkk.symm, hkk]
        · rw [if_neg hkk, if_neg (Ne.symm hkk), zero_mul]
      rw [hite, List.sum_map_ite_eq, List.count_eq_one_of_mem hnd hk]
      simp
    simp only [position_concat, add_mul, List.sum_map_add, ih hold, hone, List.map_append,
      List.map_cons, List.map_nil, List.sum_append, List.sum_cons, List.sum_nil, add_zero]

/-- **The positions at the last prices** are worth what was paid for them and the gain. -/
theorem sum_position_mark {keys : List κ} (hnd : keys.Nodup)
    (hkeys : ∀ t ∈ trades, t.key ∈ keys) :
    (keys.map fun k => position trades k * (mark trades k).getD 0).sum =
      paid trades + gain trades := by
  rw [sum_position_mul hnd hkeys, paid, gain, ← List.sum_map_add]
  refine congrArg List.sum (List.map_congr_left fun t _ => ?_)
  ring

end Trades

end TradingPlatform
