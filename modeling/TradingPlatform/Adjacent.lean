import Mathlib

/-!
# Adjacent pairs

What a list gives when every two adjacent elements may give something: the changes between
successive values, the steps from one day to the next.

Where one list is put behind another, one more pair is made, of the end of the first and the start
of the second (`TradingPlatform.adjacent_append`). So an element put into a list is felt only
between its two neighbours (`TradingPlatform.adjacent_insert_iff`).
-/

namespace TradingPlatform

variable {α β : Type*}

/-- What the adjacent pairs of a list give, in their order. -/
def adjacent (f : α → α → Option β) : List α → List β
  | a :: b :: l => (f a b).toList ++ adjacent f (b :: l)
  | _ => []

/-- What the pair of two neighbours gives, if both are there. -/
def between (f : α → α → Option β) : Option α → Option α → List β
  | some a, some b => (f a b).toList
  | _, _ => []

@[simp] theorem between_some (f : α → α → Option β) (a b : α) :
    between f (some a) (some b) = (f a b).toList := rfl

@[simp] theorem between_none (f : α → α → Option β) (a : Option α) : between f a none = [] := by
  cases a <;> rfl

@[simp] theorem none_between (f : α → α → Option β) (b : Option α) : between f none b = [] := rfl

theorem adjacent_cons (f : α → α → Option β) (a : α) (l : List α) :
    adjacent f (a :: l) = between f (some a) l.head? ++ adjacent f l := by
  cases l <;> rfl

/-- **Two lists behind each other** make one more pair. -/
theorem adjacent_append (f : α → α → Option β) (l l' : List α) :
    adjacent f (l ++ l') = adjacent f l ++ between f l.getLast? l'.head? ++ adjacent f l' := by
  induction l with
  | nil => rfl
  | cons a l ih =>
    rw [List.cons_append, adjacent_cons, ih, adjacent_cons]
    cases l with
    | nil => rfl
    | cons b l => simp

/-- **An element is felt between its neighbours**: what it gives with each of them against what
they give without it. -/
theorem adjacent_insert_iff (f : α → α → Option β) (l : List α) (x : α) (l' : List α) :
    adjacent f (l ++ x :: l') = adjacent f (l ++ l') ↔
      between f l.getLast? (some x) ++ between f (some x) l'.head? =
        between f l.getLast? l'.head? := by
  rw [adjacent_append, adjacent_append, adjacent_cons, List.head?_cons, ← List.append_assoc,
    List.append_left_inj, List.append_assoc, List.append_right_inj]

/-- Two ways to look at a pair that agree on the list give the same. -/
theorem adjacent_congr {f g : α → α → Option β} {l : List α}
    (h : ∀ a ∈ l, ∀ b, f a b = g a b) : adjacent f l = adjacent g l := by
  induction l with
  | nil => rfl
  | cons a l ih =>
    rw [adjacent_cons, adjacent_cons, ih fun c hc => h c (List.mem_cons_of_mem a hc)]
    congr 1
    cases l with
    | nil => rfl
    | cons b l => rw [List.head?_cons, between_some, between_some, h a List.mem_cons_self b]

end TradingPlatform
