import Mathlib

/-!
# Stable sorting by a key

Sorting by a key leaves open in which order elements with one key come; a stable sort keeps
them in the order they had. So what a stable sort makes of a list depends on nothing but the
order of the elements of each key (`TradingPlatform.mergeSort_eq_of_filter_eq`). Nothing here
is about any one program.
-/

namespace TradingPlatform

section StableSort

variable {α κ : Type*} [LinearOrder κ] {key : α → κ}

/-- **The sort is stable**: the elements of one key keep their order. -/
theorem filter_mergeSort (l : List α) (k : κ) :
    (l.mergeSort fun a b => key a ≤ key b).filter (key · = k) = l.filter (key · = k) := by
  have htrans : ∀ a b c : α, decide (key a ≤ key b) = true → decide (key b ≤ key c) = true →
      decide (key a ≤ key c) = true := by
    simpa using fun a b c => le_trans
  have htotal : ∀ a b : α, (decide (key a ≤ key b) || decide (key b ≤ key a)) = true := by
    simpa using fun a b => le_total (key a) (key b)
  have hone : (l.filter (key · = k)).Pairwise fun a b => decide (key a ≤ key b) = true := by
    refine List.pairwise_of_forall_mem_list fun a ha b hb => ?_
    have hka : key a = k := of_decide_eq_true (List.mem_filter.mp ha).2
    have hkb : key b = k := of_decide_eq_true (List.mem_filter.mp hb).2
    exact decide_eq_true (hka.trans hkb.symm).le
  have hsub := (List.sublist_mergeSort htrans htotal hone List.filter_sublist).filter (key · = k)
  simp only [List.filter_filter, Bool.and_self] at hsub
  exact (hsub.eq_of_length ((List.mergeSort_perm l _).symm.filter _).length_eq).symm

/-- A sorted list is determined by the order of the elements of each key. -/
theorem eq_of_pairwise_of_filter_eq {l l' : List α} (hl : l.Pairwise fun a b => key a ≤ key b)
    (hl' : l'.Pairwise fun a b => key a ≤ key b)
    (h : ∀ k, l.filter (key · = k) = l'.filter (key · = k)) : l = l' := by
  have hmem : ∀ a, a ∈ l ↔ a ∈ l' := by
    intro a
    have ha := congrArg (a ∈ ·) (h (key a))
    simpa using ha
  induction l generalizing l' with
  | nil => exact (List.eq_nil_iff_forall_not_mem.mpr fun a ha =>
      absurd ((hmem a).mpr ha) List.not_mem_nil).symm
  | cons a l ih =>
    rcases l' with _ | ⟨a', l'⟩
    · exact absurd ((hmem a).mp List.mem_cons_self) List.not_mem_nil
    rw [List.pairwise_cons] at hl hl'
    -- both lists begin with an element of the least key
    have hkey : key a = key a' := by
      refine le_antisymm ?_ ?_
      · rcases List.mem_cons.mp ((hmem a').mpr List.mem_cons_self) with heq | hmem'
        · rw [heq]
        · exact hl.1 a' hmem'
      · rcases List.mem_cons.mp ((hmem a).mp List.mem_cons_self) with heq | hmem'
        · rw [heq]
        · exact hl'.1 a hmem'
    have hcons := h (key a)
    rw [List.filter_cons_of_pos (by simp), List.filter_cons_of_pos (by simp [hkey]),
      List.cons.injEq] at hcons
    obtain ⟨rfl, -⟩ := hcons
    have htail : ∀ k, l.filter (key · = k) = l'.filter (key · = k) := by
      intro k
      have hk := h k
      by_cases hak : key a = k
      · rwa [List.filter_cons_of_pos (by simp [hak]), List.filter_cons_of_pos (by simp [hak]),
          List.cons.injEq, and_iff_right rfl] at hk
      · rwa [List.filter_cons_of_neg (by simp [hak]), List.filter_cons_of_neg (by simp [hak])]
          at hk
    refine congrArg (a :: ·) (ih hl.2 hl'.2 htail fun b => ?_)
    have hb := congrArg (b ∈ ·) (htail (key b))
    simpa using hb

theorem pairwise_mergeSort_key (l : List α) :
    (l.mergeSort fun a b => key a ≤ key b).Pairwise fun a b => key a ≤ key b := by
  have hs : (l.mergeSort fun a b => key a ≤ key b).Pairwise
      fun a b => decide (key a ≤ key b) = true := by
    refine List.pairwise_mergeSort ?_ ?_ l
    · simpa using fun a b c => le_trans
    · simpa using fun a b => le_total (key a) (key b)
  exact hs.imp of_decide_eq_true

/-- **What a stable sort makes of a list** depends only on the order of the elements of each
key. -/
theorem mergeSort_eq_of_filter_eq {l l' : List α}
    (h : ∀ k, l.filter (key · = k) = l'.filter (key · = k)) :
    (l.mergeSort fun a b => key a ≤ key b) = l'.mergeSort fun a b => key a ≤ key b := by
  refine eq_of_pairwise_of_filter_eq (pairwise_mergeSort_key l)
    (pairwise_mergeSort_key l') fun k => ?_
  rw [filter_mergeSort, filter_mergeSort, h]

/-- Sorting what is left of a list is keeping the same of the sorted list. -/
theorem filter_mergeSort_comm (l : List α) (p : α → Bool) :
    (l.mergeSort fun a b => key a ≤ key b).filter p =
      (l.filter p).mergeSort fun a b => key a ≤ key b := by
  refine eq_of_pairwise_of_filter_eq ((pairwise_mergeSort_key l).filter p)
    (pairwise_mergeSort_key (l.filter p)) fun k => ?_
  rw [List.filter_comm, filter_mergeSort, filter_mergeSort, List.filter_comm]

/-- Sorting a list of elements of different keys. -/
theorem pairwise_lt_mergeSort {l : List α} (h : l.Pairwise fun a b => key a ≠ key b) :
    (l.mergeSort fun a b => key a ≤ key b).Pairwise fun a b => key a < key b := by
  have hne : (l.mergeSort fun a b => key a ≤ key b).Pairwise fun a b => key a ≠ key b :=
    (List.Perm.pairwise_iff (fun hab => hab.symm) (List.mergeSort_perm l _)).mpr h
  exact (pairwise_mergeSort_key l).and hne |>.imp fun hab => lt_of_le_of_ne hab.1 hab.2

/-- Two lists with the same elements, in the order of a key that tells the elements of each
apart. -/
theorem eq_of_pairwise_lt_of_mem_iff {l l' : List α} (hl : l.Pairwise fun a b => key a < key b)
    (hl' : l'.Pairwise fun a b => key a < key b) (h : ∀ a, a ∈ l ↔ a ∈ l') : l = l' := by
  have : Std.Irrefl fun a b : α => key a < key b := ⟨fun a => lt_irrefl (key a)⟩
  have : Std.Antisymm fun a b : α => key a < key b :=
    ⟨fun a b hab hba => absurd (hab.trans hba) (lt_irrefl (key a))⟩
  exact hl.eq_of_mem_iff hl' h

/-- Sorting elements by themselves forgets the order they had. -/
theorem mergeSort_eq_of_perm {l l' : List κ} (h : l.Perm l') :
    (l.mergeSort fun a b => a ≤ b) = l'.mergeSort fun a b => a ≤ b := by
  have hperm := ((List.mergeSort_perm l fun a b => a ≤ b).trans h).trans
    (List.mergeSort_perm l' fun a b => a ≤ b).symm
  exact hperm.eq_of_pairwise' (List.pairwise_mergeSort' (· ≤ ·) l)
    (List.pairwise_mergeSort' (· ≤ ·) l')

end StableSort

end TradingPlatform
