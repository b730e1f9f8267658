import Mathlib

/-!
# Occurrences of a pattern

How often a pattern occurs in a list, counted by the positions it begins at. An occurrence does not
go over an element that is not in the pattern, so such an element cuts a list into two that can be
counted on their own (`TradingPlatform.occurrences_append_cons`), and a list that is joined with
such elements counts what its parts count (`TradingPlatform.occurrences_intercalate`).
-/

namespace TradingPlatform

variable {α : Type*} [DecidableEq α]

/-- The number of positions at which a pattern occurs. -/
def occurrences (pat l : List α) : ℕ := l.tails.countP fun t => pat.isPrefixOf t

variable {pat : List α}

theorem occurrences_nil (hpat : pat ≠ []) : occurrences pat [] = 0 := by
  obtain ⟨p, ps, rfl⟩ := List.exists_cons_of_ne_nil hpat
  rfl

theorem occurrences_cons (a : α) (l : List α) :
    occurrences pat (a :: l) = (if pat <+: a :: l then 1 else 0) + occurrences pat l := by
  rw [occurrences, List.tails_cons, List.countP_cons, Nat.add_comm, occurrences]
  simp only [List.isPrefixOf_iff_prefix]

/-- A list without the first element of the pattern. -/
theorem occurrences_eq_zero {p : α} {ps l : List α} (h : p ∉ l) : occurrences (p :: ps) l = 0 := by
  induction l with
  | nil => rfl
  | cons a l ih =>
    rw [List.mem_cons, not_or] at h
    have hne : ¬p :: ps <+: a :: l := fun hpre => h.1 (List.cons_prefix_cons.mp hpre).1
    rw [occurrences_cons, if_neg hne, ih h.2]

/-! ### Cuts -/

omit [DecidableEq α] in
/-- What begins before a cut does not go over it. -/
theorem isPrefix_append_cons_iff {c : α} (hc : c ∉ pat) (a b : List α) :
    pat <+: a ++ c :: b ↔ pat <+: a := by
  constructor
  · intro h
    have hcut : a ++ [c] <+: a ++ c :: b := ⟨b, by simp⟩
    rcases List.prefix_or_prefix_of_prefix h hcut with hpre | hpre
    · rcases List.prefix_concat_iff.mp hpre with rfl | hpre
      · exact absurd (by simp) hc
      · exact hpre
    · exact absurd (hpre.subset (by simp)) hc
  · intro h
    exact h.trans (List.prefix_append a _)

/-- **An element that is not in the pattern** cuts a list in two. -/
theorem occurrences_append_cons (hpat : pat ≠ []) {c : α} (hc : c ∉ pat) (a b : List α) :
    occurrences pat (a ++ c :: b) = occurrences pat a + occurrences pat b := by
  induction a with
  | nil =>
    have hne : ¬pat <+: c :: b := by
      rw [← List.nil_append (c :: b), isPrefix_append_cons_iff hc, List.prefix_nil]
      exact hpat
    rw [List.nil_append, occurrences_cons, if_neg hne, occurrences_nil hpat]
  | cons x a ih =>
    have hiff := isPrefix_append_cons_iff hc (x :: a) b
    rw [List.cons_append] at hiff
    rw [List.cons_append, occurrences_cons, occurrences_cons, ih, if_congr hiff rfl rfl,
      Nat.add_assoc]

/-- A cut at the beginning of the second part. -/
theorem occurrences_append_of_head (hpat : pat ≠ []) {c : α} (hc : c ∉ pat) {a b : List α}
    (hb : b.head? = some c) : occurrences pat (a ++ b) = occurrences pat a + occurrences pat b := by
  obtain ⟨rest, rfl⟩ := List.head?_eq_some_iff.mp hb
  have hrest := occurrences_append_cons hpat hc [] rest
  rw [List.nil_append, occurrences_nil hpat, Nat.zero_add] at hrest
  rw [occurrences_append_cons hpat hc, hrest]

/-- A cut at the end of the first part. -/
theorem occurrences_append_of_getLast (hpat : pat ≠ []) {c : α} (hc : c ∉ pat) {a b : List α}
    (ha : a.getLast? = some c) :
    occurrences pat (a ++ b) = occurrences pat a + occurrences pat b := by
  obtain ⟨before, rfl⟩ := List.getLast?_eq_some_iff.mp ha
  rw [List.append_assoc, List.singleton_append, occurrences_append_cons hpat hc,
    occurrences_append_cons hpat hc before [], occurrences_nil hpat, Nat.add_zero]

/-! ### Lists that are joined -/

/-- A separator of elements that are not in the pattern. -/
theorem occurrences_append_sep (hpat : pat ≠ []) {sep : List α} (hne : sep ≠ [])
    (hsep : ∀ c ∈ sep, c ∉ pat) (a b : List α) :
    occurrences pat (a ++ sep ++ b) = occurrences pat a + occurrences pat b := by
  obtain ⟨c, rest, rfl⟩ := List.exists_cons_of_ne_nil hne
  have hc : c ∉ pat := hsep c List.mem_cons_self
  rw [List.append_assoc, List.cons_append, occurrences_append_cons hpat hc]
  congr 1
  have hrest : ∀ d ∈ rest, d ∉ pat := fun d hd => hsep d (List.mem_cons_of_mem c hd)
  clear hsep hne hc
  induction rest with
  | nil => rfl
  | cons d rest ih =>
    have hd := occurrences_append_cons hpat (hrest d List.mem_cons_self) [] (rest ++ b)
    rw [List.cons_append, ← List.nil_append (d :: (rest ++ b)), hd, occurrences_nil hpat,
      Nat.zero_add]
    exact ih fun e he => hrest e (List.mem_cons_of_mem d he)

/-- **A joined list** counts what its parts count. -/
theorem occurrences_intercalate (hpat : pat ≠ []) {sep : List α} (hne : sep ≠ [])
    (hsep : ∀ c ∈ sep, c ∉ pat) (parts : List (List α)) :
    occurrences pat (sep.intercalate parts) = (parts.map (occurrences pat)).sum := by
  induction parts with
  | nil => exact occurrences_nil hpat
  | cons part parts ih =>
    cases parts with
    | nil => simp [List.intercalate]
    | cons next parts =>
      have hjoin : sep.intercalate (part :: next :: parts) =
          part ++ sep ++ sep.intercalate (next :: parts) := by
        simp [List.intercalate]
      rw [hjoin, occurrences_append_sep hpat hne hsep, ih]
      rfl

end TradingPlatform
