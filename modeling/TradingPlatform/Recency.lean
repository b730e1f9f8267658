import Mathlib

/-!
# The most recent, each once

A list that begins with what came last may name a thing more than once; what counts is where it is
named first (`TradingPlatform.firstOccurrences`). A bounded list of what is recent is kept by
putting what is new in front, leaving out what is there already, and cutting the rest off.

Such a list forgets nothing that it should know: what was cut off before would be cut off now
(`TradingPlatform.mostRecent_append_mostRecent`). So however it came about, it has the most recent
of everything there ever was, and a thing is on it if and only if fewer others came after it than
there is room for (`TradingPlatform.mem_mostRecent`). Nothing here is about any one program.
-/

namespace TradingPlatform

variable {α : Type*} [DecidableEq α] {l l' : List α} {a : α} {n : ℕ}

/-- The elements of a list, each where it occurs first. -/
def firstOccurrences (l : List α) : List α :=
  l.foldl (fun out a => if a ∈ out then out else out ++ [a]) []

theorem firstOccurrences_concat (l : List α) (a : α) :
    firstOccurrences (l ++ [a]) =
      if a ∈ firstOccurrences l then firstOccurrences l else firstOccurrences l ++ [a] := by
  rw [firstOccurrences, List.foldl_append]
  rfl

@[simp] theorem mem_firstOccurrences : a ∈ firstOccurrences l ↔ a ∈ l := by
  induction l using List.reverseRecOn with
  | nil => exact Iff.rfl
  | append_singleton l b ih =>
    rw [firstOccurrences_concat, List.mem_append, List.mem_singleton]
    split_ifs with hb
    · rw [ih]
      refine ⟨.inl, fun h => h.elim id ?_⟩
      rintro rfl
      exact ih.mp hb
    · rw [List.mem_append, List.mem_singleton, ih]

theorem nodup_firstOccurrences (l : List α) : (firstOccurrences l).Nodup := by
  induction l using List.reverseRecOn with
  | nil => exact List.nodup_nil
  | append_singleton l b ih =>
    rw [firstOccurrences_concat]
    split_ifs with hb
    · exact ih
    · rw [List.nodup_append]
      refine ⟨ih, List.nodup_singleton b, ?_⟩
      intro a ha b' hb' heq
      rw [List.mem_singleton.mp hb'] at heq
      exact hb (heq ▸ ha)

/-- What follows counts if it is new. -/
theorem firstOccurrences_append (l l' : List α) :
    firstOccurrences (l ++ l') = firstOccurrences l ++ (firstOccurrences l').filter (· ∉ l) := by
  induction l' using List.reverseRecOn with
  | nil =>
    rw [List.append_nil]
    exact (List.append_nil _).symm
  | append_singleton l' a ih =>
    rw [← List.append_assoc, firstOccurrences_concat, firstOccurrences_concat, ih]
    by_cases hl : a ∈ l
    · by_cases hl' : a ∈ l' <;> simp [hl, hl']
    · by_cases hl' : a ∈ l' <;> simp [hl, hl']

theorem firstOccurrences_of_nodup (h : l.Nodup) : firstOccurrences l = l := by
  induction l using List.reverseRecOn with
  | nil => rfl
  | append_singleton l b ih =>
    obtain ⟨hl, -, hdisj⟩ := List.nodup_append.mp h
    have hb : b ∉ l := fun hb => hdisj b hb b (List.mem_singleton_self b) rfl
    rw [firstOccurrences_concat, ih hl, if_neg hb]

theorem length_firstOccurrences (l : List α) : (firstOccurrences l).length = l.toFinset.card := by
  rw [← List.toFinset_card_of_nodup (nodup_firstOccurrences l)]
  congr 1
  ext a
  rw [List.mem_toFinset, List.mem_toFinset, mem_firstOccurrences]

/-! ### A bound -/

/-- The most recent of a list that begins with what came last. -/
def mostRecent (n : ℕ) (l : List α) : List α := (firstOccurrences l).take n

theorem mem_of_mem_mostRecent (h : a ∈ mostRecent n l) : a ∈ l :=
  mem_firstOccurrences.mp (List.mem_of_mem_take h)

theorem nodup_mostRecent (n : ℕ) (l : List α) : (mostRecent n l).Nodup :=
  (nodup_firstOccurrences l).take

omit [DecidableEq α] in
/-- Where few of the first elements are left out, enough of them are left. -/
theorem take_filter_of_few {p : α → Bool} {k : ℕ}
    (hk : ((l.take n).filter fun a => !p a).length ≤ k) :
    ((l.take n).filter p).take (n - k) = (l.filter p).take (n - k) := by
  rcases le_or_gt l.length n with hle | hlt
  · rw [List.take_of_length_le hle]
  · have hsplit : l.filter p = (l.take n).filter p ++ (l.drop n).filter p := by
      rw [← List.filter_append, List.take_append_drop]
    have hlen : n - k ≤ ((l.take n).filter p).length := by
      have hcount := List.length_eq_length_filter_add (l := l.take n) p
      rw [List.length_take_of_le hlt.le] at hcount
      omega
    rw [hsplit, List.take_append_of_le_length hlen]

/-- **What was cut off is not missed.** -/
theorem mostRecent_append_mostRecent (n : ℕ) (l l' : List α) :
    mostRecent n (l ++ mostRecent n l') = mostRecent n (l ++ l') := by
  -- as many as are new may fall out of what was there, and so many are new
  have hout : ((mostRecent n l').filter fun a => !decide (a ∉ l)).length ≤
      (firstOccurrences l).length := by
    refine (((nodup_mostRecent n l').filter _).subperm ?_).length_le
    intro a ha
    have hmem := (List.mem_filter.mp ha).2
    rw [Bool.not_eq_true', decide_eq_false_iff_not, not_not] at hmem
    exact mem_firstOccurrences.mpr hmem
  change (firstOccurrences (l ++ mostRecent n l')).take n = (firstOccurrences (l ++ l')).take n
  rw [firstOccurrences_append, firstOccurrences_of_nodup (nodup_mostRecent n l'),
    firstOccurrences_append, List.take_append, List.take_append]
  congr 1
  exact take_filter_of_few hout

/-- What is new is on the list as far as there is room. -/
theorem mostRecent_subset_append (n : ℕ) (l l' : List α) :
    mostRecent n l ⊆ mostRecent n (l ++ l') := by
  rw [mostRecent, mostRecent, firstOccurrences_append, List.take_append]
  exact List.subset_append_left _ _

/-- What is on the list is new, or was on it. -/
theorem mem_mostRecent_append (h : a ∈ mostRecent n (l ++ l')) :
    a ∈ mostRecent n l ∨ a ∈ mostRecent n l' := by
  rw [← mostRecent_append_mostRecent, mostRecent, firstOccurrences_append, List.take_append] at h
  refine (List.mem_append.mp h).imp_right fun h => ?_
  exact mem_firstOccurrences.mp (List.mem_of_mem_filter (List.mem_of_mem_take h))

/-- What stands behind the first occurrence of an element comes after it. -/
theorem exists_firstOccurrences_eq {newer : List α} (ha : a ∉ newer) (older : List α) :
    ∃ rest, firstOccurrences (newer ++ a :: older) = firstOccurrences newer ++ a :: rest := by
  rw [← List.singleton_append, firstOccurrences_append, firstOccurrences_append,
    firstOccurrences_of_nodup (List.nodup_singleton a), List.singleton_append,
    List.filter_cons_of_pos (by simpa using ha)]
  exact ⟨_, rfl⟩

/-- **What is recent**: fewer others than there is room for came after it. -/
theorem mem_mostRecent :
    a ∈ mostRecent n l ↔
      ∃ newer older, l = newer ++ a :: older ∧ a ∉ newer ∧ newer.toFinset.card < n := by
  constructor
  · intro h
    obtain ⟨newer, older, rfl, ha⟩ := List.eq_append_cons_of_mem (mem_of_mem_mostRecent h)
    refine ⟨newer, older, rfl, ha, ?_⟩
    obtain ⟨rest, hrest⟩ := exists_firstOccurrences_eq ha older
    rw [← length_firstOccurrences]
    by_contra hn
    rw [mostRecent, hrest, List.take_append_of_le_length (not_lt.mp hn)] at h
    exact ha (mem_firstOccurrences.mp (List.mem_of_mem_take h))
  · rintro ⟨newer, older, rfl, ha, hn⟩
    obtain ⟨rest, hrest⟩ := exists_firstOccurrences_eq ha older
    rw [← length_firstOccurrences] at hn
    obtain ⟨k, hk⟩ := Nat.exists_eq_add_of_lt hn
    have hroom : n - (firstOccurrences newer).length = k + 1 := by omega
    rw [mostRecent, hrest, List.take_append, hroom, List.take_succ_cons]
    exact List.mem_append_right _ List.mem_cons_self

end TradingPlatform
