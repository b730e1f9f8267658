import TradingPlatform.StableSort

/-!
# The newest rows of a table

A query that sorts rows by a key, newest first, and cuts off the list. Rows of one key may come in
any order, so what it should return is stated for some order
(`TradingPlatform.Newest`).

Where only some rows are wanted, and the list is cut off before they are picked out, there must be
room for them: the rows that are not wanted must not be too many between those that are
(`TradingPlatform.Room`). Then the wanted rows are found
(`TradingPlatform.take_filter_take`), and otherwise not, in the worst order
(`TradingPlatform.exists_length_lt`). Nothing here is about any one program.
-/

namespace TradingPlatform

variable {α κ : Type*} [LinearOrder κ] (key : α → κ)

/-- Newest first. -/
def NewestFirst (l : List α) : Prop := l.Pairwise fun a b => key b ≤ key a

/-- A list has the newest of some rows, newest first: so many of them, or all there are. -/
def Newest (n : ℕ) (rows l : List α) : Prop :=
  ∃ sorted : List α, sorted.Perm rows ∧ NewestFirst key sorted ∧ l = sorted.take n

variable {key}

theorem Newest.length_eq {n : ℕ} {rows l : List α} (h : Newest key n rows l) :
    l.length = min n rows.length := by
  obtain ⟨sorted, hperm, -, rfl⟩ := h
  rw [List.length_take, hperm.length_eq]

/-- All rows, if so many are asked for. -/
theorem Newest.perm {n : ℕ} {rows l : List α} (h : Newest key n rows l) (hn : rows.length ≤ n) :
    l.Perm rows ∧ NewestFirst key l := by
  obtain ⟨sorted, hperm, hsorted, rfl⟩ := h
  have hall : sorted.take n = sorted := List.take_of_length_le (hperm.length_eq.trans_le hn)
  rw [hall]
  exact ⟨hperm, hsorted⟩

/-- Two keys that order the rows alike. -/
theorem newest_congr_key {κ' : Type*} [LinearOrder κ'] {key' : α → κ'} {n : ℕ} {rows l : List α}
    (h : ∀ a ∈ rows, ∀ b ∈ rows, key a ≤ key b ↔ key' a ≤ key' b) :
    Newest key n rows l ↔ Newest key' n rows l := by
  refine exists_congr fun sorted => and_congr_right fun hperm => and_congr_left' ?_
  constructor
  · intro hsorted
    exact hsorted.imp_of_mem fun {a b} ha hb =>
      (h b (hperm.subset hb) a (hperm.subset ha)).mp
  · intro hsorted
    exact hsorted.imp_of_mem fun {a b} ha hb =>
      (h b (hperm.subset hb) a (hperm.subset ha)).mpr

/-- Where a list is sorted by two keys, what is later by the one is not earlier by the other. -/
theorem NewestFirst.le_of_lt {κ' : Type*} [LinearOrder κ'] {key' : α → κ'} {l : List α}
    (h : NewestFirst key l) (h' : NewestFirst key' l) {a b : α} (ha : a ∈ l) (hb : b ∈ l)
    (hlt : key a < key b) : key' a ≤ key' b := by
  induction l with
  | nil => exact absurd ha List.not_mem_nil
  | cons c l ih =>
    obtain ⟨hc, hl⟩ := List.pairwise_cons.mp h
    obtain ⟨hc', hl'⟩ := List.pairwise_cons.mp h'
    rcases List.mem_cons.mp ha with rfl | hal
    · rcases List.mem_cons.mp hb with rfl | hbl
      · exact le_rfl
      · exact absurd hlt (not_lt.mpr (hc b hbl))
    · rcases List.mem_cons.mp hb with rfl | hbl
      · exact hc' a hal
      · exact ih hl hl' hal hbl

/-- A sorted list is split at every key. -/
theorem NewestFirst.eq_append {l : List α} (h : NewestFirst key l) (k : κ) :
    l = l.filter (k < key ·) ++ l.filter (key · ≤ k) := by
  induction l with
  | nil => rfl
  | cons a l ih =>
    obtain ⟨ha, hl⟩ := List.pairwise_cons.mp h
    rcases lt_or_ge k (key a) with hlt | hge
    · rw [List.filter_cons_of_pos (by simpa using hlt),
        List.filter_cons_of_neg (by simpa using hlt), List.cons_append, ← ih hl]
    · have hnone : l.filter (k < key ·) = [] := by
        refine List.filter_eq_nil_iff.mpr fun b hb => ?_
        simpa using (ha b hb).trans hge
      have hall : l.filter (key · ≤ k) = l := by
        refine List.filter_eq_self.mpr fun b hb => ?_
        simpa using (ha b hb).trans hge
      rw [List.filter_cons_of_neg (by simpa using hge),
        List.filter_cons_of_pos (by simpa using hge), hnone, hall, List.nil_append]

/-- Sorting by the key. -/
theorem newestFirst_mergeSort (key : α → κ) (rows : List α) :
    NewestFirst key (rows.mergeSort fun a b => key b ≤ key a) := by
  have hsorted : (rows.mergeSort fun a b =>
      OrderDual.toDual (key a) ≤ OrderDual.toDual (key b)).Pairwise fun a b =>
        OrderDual.toDual (key a) ≤ OrderDual.toDual (key b) := pairwise_mergeSort_key rows
  exact hsorted

/-- **When a list that is sorted by one key has the newest by another**: when it has the right rows,
and the two keys do not disagree on them. -/
theorem forall_newest_mergeSort_iff {κ' : Type*} [LinearOrder κ'] {key' : α → κ'}
    {rows wanted : List α} (heq : ∀ a b, key a = key b → key' a = key' b) :
    (∀ (n : ℕ) (found : List α), found.Perm rows →
        Newest key' n wanted ((found.mergeSort fun a b => key b ≤ key a).take n)) ↔
      rows.Perm wanted ∧ ∀ a ∈ rows, ∀ b ∈ rows, key a < key b → key' a ≤ key' b := by
  constructor
  · intro h
    have hall := h (max rows.length wanted.length) rows (List.Perm.refl _)
    have hperm := List.mergeSort_perm rows fun a b => decide (key b ≤ key a)
    rw [List.take_of_length_le (hperm.length_eq.trans_le (le_max_left _ _))] at hall
    obtain ⟨hwanted, hnewest⟩ := hall.perm (le_max_right _ _)
    refine ⟨hperm.symm.trans hwanted, fun a ha b hb => ?_⟩
    exact (newestFirst_mergeSort key rows).le_of_lt hnewest (hperm.mem_iff.mpr ha)
      (hperm.mem_iff.mpr hb)
  · rintro ⟨hwanted, horder⟩ n found hfound
    have hperm := (List.mergeSort_perm found fun a b => decide (key b ≤ key a)).trans hfound
    refine ⟨_, hperm.trans hwanted, ?_, rfl⟩
    refine (newestFirst_mergeSort key found).imp_of_mem fun {a b} ha hb hle => ?_
    rcases hle.lt_or_eq with hlt | hkey
    · exact horder b (hperm.subset hb) a (hperm.subset ha) hlt
    · exact (heq b a hkey).le

/-- **When the newest wanted rows are found in what is not cut off**: when enough of them are
there. -/
theorem newest_take_filter_take_iff {wanted : α → Bool} {l rows : List α} (hl : NewestFirst key l)
    (hperm : (l.filter wanted).Perm rows) (n m : ℕ) :
    Newest key n rows (((l.take m).filter wanted).take n) ↔
      min n rows.length ≤ (l.take m).countP wanted := by
  rw [List.countP_eq_length_filter]
  constructor
  · intro h
    have hlen := h.length_eq
    rw [List.length_take] at hlen
    omega
  · intro h
    have hsplit : l.filter wanted = (l.take m).filter wanted ++ (l.drop m).filter wanted := by
      rw [← List.filter_append, List.take_append_drop]
    have hlen := hperm.length_eq
    rw [hsplit, List.length_append] at hlen
    refine ⟨l.filter wanted, hperm, hl.filter wanted, ?_⟩
    rcases Nat.lt_or_ge ((l.take m).filter wanted).length n with hlt | hge
    swap
    · rw [hsplit, List.take_append_of_le_length hge]
    · -- all the wanted rows are there
      have hrest : (l.drop m).filter wanted = [] := List.eq_nil_of_length_eq_zero (by omega)
      rw [hsplit, hrest, List.append_nil]

variable (key)

/-- **There is room for the wanted rows**: the others that are not older than one of them are at
most so many for each wanted row that is newer, and once more. -/
def Room (wanted : α → Bool) (factor : ℕ) (rows : List α) : Prop :=
  ∀ x ∈ rows, wanted x = true →
    rows.countP (fun y => !wanted y && decide (key x ≤ key y)) ≤
      factor * (rows.countP (fun y => wanted y && decide (key x < key y)) + 1)

variable {key}

theorem countP_add_countP_not (p q : α → Bool) (l : List α) :
    l.countP (fun y => p y && q y) + l.countP (fun y => p y && !q y) = l.countP p := by
  induction l with
  | nil => rfl
  | cons a l ih =>
    simp only [List.countP_cons]
    cases p a <;> cases q a <;> simp <;> omega

/-- **With room the wanted rows are found** before the list is cut off. -/
theorem take_filter_take {wanted : α → Bool} {factor : ℕ} {rows l : List α}
    (hroom : Room key wanted factor rows) (hperm : l.Perm rows) (hl : NewestFirst key l) (n : ℕ) :
    ((l.take ((factor + 1) * n)).filter wanted).take n = (l.filter wanted).take n := by
  obtain ⟨front, back, rfl, hfront, hback⟩ : ∃ front back, l = front ++ back ∧
      front = l.take ((factor + 1) * n) ∧ (back ≠ [] → front.length = (factor + 1) * n) := by
    refine ⟨_, _, (List.take_append_drop ((factor + 1) * n) l).symm, rfl, fun hback => ?_⟩
    have hlt := List.length_pos_of_ne_nil hback
    rw [List.length_drop] at hlt
    rw [List.length_take]
    omega
  rw [← hfront, List.filter_append]
  rcases Nat.lt_or_ge (front.filter wanted).length n with hfew | hmany
  swap
  · rw [List.take_append_of_le_length hmany]
  -- what is cut off has no wanted row
  rcases hrest : back.filter wanted with _ | ⟨x, rest⟩
  · rw [List.append_nil]
  exfalso
  obtain ⟨-, hbackSorted, hcross⟩ := List.pairwise_append.mp hl
  have hxmem : x ∈ back.filter wanted := hrest ▸ List.mem_cons_self
  obtain ⟨hxback, hxwanted⟩ := List.mem_filter.mp hxmem
  have hlen := hback (List.ne_nil_of_mem hxback)
  have hnewer : back.countP (fun y => wanted y && decide (key x < key y)) = 0 := by
    refine List.countP_eq_zero.mpr fun y hy hc => ?_
    obtain ⟨hywanted, hlt⟩ := Bool.and_eq_true_iff.mp hc
    have hymem : y ∈ x :: rest := hrest ▸ List.mem_filter.mpr ⟨hy, hywanted⟩
    have hsorted : (x :: rest).Pairwise fun a b => key b ≤ key a := hrest ▸ hbackSorted.filter _
    rcases List.mem_cons.mp hymem with rfl | hyrest
    · exact lt_irrefl _ (of_decide_eq_true hlt)
    · exact not_lt.mpr ((List.pairwise_cons.mp hsorted).1 y hyrest) (of_decide_eq_true hlt)
  have hothers : front.length - (front.filter wanted).length ≤
      rows.countP fun y => !wanted y && decide (key x ≤ key y) := by
    have hall : front.countP (fun y => !wanted y && decide (key x ≤ key y)) =
        front.countP fun y => !wanted y := by
      refine List.countP_congr fun y hy => ?_
      have hle : key x ≤ key y := hcross y hy x hxback
      simp [hle]
    have hsum := List.length_eq_countP_add_countP wanted (l := front)
    have hcount : (front.filter wanted).length = front.countP wanted :=
      List.countP_eq_length_filter.symm
    have hnot : front.countP (fun y => decide ¬wanted y = true) = front.countP fun y => !wanted y :=
      List.countP_congr fun y _ => by simp
    have hle : front.countP (fun y => !wanted y && decide (key x ≤ key y)) ≤
        rows.countP fun y => !wanted y && decide (key x ≤ key y) := by
      rw [← hperm.countP_eq, List.countP_append]
      exact Nat.le_add_right _ _
    omega
  have hown : rows.countP (fun y => wanted y && decide (key x < key y)) ≤
      (front.filter wanted).length := by
    rw [← hperm.countP_eq, List.countP_append, hnewer, Nat.add_zero, ← List.countP_eq_length_filter]
    exact List.countP_mono_left fun y _ hy => (Bool.and_eq_true_iff.mp hy).1
  have hbound := hroom x (hperm.subset (List.mem_append_right front hxback)) hxwanted
  have hmul : factor * (rows.countP (fun y => wanted y && decide (key x < key y)) + 1) ≤
      factor * n := Nat.mul_le_mul_left factor (by omega)
  rw [Nat.add_mul, Nat.one_mul] at hlen
  omega

/-- What comes before a wanted row in the worst order: what is newer, and what is as new and not
wanted. -/
def comesBefore (key : α → κ) (wanted : α → Bool) (x y : α) : Bool :=
  if wanted y then decide (key x < key y) else decide (key x ≤ key y)

theorem comesBefore_and (wanted : α → Bool) (x y : α) :
    (comesBefore key wanted x y && wanted y) = (wanted y && decide (key x < key y)) := by
  rw [comesBefore]
  cases wanted y <;> simp

theorem comesBefore_and_not (wanted : α → Bool) (x y : α) :
    (comesBefore key wanted x y && !wanted y) = (!wanted y && decide (key x ≤ key y)) := by
  rw [comesBefore]
  cases wanted y <;> simp

theorem countP_comesBefore (wanted : α → Bool) (x : α) (rows : List α) :
    rows.countP (comesBefore key wanted x) =
      rows.countP (fun y => wanted y && decide (key x < key y)) +
        rows.countP fun y => !wanted y && decide (key x ≤ key y) := by
  have hsum := countP_add_countP_not (comesBefore key wanted x) wanted rows
  simp only [comesBefore_and, comesBefore_and_not] at hsum
  exact hsum.symm

/-- **The worst order of the rows**: newest first, and of the rows of one key those that are not
wanted first. -/
theorem exists_worst_order (key : α → κ) (wanted : α → Bool) (rows : List α) :
    ∃ l : List α, l.Perm rows ∧ NewestFirst key l ∧ ∀ x, wanted x = true →
      l.filter (comesBefore key wanted x) <+: l := by
  let rank : α → κᵒᵈ ×ₗ Bool := fun y => toLex (OrderDual.toDual (key y), wanted y)
  have hsorted : (rows.mergeSort fun a b => rank a ≤ rank b).Pairwise
      fun a b => rank a ≤ rank b := pairwise_mergeSort_key rows
  have hperm := List.mergeSort_perm rows fun a b => rank a ≤ rank b
  refine ⟨rows.mergeSort fun a b => rank a ≤ rank b, hperm, hsorted.imp fun hab => ?_,
    fun x hx => ?_⟩
  · rcases Prod.Lex.toLex_le_toLex.mp hab with hlt | ⟨heq, -⟩
    · exact (OrderDual.toDual_lt_toDual.mp hlt).le
    · exact (OrderDual.toDual_inj.mp heq).ge
  · have hranked : NewestFirst (OrderDual.toDual ∘ rank)
        (rows.mergeSort fun a b => rank a ≤ rank b) := hsorted
    have hbefore : comesBefore key wanted x = fun y => decide (rank y < rank x) := by
      funext y
      rw [comesBefore, Bool.eq_iff_iff, decide_eq_true_iff, Prod.Lex.toLex_lt_toLex, hx]
      cases wanted y
      · simpa [eq_comm] using le_iff_lt_or_eq
      · simp
    have hsplit := hranked.eq_append (OrderDual.toDual (rank x))
    generalize rows.mergeSort (fun a b => decide (rank a ≤ rank b)) = l at hsplit ⊢
    rw [hbefore]
    exact ⟨_, hsplit.symm⟩

/-- **Without room a wanted row is missed**, in some order of the rows and for some cut. -/
theorem exists_length_lt {wanted : α → Bool} {factor : ℕ} {rows : List α}
    (hroom : ¬Room key wanted factor rows) :
    ∃ l : List α, l.Perm rows ∧ NewestFirst key l ∧ ∃ n ≤ rows.countP wanted,
      ((l.take ((factor + 1) * n)).filter wanted).length < n := by
  simp only [Room, not_forall, not_le] at hroom
  obtain ⟨x, hx, hxwanted, hmany⟩ := hroom
  obtain ⟨l, hperm, hsorted, hworst⟩ := exists_worst_order key wanted rows
  obtain ⟨back, hback⟩ := hworst x hxwanted
  refine ⟨l, hperm, hsorted, rows.countP (fun y => wanted y && decide (key x < key y)) + 1, ?_, ?_⟩
  · have hsum := countP_add_countP_not wanted (fun y => decide (key x < key y)) rows
    have hpos : 0 < rows.countP fun y => wanted y && !decide (key x < key y) :=
      List.countP_pos_iff.mpr ⟨x, hx, by simp [hxwanted]⟩
    omega
  · -- the rows in front of the wanted one fill what is not cut off
    have hlen : (l.filter (comesBefore key wanted x)).length =
        rows.countP (comesBefore key wanted x) := by
      rw [← List.countP_eq_length_filter, hperm.countP_eq]
    have hown : ((l.filter (comesBefore key wanted x)).filter wanted).length =
        rows.countP fun y => wanted y && decide (key x < key y) := by
      rw [← List.countP_eq_length_filter, List.countP_filter, hperm.countP_eq]
      refine List.countP_congr fun y _ => ?_
      rw [Bool.and_comm, comesBefore_and]
    have hfront : (factor + 1) * (rows.countP (fun y => wanted y && decide (key x < key y)) + 1) ≤
        (l.filter (comesBefore key wanted x)).length := by
      rw [hlen, countP_comesBefore, Nat.add_mul, Nat.one_mul]
      omega
    have hsub := ((List.take_sublist ((factor + 1) *
      (rows.countP (fun y => wanted y && decide (key x < key y)) + 1))
      (l.filter (comesBefore key wanted x))).filter wanted).length_le
    rw [← hback, List.take_append_of_le_length hfront]
    omega

/-- **When some wanted row is found in what is not cut off**, in every order of the rows: when in
front of some wanted row there is room for what is not wanted. -/
theorem forall_exists_mem_take_iff {wanted : α → Bool} {rows : List α} {n : ℕ} :
    (∀ l : List α, l.Perm rows → NewestFirst key l → ∃ x ∈ l.take n, wanted x = true) ↔
      ∃ x ∈ rows, wanted x = true ∧
        rows.countP (fun y => !wanted y && decide (key x ≤ key y)) < n := by
  constructor
  · intro h
    obtain ⟨l, hperm, hsorted, hworst⟩ := exists_worst_order key wanted rows
    obtain ⟨x, hx, hxwanted⟩ := h l hperm hsorted
    refine ⟨x, hperm.subset (List.mem_of_mem_take hx), hxwanted, ?_⟩
    by_contra hmany
    obtain ⟨back, hback⟩ := hworst x hxwanted
    have hfront : n ≤ (l.filter (comesBefore key wanted x)).length := by
      rw [← List.countP_eq_length_filter, hperm.countP_eq, countP_comesBefore]
      omega
    rw [← hback, List.take_append_of_le_length hfront] at hx
    have hself := (List.mem_filter.mp (List.mem_of_mem_take hx)).2
    rw [comesBefore, if_pos hxwanted] at hself
    exact lt_irrefl _ (of_decide_eq_true hself)
  · rintro ⟨x, hx, hxwanted, hroom⟩ l hperm hsorted
    by_contra hnone
    have hout : x ∈ l.drop n := by
      have hmem : x ∈ l.take n ++ l.drop n :=
        (List.take_append_drop n l).symm ▸ hperm.symm.subset hx
      exact (List.mem_append.mp hmem).resolve_left fun hin => hnone ⟨x, hin, hxwanted⟩
    -- all that is not cut off is not wanted and in front of it
    rw [NewestFirst, ← List.take_append_drop n l] at hsorted
    obtain ⟨-, -, hcross⟩ := List.pairwise_append.mp hsorted
    have hall : (l.take n).countP (fun y => !wanted y && decide (key x ≤ key y)) =
        (l.take n).length := by
      refine List.countP_eq_length.mpr fun y hy => ?_
      have hle : key x ≤ key y := hcross y hy x hout
      have hnot : wanted y = false := Bool.eq_false_iff.mpr fun hc => hnone ⟨y, hy, hc⟩
      simp [hle, hnot]
    have hlen := List.length_pos_of_mem hout
    have hsub := (List.take_sublist n l).countP_le
      (p := fun y => !wanted y && decide (key x ≤ key y))
    rw [hall, hperm.countP_eq, List.length_take] at hsub
    rw [List.length_drop] at hlen
    omega

/-! ### The first rows of a sorted list -/

/-- A row with `n` others strictly before it is not among the first `n`. -/
theorem notMem_take_mergeSort {rows ahead : List α} {a : α} {n : ℕ} (hnd : ahead.Nodup)
    (hahead : ∀ b ∈ ahead, b ∈ rows ∧ key b < key a) (hlen : n ≤ ahead.length) :
    a ∉ (rows.mergeSort fun x y => key x ≤ key y).take n := by
  intro hmem
  obtain ⟨front, back, htake⟩ := List.append_of_mem hmem
  have hl := List.take_append_drop n (rows.mergeSort fun x y => key x ≤ key y)
  rw [htake, List.append_assoc, List.cons_append] at hl
  have hsorted := @pairwise_mergeSort_key _ _ _ key rows
  rw [← hl] at hsorted
  obtain ⟨hlater, -⟩ := List.pairwise_cons.mp (List.pairwise_append.mp hsorted).2.1
  -- what is strictly before it is in front of it
  have hfront : ∀ b ∈ ahead, b ∈ front := by
    intro b hb
    obtain ⟨hrow, hlt⟩ := hahead b hb
    have hb' : b ∈ rows.mergeSort fun x y => key x ≤ key y := List.mem_mergeSort.mpr hrow
    rw [← hl] at hb'
    rcases List.mem_append.mp hb' with hb' | hb'
    · exact hb'
    · rcases List.mem_cons.mp hb' with rfl | hb'
      · exact absurd hlt (lt_irrefl _)
      · exact absurd hlt (not_lt.mpr (hlater b hb'))
  have hle := (hnd.subperm hfront).length_le
  have hshort := List.length_take_le n (rows.mergeSort fun x y => key x ≤ key y)
  rw [htake, List.length_append, List.length_cons] at hshort
  omega

end TradingPlatform
