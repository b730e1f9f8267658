import Mathlib

/-!
# Insertion-ordered dictionaries

A finite map that remembers the order in which its keys first appeared: the
dictionary of the scripting languages. Nothing here is about any one program.

`TradingPlatform.Dict` keeps its entries in a list and carries the proof that no
key occurs twice, so a lookup has one possible answer and a sum over the entries
counts every key once. Two updates cover what programs do to such a map:
`TradingPlatform.Dict.set` assigns a key – in place when the key is present, at
the end when it is new – and `TradingPlatform.Dict.modify` rewrites the value of a
present key and leaves everything else alone.

The lemmas fall into three groups: what a lookup sees after an update, which keys
an update adds, and how a sum over the entries changes. The last group is what an
accounting invariant needs: assigning a new key adds one term
(`TradingPlatform.Dict.sum_set_of_notMem`), and rewriting a present one exchanges a
term (`TradingPlatform.Dict.sum_modify`).
-/

namespace TradingPlatform

/-- An insertion-ordered dictionary: a list of entries in which no key occurs
twice. -/
structure Dict (κ ν : Type*) where
  /-- The entries, in the order in which their keys were first assigned. -/
  entries : List (κ × ν)
  /-- No key occurs twice. -/
  nodup : (entries.map Prod.fst).Nodup

namespace Dict

variable {κ ν : Type*}

/-- The dictionary with no entry. -/
def empty : Dict κ ν := ⟨[], List.nodup_nil⟩

/-- The keys, oldest first. -/
def keys (d : Dict κ ν) : List κ := d.entries.map Prod.fst

/-- The values, in the order of their keys. -/
def values (d : Dict κ ν) : List ν := d.entries.map Prod.snd

theorem nodup_keys (d : Dict κ ν) : d.keys.Nodup := d.nodup

variable [DecidableEq κ]

/-- The value of a key, if it has one. -/
def get? (d : Dict κ ν) (k : κ) : Option ν := d.entries.lookup k

/-- Assign a key: in place if it is present, at the end if it is new. -/
def set (d : Dict κ ν) (k : κ) (v : ν) : Dict κ ν where
  entries := if k ∈ d.keys then d.entries.map (fun e => if e.1 = k then (k, v) else e)
    else d.entries ++ [(k, v)]
  nodup := by
    split_ifs with h
    · have hfst : (Prod.fst ∘ fun e : κ × ν => if e.1 = k then (k, v) else e) = Prod.fst := by
        funext e
        by_cases he : e.1 = k <;> simp [he]
      rw [List.map_map, hfst]
      exact d.nodup
    · rw [List.map_append]
      refine List.nodup_append.mpr ⟨d.nodup, List.nodup_singleton _, ?_⟩
      rintro a ha b hb rfl
      have hak : a = k := by simpa using hb
      exact h (hak ▸ ha)

/-- Rewrite the value of a key, if it is present. -/
def modify (d : Dict κ ν) (k : κ) (f : ν → ν) : Dict κ ν where
  entries := d.entries.map fun e => if e.1 = k then (e.1, f e.2) else e
  nodup := by
    have hfst : (Prod.fst ∘ fun e : κ × ν => if e.1 = k then (e.1, f e.2) else e) = Prod.fst := by
      funext e
      by_cases he : e.1 = k <;> simp [he]
    rw [List.map_map, hfst]
    exact d.nodup

/-- Remove a key, if it is present. -/
def erase (d : Dict κ ν) (k : κ) : Dict κ ν where
  entries := d.entries.filter fun e => e.1 ≠ k
  nodup := d.nodup.sublist (List.filter_sublist.map _)

/-- Keep the entries that pass a test. -/
def filter (d : Dict κ ν) (p : κ → ν → Bool) : Dict κ ν where
  entries := d.entries.filter fun e => p e.1 e.2
  nodup := d.nodup.sublist (List.filter_sublist.map _)

/-- Apply a function to the values. -/
def mapValues {μ : Type*} (d : Dict κ ν) (f : ν → μ) : Dict κ μ where
  entries := d.entries.map fun e => (e.1, f e.2)
  nodup := by
    rw [List.map_map]
    exact d.nodup

theorem entries_set_of_mem (d : Dict κ ν) {k : κ} (h : k ∈ d.keys) (v : ν) :
    (d.set k v).entries = d.entries.map fun e => if e.1 = k then (k, v) else e :=
  if_pos h

theorem entries_set_of_notMem (d : Dict κ ν) {k : κ} (h : k ∉ d.keys) (v : ν) :
    (d.set k v).entries = d.entries ++ [(k, v)] :=
  if_neg h

theorem entries_modify (d : Dict κ ν) (k : κ) (f : ν → ν) :
    (d.modify k f).entries = d.entries.map fun e => if e.1 = k then (e.1, f e.2) else e :=
  rfl

/-! ### Lookups -/

@[simp] theorem get?_empty (k : κ) : (empty : Dict κ ν).get? k = none := rfl

theorem get?_eq_some_iff {d : Dict κ ν} {k : κ} {v : ν} :
    d.get? k = some v ↔ (k, v) ∈ d.entries := by
  obtain ⟨es, hnd⟩ := d
  change es.lookup k = some v ↔ (k, v) ∈ es
  induction es with
  | nil => exact iff_of_false (Option.some_ne_none v).symm List.not_mem_nil
  | cons e es ih =>
    obtain ⟨k', v'⟩ := e
    have hnd' : k' ∉ es.map Prod.fst ∧ (es.map Prod.fst).Nodup := List.nodup_cons.mp hnd
    rw [List.lookup_cons, List.mem_cons, Prod.mk.injEq]
    by_cases hk : k = k'
    · subst hk
      have hno : (k, v) ∉ es := fun hm => hnd'.1 (List.mem_map_of_mem (f := Prod.fst) hm)
      rw [show (k == k) = true from beq_self_eq_true k]
      exact ⟨fun h => Or.inl ⟨rfl, (Option.some.inj h).symm⟩,
        fun h => congrArg some (h.resolve_right hno).2.symm⟩
    · rw [show (k == k') = false from beq_eq_false_iff_ne.mpr hk]
      exact (ih hnd'.2).trans ⟨Or.inr, fun h => h.resolve_left fun he => hk he.1⟩

theorem get?_eq_none_iff {d : Dict κ ν} {k : κ} : d.get? k = none ↔ k ∉ d.keys := by
  constructor
  · intro h hk
    obtain ⟨⟨k', v⟩, hm, rfl⟩ := List.mem_map.mp hk
    rw [get?_eq_some_iff.mpr hm] at h
    exact Option.some_ne_none _ h
  · intro h
    rcases hv : d.get? k with _ | v
    · rfl
    · exact absurd (List.mem_map_of_mem (f := Prod.fst) (get?_eq_some_iff.mp hv)) h

theorem mem_keys_iff {d : Dict κ ν} {k : κ} : k ∈ d.keys ↔ ∃ v, d.get? k = some v := by
  rw [← not_iff_not, ← get?_eq_none_iff, Option.eq_none_iff_forall_ne_some]
  push Not
  rfl

theorem mem_keys_of_get? {d : Dict κ ν} {k : κ} {v : ν} (h : d.get? k = some v) : k ∈ d.keys :=
  mem_keys_iff.mpr ⟨v, h⟩

theorem mem_values_of_get? {d : Dict κ ν} {k : κ} {v : ν} (h : d.get? k = some v) :
    v ∈ d.values :=
  List.mem_map_of_mem (f := Prod.snd) (get?_eq_some_iff.mp h)

theorem mem_values_iff {d : Dict κ ν} {v : ν} : v ∈ d.values ↔ ∃ k, d.get? k = some v := by
  constructor
  · intro h
    obtain ⟨⟨k, v'⟩, hm, rfl⟩ := List.mem_map.mp h
    exact ⟨k, get?_eq_some_iff.mpr hm⟩
  · rintro ⟨k, hk⟩
    exact mem_values_of_get? hk

@[simp] theorem get?_set (d : Dict κ ν) (k k' : κ) (v : ν) :
    (d.set k v).get? k' = if k' = k then some v else d.get? k' := by
  refine Option.ext fun w => ?_
  rw [get?_eq_some_iff]
  by_cases hk : k ∈ d.keys
  · rw [entries_set_of_mem d hk]
    by_cases hkk : k' = k
    · subst hkk
      rw [if_pos rfl]
      obtain ⟨⟨k₀, v₀⟩, hm, rfl⟩ := List.mem_map.mp hk
      constructor
      · intro h
        obtain ⟨⟨k₁, v₁⟩, -, he⟩ := List.mem_map.mp h
        by_cases h₁ : k₁ = k₀
        · simp only [h₁, if_true, Prod.mk.injEq, true_and] at he
          rw [he]
        · rw [if_neg h₁] at he
          exact absurd (congrArg Prod.fst he) h₁
      · intro h
        exact List.mem_map.mpr ⟨(k₀, v₀), hm, by simpa using h⟩
    · rw [if_neg hkk, get?_eq_some_iff]
      constructor
      · intro h
        obtain ⟨⟨k₁, v₁⟩, hm, he⟩ := List.mem_map.mp h
        by_cases h₁ : k₁ = k
        · simp only [h₁, if_true, Prod.mk.injEq] at he
          exact absurd he.1.symm hkk
        · simp only [h₁, if_false] at he
          exact he ▸ hm
      · intro h
        exact List.mem_map.mpr ⟨(k', w), h, by simp [hkk]⟩
  · rw [entries_set_of_notMem d hk, List.mem_append, List.mem_singleton, Prod.mk.injEq]
    by_cases hkk : k' = k
    · subst hkk
      have hno : (k', w) ∉ d.entries := fun hm => hk (List.mem_map_of_mem (f := Prod.fst) hm)
      simp [hno, eq_comm]
    · simp [hkk, get?_eq_some_iff]

theorem get?_set_self (d : Dict κ ν) (k : κ) (v : ν) : (d.set k v).get? k = some v := by
  simp

theorem get?_set_of_ne (d : Dict κ ν) {k k' : κ} (h : k' ≠ k) (v : ν) :
    (d.set k v).get? k' = d.get? k' := by
  simp [h]

@[simp] theorem get?_mapValues {μ : Type*} (d : Dict κ ν) (f : ν → μ) (k : κ) :
    (d.mapValues f).get? k = (d.get? k).map f := by
  refine Option.ext fun w => ?_
  rw [get?_eq_some_iff, Option.map_eq_some_iff]
  simp [mapValues, get?_eq_some_iff]

@[simp] theorem get?_modify (d : Dict κ ν) (k k' : κ) (f : ν → ν) :
    (d.modify k f).get? k' = if k' = k then (d.get? k').map f else d.get? k' := by
  refine Option.ext fun w => ?_
  rw [get?_eq_some_iff, entries_modify]
  by_cases hkk : k' = k
  · subst hkk
    rw [if_pos rfl, Option.map_eq_some_iff]
    constructor
    · intro h
      obtain ⟨⟨k₁, v₁⟩, hm, he⟩ := List.mem_map.mp h
      by_cases h₁ : k₁ = k'
      · subst h₁
        simp only [if_true, Prod.mk.injEq, true_and] at he
        exact ⟨v₁, get?_eq_some_iff.mpr hm, he⟩
      · rw [if_neg h₁] at he
        exact absurd (congrArg Prod.fst he) h₁
    · rintro ⟨v, hv, rfl⟩
      exact List.mem_map.mpr ⟨(k', v), get?_eq_some_iff.mp hv, by simp⟩
  · rw [if_neg hkk, get?_eq_some_iff]
    constructor
    · intro h
      obtain ⟨⟨k₁, v₁⟩, hm, he⟩ := List.mem_map.mp h
      by_cases h₁ : k₁ = k
      · simp only [h₁, if_true, Prod.mk.injEq] at he
        exact absurd he.1.symm hkk
      · simp only [h₁, if_false] at he
        exact he ▸ hm
    · intro h
      exact List.mem_map.mpr ⟨(k', w), h, by simp [hkk]⟩

@[simp] theorem get?_erase (d : Dict κ ν) (k k' : κ) :
    (d.erase k).get? k' = if k' = k then none else d.get? k' := by
  refine Option.ext fun w => ?_
  rw [get?_eq_some_iff, erase, List.mem_filter]
  by_cases hkk : k' = k <;> simp [hkk, get?_eq_some_iff]

@[simp] theorem get?_filter (d : Dict κ ν) (p : κ → ν → Bool) (k : κ) :
    (d.filter p).get? k = (d.get? k).filter (p k) := by
  refine Option.ext fun w => ?_
  rw [get?_eq_some_iff, filter, List.mem_filter, Option.filter_eq_some_iff, get?_eq_some_iff]

/-! ### Keys -/

@[simp] theorem keys_modify (d : Dict κ ν) (k : κ) (f : ν → ν) : (d.modify k f).keys = d.keys := by
  rw [keys, entries_modify, keys, List.map_map]
  refine List.map_congr_left fun e _ => ?_
  by_cases he : e.1 = k <;> simp [he]

theorem keys_set_of_mem (d : Dict κ ν) {k : κ} (h : k ∈ d.keys) (v : ν) :
    (d.set k v).keys = d.keys := by
  rw [keys, entries_set_of_mem d h, keys, List.map_map]
  refine List.map_congr_left fun e _ => ?_
  by_cases he : e.1 = k <;> simp [he]

theorem keys_set_of_notMem (d : Dict κ ν) {k : κ} (h : k ∉ d.keys) (v : ν) :
    (d.set k v).keys = d.keys ++ [k] := by
  rw [keys, entries_set_of_notMem d h, List.map_append]
  rfl

theorem mem_keys_set {d : Dict κ ν} {k k' : κ} {v : ν} :
    k' ∈ (d.set k v).keys ↔ k' = k ∨ k' ∈ d.keys := by
  by_cases hk : k ∈ d.keys
  · rw [keys_set_of_mem d hk]
    exact ⟨Or.inr, fun h => h.elim (fun he => he ▸ hk) id⟩
  · rw [keys_set_of_notMem d hk]
    simp [or_comm]

/-- Two dictionaries with the same keys in the same order and the same values are one. -/
theorem ext_get? {d d' : Dict κ ν} (hkeys : d.keys = d'.keys)
    (hget : ∀ k, d.get? k = d'.get? k) : d = d' := by
  obtain ⟨es, hnd⟩ := d
  obtain ⟨es', hnd'⟩ := d'
  suffices h : es = es' by subst h; rfl
  have hlen : es.length = es'.length := by simpa [keys] using congrArg List.length hkeys
  refine List.ext_getElem hlen fun i hi hi' => ?_
  have hfst : es[i].1 = es'[i].1 := by
    have hi₁ : (es.map Prod.fst)[i]? = (es'.map Prod.fst)[i]? := congrArg (·[i]?) hkeys
    simpa [hi, hi'] using hi₁
  have h₁ : get? ⟨es, hnd⟩ es[i].1 = some es[i].2 :=
    get?_eq_some_iff.mpr (List.getElem_mem hi)
  have h₂ : get? ⟨es', hnd'⟩ es'[i].1 = some es'[i].2 :=
    get?_eq_some_iff.mpr (List.getElem_mem hi')
  rw [hget, hfst, h₂] at h₁
  exact Prod.ext hfst (Option.some.inj h₁).symm

/-- The values are what the keys look up. -/
theorem values_eq_filterMap (d : Dict κ ν) : d.values = d.keys.filterMap d.get? := by
  have hentries : ∀ es : List (κ × ν), (∀ e ∈ es, d.get? e.1 = some e.2) →
      es.map Prod.snd = (es.map Prod.fst).filterMap d.get? := by
    intro es hes
    induction es with
    | nil => rfl
    | cons e es ih =>
      rw [List.map_cons, List.map_cons, List.filterMap_cons, hes e List.mem_cons_self,
        ih fun e' he' => hes e' (List.mem_cons_of_mem _ he')]
  exact hentries d.entries fun e he => get?_eq_some_iff.mpr he

/-- A test that neither the old value of a key nor its new one passes sees no assignment. -/
theorem filter_values_set {d : Dict κ ν} {k : κ} {old v : ν} (h : d.get? k = some old)
    {p : ν → Bool} (hold : p old = false) (hnew : p v = false) :
    (d.set k v).values.filter p = d.values.filter p := by
  have hself : ∀ e ∈ d.entries, e.1 = k → e.2 = old := by
    rintro e he rfl
    rw [get?_eq_some_iff.mpr he] at h
    exact Option.some.inj h
  rw [values, values, entries_set_of_mem d (mem_keys_of_get? h), List.map_map, List.filter_map,
    List.filter_map]
  have hfilter : d.entries.filter (p ∘ Prod.snd ∘ fun e => if e.1 = k then (k, v) else e) =
      d.entries.filter (p ∘ Prod.snd) := by
    refine List.filter_congr fun e he => ?_
    by_cases hk : e.1 = k
    · simp [hk, hself e he hk, hold, hnew]
    · simp [hk]
  rw [hfilter]
  refine List.map_congr_left fun e he => ?_
  obtain ⟨hmem, hpass⟩ := List.mem_filter.mp he
  have hk : e.1 ≠ k := by
    intro hk
    rw [Function.comp_apply, hself e hmem hk, hold] at hpass
    exact Bool.false_ne_true hpass
  simp [hk]

/-- Dictionaries with the same lookups have the same entries, in some order. -/
theorem perm_of_get? {d d' : Dict κ ν} (h : ∀ k, d.get? k = d'.get? k) :
    d.entries.Perm d'.entries := by
  refine (List.perm_ext_iff_of_nodup (List.Nodup.of_map _ d.nodup) (List.Nodup.of_map _
    d'.nodup)).mpr ?_
  rintro ⟨k, v⟩
  rw [← get?_eq_some_iff, ← get?_eq_some_iff, h]

/-- Assigning a key the value it has changes nothing. -/
theorem set_eq_self {d : Dict κ ν} {k : κ} {v : ν} (h : d.get? k = some v) : d.set k v = d := by
  refine ext_get? (keys_set_of_mem d (mem_keys_of_get? h) v) fun k' => ?_
  rw [get?_set]
  split_ifs with hk
  · rw [hk, h]
  · rfl

/-! ### Sums over the entries -/

variable {M : Type*}

/-- Assigning a new key adds its term. -/
theorem sum_set_of_notMem [AddMonoid M] (d : Dict κ ν) {k : κ} (h : k ∉ d.keys) (v : ν)
    (g : κ × ν → M) :
    ((d.set k v).entries.map g).sum = (d.entries.map g).sum + g (k, v) := by
  rw [entries_set_of_notMem d h, List.map_append, List.sum_append]
  simp

/-- Rewriting the value of a present key exchanges its term. -/
theorem sum_modify [AddCommGroup M] (d : Dict κ ν) {k : κ} {v : ν} (h : d.get? k = some v)
    (f : ν → ν) (g : κ × ν → M) :
    ((d.modify k f).entries.map g).sum = (d.entries.map g).sum + (g (k, f v) - g (k, v)) := by
  obtain ⟨es, hnd⟩ := d
  have hm : (k, v) ∈ es := get?_eq_some_iff.mp h
  change ((es.map fun e => if e.1 = k then (e.1, f e.2) else e).map g).sum = _
  clear h
  induction es with
  | nil => simp at hm
  | cons e es ih =>
    obtain ⟨k', v'⟩ := e
    have hnd' : k' ∉ es.map Prod.fst ∧ (es.map Prod.fst).Nodup := by simpa using hnd
    rcases List.mem_cons.mp hm with he | hm'
    · obtain ⟨rfl, rfl⟩ := Prod.mk.inj he
      have hrest : es.map (fun e => if e.1 = k then (e.1, f e.2) else e) = es := by
        refine (List.map_congr_left fun e he => ?_).trans (List.map_id' es)
        rw [if_neg]
        exact fun hc => hnd'.1 (hc ▸ List.mem_map_of_mem (f := Prod.fst) he)
      simp only [List.map_cons, if_true, List.sum_cons, hrest]
      abel
    · have hk : k' ≠ k := fun hc =>
        hnd'.1 (hc ▸ List.mem_map_of_mem (f := Prod.fst) hm')
      simp only [List.map_cons, hk, if_false, List.sum_cons, ih hnd'.2 hm']
      abel

/-- Assigning a present key exchanges its term. -/
theorem sum_set_of_get? [AddCommGroup M] (d : Dict κ ν) {k : κ} {old : ν}
    (h : d.get? k = some old) (v : ν) (g : κ × ν → M) :
    ((d.set k v).entries.map g).sum = (d.entries.map g).sum + (g (k, v) - g (k, old)) := by
  have hset : (d.set k v).entries = (d.modify k fun _ => v).entries := by
    rw [entries_set_of_mem d (mem_keys_of_get? h), entries_modify]
    refine List.map_congr_left fun e _ => ?_
    by_cases he : e.1 = k
    · rw [if_pos he, if_pos he, he]
    · rw [if_neg he, if_neg he]
  rw [hset, sum_modify d h]

/-- Changing one term of a sum over distinct keys changes the sum by as much. -/
theorem sum_map_add_at {κ M : Type*} [AddCommMonoid M] {keys : List κ} (hnd : keys.Nodup) {k : κ}
    (hk : k ∈ keys) {g g' : κ → M} {δ : M} (hself : g' k = g k + δ)
    (hne : ∀ k', k' ≠ k → g' k' = g k') : (keys.map g').sum = (keys.map g).sum + δ := by
  induction keys with
  | nil => simp at hk
  | cons k' keys ih =>
    obtain ⟨hnot, hnd'⟩ := List.nodup_cons.mp hnd
    rw [List.map_cons, List.map_cons, List.sum_cons, List.sum_cons]
    rcases List.mem_cons.mp hk with rfl | hk'
    · have hrest : keys.map g' = keys.map g :=
        List.map_congr_left fun j hj => hne j fun hc => hnot (hc ▸ hj)
      rw [hself, hrest]
      exact add_right_comm _ _ _
    · rw [ih hnd' hk', hne k' fun hc => hnot (hc ▸ hk'), add_assoc]

/-- A sum over the entries is a sum over any list of keys that has them all. -/
theorem sum_entries_eq_sum_keys [AddCommMonoid M] (d : Dict κ ν) {keys : List κ} (hnd : keys.Nodup)
    (hsub : ∀ k ∈ d.keys, k ∈ keys) (g : κ × ν → M) :
    (d.entries.map g).sum =
      (keys.map fun k => ((d.get? k).map fun v => g (k, v)).getD 0).sum := by
  have hkeys : (d.entries.map g).sum =
      (d.keys.map fun k => ((d.get? k).map fun v => g (k, v)).getD 0).sum := by
    rw [Dict.keys, List.map_map]
    refine congrArg List.sum (List.map_congr_left fun e he => ?_)
    rw [Function.comp_apply, get?_eq_some_iff.mpr he]
    rfl
  rw [hkeys, ← List.sum_toFinset _ d.nodup_keys, ← List.sum_toFinset _ hnd]
  refine Finset.sum_subset (fun k hk => ?_) fun k _ hk => ?_
  · rw [List.mem_toFinset] at hk ⊢
    exact hsub k hk
  · rw [List.mem_toFinset] at hk
    rw [get?_eq_none_iff.mpr hk]
    rfl

/-- The entries of a key. -/
theorem filter_key_eq (d : Dict κ ν) (k : κ) :
    (d.entries.filter fun e => e.1 = k) = (d.get? k).toList.map fun v => (k, v) := by
  obtain ⟨entries, hnd⟩ := d
  change (entries.filter fun e => e.1 = k) = (entries.lookup k).toList.map fun v => (k, v)
  induction entries with
  | nil => rfl
  | cons e entries ih =>
    obtain ⟨k', v⟩ := e
    obtain ⟨hnew, hrest⟩ := List.nodup_cons.mp hnd
    rw [List.lookup_cons, List.filter_cons]
    by_cases hk : k = k'
    · subst hk
      have hnone : (entries.filter fun e => e.1 = k) = [] := by
        refine List.filter_eq_nil_iff.mpr fun e he hc => ?_
        have hmem := List.mem_map_of_mem (f := Prod.fst) he
        rw [of_decide_eq_true hc] at hmem
        exact hnew hmem
      simp [hnone]
    · have hne : ¬k' = k := fun hc => hk hc.symm
      simp only [hne, decide_false, Bool.false_eq_true, if_false, beq_eq_false_iff_ne.mpr hk]
      exact ih hrest

/-- Setting keys that are all new lists them. -/
theorem entries_foldl_set {α : Type*} {f : α → κ} {g : α → ν} {l : List α} {d : Dict κ ν}
    (hnew : ∀ a ∈ l, f a ∉ d.keys) (hl : (l.map f).Nodup) :
    (l.foldl (fun d a => d.set (f a) (g a)) d).entries =
      d.entries ++ l.map fun a => (f a, g a) := by
  induction l generalizing d with
  | nil => simp
  | cons a l ih =>
    rw [List.map_cons, List.nodup_cons] at hl
    have ha : f a ∉ d.keys := hnew a List.mem_cons_self
    rw [List.foldl_cons, ih ?_ hl.2, entries_set_of_notMem _ ha, List.append_assoc]
    · rfl
    · intro b hb hmem
      rcases mem_keys_set.mp hmem with heq | hold
      · exact hl.1 (heq ▸ List.mem_map_of_mem hb)
      · exact hnew b (List.mem_cons_of_mem a hb) hold

omit [DecidableEq κ] in
theorem eq_of_entries_eq {d d' : Dict κ ν} (h : d.entries = d'.entries) : d = d' := by
  obtain ⟨entries, hnd⟩ := d
  obtain ⟨entries', hnd'⟩ := d'
  obtain rfl : entries = entries' := h
  rfl

/-- The dictionary of a list of entries, assigned one after the other. -/
def ofList (l : List (κ × ν)) : Dict κ ν := l.foldl (fun d e => d.set e.1 e.2) empty

theorem ofList_concat (l : List (κ × ν)) (e : κ × ν) :
    ofList (l ++ [e]) = (ofList l).set e.1 e.2 := by
  rw [ofList, List.foldl_append]
  rfl

/-- The last entry of a key stays. -/
theorem get?_ofList (l : List (κ × ν)) (k : κ) :
    (ofList l).get? k = ((l.filter (·.1 = k)).getLast?).map Prod.snd := by
  induction l using List.reverseRecOn with
  | nil => rfl
  | append_singleton l e ih =>
    rw [ofList_concat, get?_set, List.filter_append]
    by_cases hk : k = e.1
    · rw [if_pos hk, List.filter_cons_of_pos (by simpa using hk.symm), List.filter_nil,
        List.getLast?_concat, Option.map_some]
    · rw [if_neg hk, List.filter_cons_of_neg (by simpa using fun h => hk h.symm), List.filter_nil,
        List.append_nil, ih]

theorem mem_of_get?_ofList {l : List (κ × ν)} {k : κ} {v : ν} (h : (ofList l).get? k = some v) :
    (k, v) ∈ l := by
  rw [get?_ofList, Option.map_eq_some_iff] at h
  obtain ⟨e, he, rfl⟩ := h
  obtain ⟨hmem, hkey⟩ := List.mem_filter.mp (List.mem_of_getLast? he)
  obtain rfl := of_decide_eq_true hkey
  exact hmem

/-- Every key of the list is assigned. -/
theorem exists_get?_ofList {l : List (κ × ν)} {k : κ} (h : k ∈ l.map Prod.fst) :
    ∃ v, (ofList l).get? k = some v := by
  obtain ⟨e, he, rfl⟩ := List.mem_map.mp h
  have hne : l.filter (·.1 = e.1) ≠ [] :=
    List.ne_nil_of_mem (List.mem_filter.mpr ⟨he, decide_eq_true rfl⟩)
  rw [get?_ofList, List.getLast?_eq_some_getLast hne]
  exact ⟨_, rfl⟩

/-- The order of the keys does not depend on what is assigned to them. -/
theorem keys_ofList_congr {μ : Type*} {l : List (κ × ν)} {l' : List (κ × μ)}
    (h : l.map Prod.fst = l'.map Prod.fst) : (ofList l).keys = (ofList l').keys := by
  induction l using List.reverseRecOn generalizing l' with
  | nil =>
    obtain rfl : l' = [] := List.map_eq_nil_iff.mp h.symm
    rfl
  | append_singleton l e ih =>
    rcases List.eq_nil_or_concat l' with rfl | ⟨l', e', rfl⟩
    · simp at h
    · simp only [List.map_append, List.map_cons, List.map_nil, List.concat_eq_append] at h
      obtain ⟨hinit, hlast⟩ := List.append_inj' h rfl
      have hkey : e.1 = e'.1 := (List.cons.inj hlast).1
      have hkeys := ih hinit
      rw [List.concat_eq_append, ofList_concat, ofList_concat, hkey]
      by_cases hmem : e'.1 ∈ (ofList l).keys
      · rw [keys_set_of_mem _ hmem, keys_set_of_mem _ (hkeys ▸ hmem), hkeys]
      · rw [keys_set_of_notMem _ hmem, keys_set_of_notMem _ (hkeys ▸ hmem), hkeys]

/-- What is made of the values can be made of the dictionary. -/
theorem ofList_map {μ : Type*} (f : ν → μ) (l : List (κ × ν)) :
    ofList (l.map fun e => (e.1, f e.2)) = (ofList l).mapValues f := by
  have hkeys : (ofList (l.map fun e => (e.1, f e.2))).keys = (ofList l).keys :=
    keys_ofList_congr (by rw [List.map_map]; rfl)
  have hvalues : ((ofList l).mapValues f).keys = (ofList l).keys := by
    rw [keys, keys, mapValues, List.map_map]
    rfl
  refine ext_get? (hkeys.trans hvalues.symm) fun k => ?_
  rw [get?_mapValues, get?_ofList, get?_ofList, List.filter_map, List.getLast?_map, Option.map_map,
    Option.map_map]
  rfl

/-- The dictionary of entries with different keys. -/
theorem entries_ofList {l : List (κ × ν)} (h : (l.map Prod.fst).Nodup) :
    (ofList l).entries = l := by
  have hentries := entries_foldl_set (f := Prod.fst) (g := Prod.snd) (l := l)
    (d := (empty : Dict κ ν)) (fun a _ => List.not_mem_nil) h
  simpa [ofList, empty] using hentries

/-- Apply a function to the values that may have no result for one of them. -/
def mapValues? {μ : Type*} (f : ν → Option μ) (d : Dict κ ν) : Option (Dict κ μ) :=
  (d.entries.mapM fun e => (f e.2).map (e.1, ·)).map ofList

/-- What has a result everywhere. -/
theorem mapM_eq_some_map {α β : Type*} {f : α → Option β} {g : α → β} {l : List α}
    (h : ∀ a ∈ l, f a = some (g a)) : l.mapM f = some (l.map g) := by
  induction l with
  | nil => rfl
  | cons a l ih =>
    rw [List.mapM_cons, h a List.mem_cons_self, ih fun b hb => h b (List.mem_cons_of_mem a hb)]
    rfl

/-- What has no result somewhere. -/
theorem mapM_eq_none {α β : Type*} {f : α → Option β} {l : List α} {a : α} (ha : a ∈ l)
    (h : f a = none) : l.mapM f = none := by
  induction l with
  | nil => cases ha
  | cons b l ih =>
    rw [List.mapM_cons]
    rcases List.mem_cons.mp ha with rfl | ha
    · rw [h]
      rfl
    · rw [ih ha]
      cases f b <;> rfl

omit [DecidableEq κ] in
theorem mapValues_mapValues {μ ξ : Type*} (f : ν → μ) (g : μ → ξ) (d : Dict κ ν) :
    (d.mapValues f).mapValues g = d.mapValues (g ∘ f) := by
  have hentries : (d.entries.map fun e => (e.1, f e.2)).map (fun e => (e.1, g e.2)) =
      d.entries.map fun e => (e.1, (g ∘ f) e.2) := List.map_map
  exact eq_of_entries_eq hentries

theorem mapValues?_mapValues {μ ξ : Type*} (f : ν → μ) (g : μ → Option ξ) (d : Dict κ ν) :
    (d.mapValues f).mapValues? g = d.mapValues? (g ∘ f) := by
  rw [mapValues?, mapValues?, mapValues, List.mapM_map]
  rfl

theorem mapValues?_eq_some {μ : Type*} {f : ν → Option μ} {g : ν → μ} {d : Dict κ ν}
    (h : ∀ v ∈ d.values, f v = some (g v)) : d.mapValues? f = some (d.mapValues g) := by
  have hentries : (d.entries.mapM fun e => (f e.2).map (e.1, ·)) =
      some (d.entries.map fun e => (e.1, g e.2)) := by
    refine mapM_eq_some_map fun e he => ?_
    rw [h e.2 (List.mem_map_of_mem he), Option.map_some]
  rw [mapValues?, hentries, Option.map_some]
  refine congrArg some (eq_of_entries_eq (entries_ofList ?_))
  exact (d.mapValues g).nodup

/-- What a list of rows puts into a table, if no two of them have one key. -/
theorem get?_foldl_set_eq_some_iff {α : Type*} {f : α → κ} {l : List α}
    (hl : ∀ a ∈ l, ∀ b ∈ l, f a = f b → a = b) {d : Dict κ α} {k : κ} {v : α} :
    (l.foldl (fun d a => d.set (f a) a) d).get? k = some v ↔
      v ∈ l ∧ f v = k ∨ d.get? k = some v ∧ ∀ a ∈ l, f a ≠ k := by
  induction l generalizing d with
  | nil => simp
  | cons a l ih =>
    have htail : ∀ b ∈ l, ∀ c ∈ l, f b = f c → b = c := fun b hb c hc =>
      hl b (List.mem_cons_of_mem a hb) c (List.mem_cons_of_mem a hc)
    rw [List.foldl_cons, ih htail, get?_set]
    by_cases hk : k = f a
    · subst hk
      -- the new row is the only one of its key
      have honly : ∀ b ∈ l, f b = f a → b = a := fun b hb =>
        hl b (List.mem_cons_of_mem a hb) a List.mem_cons_self
      rw [if_pos rfl]
      constructor
      · rintro (⟨hv, hkey⟩ | ⟨hv, -⟩)
        · exact Or.inl ⟨List.mem_cons_of_mem a hv, hkey⟩
        · obtain rfl := Option.some.inj hv
          exact Or.inl ⟨List.mem_cons_self, rfl⟩
      · rintro (⟨hv, hkey⟩ | ⟨-, hnot⟩)
        · rcases List.mem_cons.mp hv with rfl | hv
          · by_cases hmem : ∃ b ∈ l, f b = f v
            · obtain ⟨b, hb, hbk⟩ := hmem
              exact Or.inl ⟨honly b hb hbk ▸ hb, rfl⟩
            · push Not at hmem
              exact Or.inr ⟨rfl, hmem⟩
          · exact Or.inl ⟨hv, hkey⟩
        · exact absurd rfl (hnot a List.mem_cons_self)
    · rw [if_neg hk]
      have hne : f a ≠ k := fun h => hk h.symm
      simp only [List.mem_cons, forall_eq_or_imp]
      constructor
      · rintro (⟨hv, hkey⟩ | ⟨hv, hnot⟩)
        · exact Or.inl ⟨Or.inr hv, hkey⟩
        · exact Or.inr ⟨hv, hne, hnot⟩
      · rintro (⟨rfl | hv, hkey⟩ | ⟨hv, -, hnot⟩)
        · exact absurd hkey hne
        · exact Or.inl ⟨hv, hkey⟩
        · exact Or.inr ⟨hv, hnot⟩

/-- What a list of rows puts into a table: the last row of each key. -/
theorem get?_foldl_set_empty_iff {α : Type*} {f : α → κ} {l : List α} {k : κ} {v : α} :
    (l.foldl (fun d a => d.set (f a) a) empty).get? k = some v ↔
      ∃ i : ℕ, (l[i]? = some v ∧ ∀ j a, i < j → l[j]? = some a → f a ≠ f v) ∧ f v = k := by
  induction l using List.reverseRecOn with
  | nil => simp
  | append_singleton l a ih =>
    have hlast : (l ++ [a])[l.length]? = some a := by simp
    rw [List.foldl_append, List.foldl_cons, List.foldl_nil, get?_set]
    by_cases hk : k = f a
    · subst hk
      rw [if_pos rfl, Option.some_inj]
      constructor
      · rintro rfl
        refine ⟨l.length, ⟨hlast, fun j b hj hb => ?_⟩, rfl⟩
        have hlt := (List.getElem?_eq_some_iff.mp hb).1
        rw [List.length_append, List.length_singleton] at hlt
        omega
      · rintro ⟨i, ⟨hi, hnot⟩, hv⟩
        rcases lt_trichotomy i l.length with hlt | rfl | hgt
        · exact absurd hv.symm (hnot _ _ hlt hlast)
        · exact Option.some.inj (hlast.symm.trans hi)
        · have hle := (List.getElem?_eq_some_iff.mp hi).1
          rw [List.length_append, List.length_singleton] at hle
          omega
    · rw [if_neg hk, ih]
      -- another key: the new row is neither the one looked up nor in its way
      have hother : ∀ (i : ℕ) (b : α), (l ++ [a])[i]? = some b → f b = k → l[i]? = some b := by
        intro i b hb hkey
        rcases lt_or_ge i l.length with hlt | hge
        · exact (List.getElem?_append_left hlt).symm.trans hb
        · rw [List.getElem?_append_right hge] at hb
          obtain rfl := List.mem_singleton.mp (List.mem_of_getElem? hb)
          exact absurd hkey.symm hk
      have hold : ∀ (i : ℕ) (b : α), l[i]? = some b → (l ++ [a])[i]? = some b := fun i b hb =>
        (List.getElem?_append_left (List.getElem?_eq_some_iff.mp hb).1).trans hb
      refine exists_congr fun i => and_congr_left fun hv => ?_
      constructor
      · rintro ⟨hi, hnot⟩
        exact ⟨hold i v hi, fun j b hj hb hc => hnot j b hj (hother j b hb (hc.trans hv)) hc⟩
      · rintro ⟨hi, hnot⟩
        exact ⟨hother i v hi hv, fun j b hj hb => hnot j b hj (hold j b hb)⟩

/-- Values that are under a key of their own. -/
theorem pairwise_values {d : Dict κ ν} {f : ν → κ} (h : ∀ {k v}, d.get? k = some v → k = f v) :
    d.values.Pairwise fun v w => f v ≠ f w := by
  have hkeys : d.entries.Pairwise fun e e' => e.1 ≠ e'.1 := List.pairwise_map.mp d.nodup_keys
  refine List.pairwise_map.mpr (hkeys.imp_of_mem ?_)
  intro e e' he he' hne heq
  have hk := h (get?_eq_some_iff.mpr he)
  have hk' := h (get?_eq_some_iff.mpr he')
  exact hne (hk.trans (heq.trans hk'.symm))

/-- The entries around a key, before and after it is assigned. -/
theorem exists_entries_set {d : Dict κ ν} {k : κ} {old : ν} (h : d.get? k = some old) (v : ν) :
    ∃ pre post, d.entries = pre ++ (k, old) :: post ∧
      (d.set k v).entries = pre ++ (k, v) :: post := by
  obtain ⟨pre, post, hd⟩ := List.append_of_mem (get?_eq_some_iff.mp h)
  refine ⟨pre, post, hd, ?_⟩
  have hnd := d.nodup
  rw [hd, List.map_append, List.map_cons, List.nodup_append, List.nodup_cons] at hnd
  obtain ⟨-, ⟨hpost, -⟩, hdisj⟩ := hnd
  have hother : ∀ l : List (κ × ν), k ∉ l.map Prod.fst →
      l.map (fun e => if e.1 = k then (k, v) else e) = l := by
    intro l hl
    refine (List.map_congr_left fun e he => if_neg ?_).trans (List.map_id' l)
    rintro rfl
    exact hl (List.mem_map_of_mem he)
  have hpre : k ∉ pre.map Prod.fst := fun hk => hdisj k hk k List.mem_cons_self rfl
  rw [entries_set_of_mem d (mem_keys_of_get? h), hd, List.map_append, List.map_cons,
    hother pre hpre, hother post hpost, if_pos rfl]

/-- What is collected from the values, after one of them got longer. -/
theorem perm_flatMap_set {α : Type*} {d : Dict κ ν} {k : κ} {old v : ν} (h : d.get? k = some old)
    {f : ν → List α} {more : List α} (hf : f v = f old ++ more) :
    ((d.set k v).values.flatMap f).Perm (d.values.flatMap f ++ more) := by
  obtain ⟨pre, post, hd, hset⟩ := exists_entries_set h v
  rw [values, hset, values, hd]
  simp only [List.map_append, List.map_cons, List.flatMap_append, List.flatMap_cons, hf,
    List.append_assoc]
  refine List.Perm.append_left _ (List.Perm.append_left _ List.perm_append_comm)

end Dict

end TradingPlatform
