import Mathlib.Data.List.MinMax
import Mathlib.Order.Basic

/-!
# Thinning a log

A log of rows is kept short. The rows that are too old are taken out of it, and of those that are
no longer new only the earliest of each bucket stay. Then more rows come, and the log is thinned
again.

How often it is thinned leaves no trace (`TradingPlatform.Thinning.thin_append_thin`): a log that
was thinned before, and has grown since, is thinned to what the whole log would be thinned to. Two
things are asked for. The limits do not go back; and the limit of what is too old splits no bucket,
or a row that stands for its bucket could go before the rows it stands for would have.

Nothing here is about any one program.
-/

namespace TradingPlatform

variable {α β κ : Type*}

/-- How a log is thinned: which rows are too old, and which are no longer new. -/
structure Thinning (α : Type*) where
  gone : α → Bool
  aged : α → Bool

namespace Thinning

variable [DecidableEq β] [LinearOrder κ] (key : α → κ) (bucket : α → β)

/-- A row stays: it is not too old, and it is new or no row of its bucket is earlier. -/
def Stays (c : Thinning α) (rows : List α) (r : α) : Prop :=
  c.gone r = false ∧ (c.aged r = true → ∀ r' ∈ rows, c.gone r' = false → c.aged r' = true →
    bucket r' = bucket r → key r ≤ key r')

instance (c : Thinning α) (rows : List α) (r : α) : Decidable (c.Stays key bucket rows r) :=
  inferInstanceAs (Decidable (_ ∧ _))

def thin (c : Thinning α) (rows : List α) : List α := rows.filter fun r => c.Stays key bucket rows r

variable {key bucket} {c c' : Thinning α} {rows : List α} {r r' : α}

theorem mem_thin : r ∈ c.thin key bucket rows ↔ r ∈ rows ∧ c.Stays key bucket rows r := by
  rw [thin, List.mem_filter, decide_eq_true_iff]

variable (key) in
/-- Of the rows with a property one is the earliest. -/
theorem exists_earliest {p : α → Prop} [DecidablePred p] (hr : r ∈ rows) (hp : p r) :
    ∃ r₀ ∈ rows, p r₀ ∧ ∀ r' ∈ rows, p r' → key r₀ ≤ key r' := by
  have hmem : r ∈ rows.filter p := List.mem_filter.mpr ⟨hr, decide_eq_true hp⟩
  rcases hmin : (rows.filter p).argmin key with _ | r₀
  · rw [List.argmin_eq_none.mp hmin] at hmem
    cases hmem
  · obtain ⟨hr₀, hp₀⟩ := List.mem_filter.mp (List.argmin_mem hmin)
    refine ⟨r₀, hr₀, of_decide_eq_true hp₀, fun r' hr' hp' => ?_⟩
    exact List.le_of_mem_argmin (List.mem_filter.mpr ⟨hr', decide_eq_true hp'⟩) hmin

variable (key bucket) in
/-- **Every row that is not too old leaves one of its bucket**, itself or an earlier one. -/
theorem exists_mem_thin (hr : r ∈ rows) (hgone : c.gone r = false) :
    ∃ r' ∈ c.thin key bucket rows, bucket r' = bucket r ∧ key r' ≤ key r ∧
      (r' = r ∨ c.aged r' = true) := by
  rcases haged : c.aged r with _ | _
  · exact ⟨r, mem_thin.mpr ⟨hr, hgone, fun h => absurd h (by simp [haged])⟩, rfl, le_rfl, .inl rfl⟩
  · obtain ⟨r₀, hr₀, ⟨hgone₀, haged₀, hbucket⟩, hmin⟩ := exists_earliest key
      (p := fun r' => c.gone r' = false ∧ c.aged r' = true ∧ bucket r' = bucket r) hr
      ⟨hgone, haged, rfl⟩
    refine ⟨r₀, mem_thin.mpr ⟨hr₀, hgone₀, fun _ r' hr' hgone' haged' hbucket' => ?_⟩, hbucket,
      hmin r hr ⟨hgone, haged, rfl⟩, .inr haged₀⟩
    exact hmin r' hr' ⟨hgone', haged', hbucket'.trans hbucket⟩

/-- A later thinning: what was too old still is, what was not new still is not, and no bucket is
split by what is too old now. -/
structure Before (bucket : α → β) (c c' : Thinning α) : Prop where
  gone : ∀ r, c.gone r = true → c'.gone r = true
  aged : ∀ r, c.aged r = true → c'.aged r = true
  whole : ∀ r r', bucket r = bucket r' → c'.gone r = c'.gone r'

omit [DecidableEq β] in
theorem Before.gone_eq_false (h : Before bucket c c') (hgone : c'.gone r = false) :
    c.gone r = false := by
  rw [Bool.eq_false_iff] at hgone ⊢
  exact fun hc => hgone (h.gone r hc)

omit [DecidableEq β] in
/-- What a later thinning keeps of the whole log was kept. -/
theorem Before.stays (h : Before bucket c c') {new : List α}
    (hstays : c'.Stays key bucket (rows ++ new) r) : c.Stays key bucket rows r := by
  obtain ⟨hgone, hmin⟩ := hstays
  refine ⟨h.gone_eq_false hgone, fun haged r' hr' _ haged' hbucket => ?_⟩
  exact hmin (h.aged r haged) r' (List.mem_append_left new hr')
    ((h.whole r' r hbucket).trans hgone) (h.aged r' haged') hbucket

/-- A row that the whole log keeps out is kept out by what is left of it: the earliest row of the
bucket is still there. -/
theorem Before.stays_thin_iff (h : Before bucket c c') {new : List α} :
    c'.Stays key bucket (c.thin key bucket rows ++ new) r ↔
      c'.Stays key bucket (rows ++ new) r := by
  constructor
  · rintro ⟨hgone, hmin⟩
    refine ⟨hgone, fun haged r' hr' hgone' haged' hbucket => ?_⟩
    rcases List.mem_append.mp hr' with hr' | hr'
    · -- a row that is gone left an earlier one of its bucket
      obtain ⟨r₀, hr₀, hbucket₀, hle, haged₀⟩ := exists_mem_thin (c := c) key bucket hr'
        (h.gone_eq_false hgone')
      have haged₀' : c'.aged r₀ = true := by
        rcases haged₀ with rfl | haged₀
        · exact haged'
        · exact h.aged r₀ haged₀
      exact (hmin haged r₀ (List.mem_append_left new hr₀) ((h.whole r₀ r' hbucket₀).trans hgone')
        haged₀' (hbucket₀.trans hbucket)).trans hle
    · exact hmin haged r' (List.mem_append_right _ hr') hgone' haged' hbucket
  · rintro ⟨hgone, hmin⟩
    refine ⟨hgone, fun haged r' hr' => hmin haged r' ?_⟩
    rcases List.mem_append.mp hr' with hr' | hr'
    · exact List.mem_append_left new (mem_thin.mp hr').1
    · exact List.mem_append_right rows hr'

/-- **Thinning before makes no difference to thinning now**, whatever comes in between. -/
theorem Before.thin_append_thin (h : Before bucket c c') (rows new : List α) :
    c'.thin key bucket (c.thin key bucket rows ++ new) = c'.thin key bucket (rows ++ new) := by
  have hiff : ∀ r, c'.Stays key bucket (c.thin key bucket rows ++ new) r ↔
      c'.Stays key bucket (rows ++ new) r := fun r => h.stays_thin_iff
  rw [thin, List.filter_congr fun r _ => decide_eq_decide.mpr (hiff r), List.filter_append,
    thin, List.filter_filter, thin, List.filter_append]
  congr 1
  refine List.filter_congr fun r _ => ?_
  rw [Bool.and_eq_left_iff_imp]
  intro hstays
  exact decide_eq_true (h.stays (of_decide_eq_true hstays))

/-! ### A log that is thinned now and then -/

/-- What is left of a log: what the last thinning leaves of all that was written before it, and all
that was written since. -/
def Leaves (key : α → κ) (bucket : α → β) (last : Option (Thinning α)) (written rows : List α) :
    Prop :=
  ∃ old new, written = old ++ new ∧
    rows = (match last with
      | some c => c.thin key bucket old
      | none => old) ++ new

theorem Leaves.append {last : Option (Thinning α)} {written : List α}
    (h : Leaves key bucket last written rows) (more : List α) :
    Leaves key bucket last (written ++ more) (rows ++ more) := by
  obtain ⟨old, new, rfl, rfl⟩ := h
  exact ⟨old, new ++ more, by rw [List.append_assoc], by rw [List.append_assoc]⟩

theorem Leaves.thin {last : Option (Thinning α)} {written : List α}
    (h : Leaves key bucket last written rows) (hbefore : ∀ c ∈ last, Before bucket c c') :
    Leaves key bucket (some c') written (c'.thin key bucket rows) := by
  obtain ⟨old, new, rfl, rfl⟩ := h
  refine ⟨old ++ new, [], (List.append_nil _).symm, ?_⟩
  rw [List.append_nil]
  rcases last with _ | c
  · rfl
  · exact (hbefore c rfl).thin_append_thin old new

end Thinning

end TradingPlatform
