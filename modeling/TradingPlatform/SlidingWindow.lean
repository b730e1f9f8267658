import Mathlib

/-!
# A log and the part of it that a sliding window still holds

A limit on how often something happens within a time is kept with a queue. Each occurrence is
entered at its end, and what has left the window is taken from its front. The queue forgets, so
what it guarantees is a statement about the log it has forgotten.

`TradingPlatform.SlidingWindow` ties the two together. The queue is what is left of the log once a
past has been cut off, everything in that past lies more than the window back, and any two
entries of the log that are `m` places apart are more than the window apart. It is kept by the
clock going on (`TradingPlatform.SlidingWindow.advance`), by an entry leaving the front once it is
out of the window (`TradingPlatform.SlidingWindow.evict`) and by an entry at the end while the
queue is shorter than `m` (`TradingPlatform.SlidingWindow.enter`).

The strictness is the point. An entry that is exactly the window old must stay: were it evicted,
the next one could be entered exactly the window after it.

Times that are held in a format are subtracted with a rounding. `TradingPlatform.Rounding` asks of
it only that it keeps the order; what is below a rounded cutoff is then below the exact one
(`TradingPlatform.Rounding.lt_sub_of_lt_round`).
-/

namespace TradingPlatform

/-! ### Rounded times -/

/-- A rounding to the numbers that a format holds. -/
structure Rounding (T : Type*) [Preorder T] where
  round : T → T
  mono : Monotone round

/-- A number that the format holds. -/
def Rounding.Holds {T : Type*} [Preorder T] (fl : Rounding T) (t : T) : Prop := fl.round t = t

instance {T : Type*} [Preorder T] [DecidableEq T] (fl : Rounding T) : DecidablePred fl.Holds :=
  fun t => inferInstanceAs (Decidable (fl.round t = t))

/-- No rounding. -/
def Rounding.exact (T : Type*) [Preorder T] : Rounding T := ⟨id, monotone_id⟩

variable {T : Type*} [AddCommGroup T] [LinearOrder T]

/-- **Rounding cuts off nothing too early**: what is below the rounded cutoff is below the exact
one. -/
theorem Rounding.lt_sub_of_lt_round [IsOrderedAddMonoid T] {fl : Rounding T} {t now w : T}
    (ht : fl.Holds t) (h : t < fl.round (now - w)) : w < now - t := by
  have hlt : t < now - w := by
    by_contra hc
    have hround := fl.mono (not_lt.mp hc)
    rw [show fl.round t = t from ht] at hround
    exact absurd h (not_lt.mpr hround)
  exact lt_sub_comm.mp hlt

/-! ### The window -/

/-- Any two entries of a log that are `m` places apart are more than `w` apart. -/
def Spaced (w : T) (m : ℕ) (log : List T) : Prop :=
  ∀ (i : ℕ) (a b : T), log[i]? = some a → log[i + m]? = some b → w < b - a

/-- A log in order, and the queue of its entries that a window of length `w` still holds at the
time `now`, where at most `m` are held at once. -/
structure SlidingWindow (w : T) (m : ℕ) (now : T) (log queue : List T) : Prop where
  sorted : log.Pairwise (· ≤ ·)
  le_now : ∀ a ∈ log, a ≤ now
  cut : ∃ past, log = past ++ queue ∧ ∀ a ∈ past, w < now - a
  spaced : Spaced w m log
  length_le : queue.length ≤ m

namespace SlidingWindow

variable {w now now' : T} {m : ℕ} {log queue : List T}

theorem nil : SlidingWindow w m now [] [] where
  sorted := List.Pairwise.nil
  le_now := by simp
  cut := ⟨[], by simp⟩
  spaced := by
    intro i a b ha
    simp at ha
  length_le := by simp

/-- The queue is in order because the log is. -/
theorem queue_sorted (h : SlidingWindow w m now log queue) : queue.Pairwise (· ≤ ·) := by
  obtain ⟨past, rfl, -⟩ := h.cut
  exact (List.pairwise_append.mp h.sorted).2.1

/-- The clock goes on. -/
theorem advance [IsOrderedAddMonoid T] (h : SlidingWindow w m now log queue) (hle : now ≤ now') :
    SlidingWindow w m now' log queue where
  sorted := h.sorted
  le_now := fun a ha => (h.le_now a ha).trans hle
  cut := by
    obtain ⟨past, hlog, hpast⟩ := h.cut
    refine ⟨past, hlog, fun a ha => ?_⟩
    exact (hpast a ha).trans_le (sub_le_sub_right hle a)
  spaced := h.spaced
  length_le := h.length_le

/-- The front of the queue leaves it, up to the first entry that a test keeps, where the test lets
only those go that are out of the window. -/
theorem evict {gone : T → Bool} (h : SlidingWindow w m now log queue)
    (hgone : ∀ a ∈ queue, gone a = true → w < now - a) :
    SlidingWindow w m now log (queue.dropWhile gone) where
  sorted := h.sorted
  le_now := h.le_now
  cut := by
    obtain ⟨past, hlog, hpast⟩ := h.cut
    refine ⟨past ++ queue.takeWhile gone, ?_, ?_⟩
    · rw [List.append_assoc, List.takeWhile_append_dropWhile, hlog]
    · intro a ha
      rcases List.mem_append.mp ha with ha | ha
      · exact hpast a ha
      · exact hgone a ((List.takeWhile_sublist gone).mem ha) (List.mem_takeWhile_imp ha)
  spaced := h.spaced
  length_le := (List.length_dropWhile_le gone queue).trans h.length_le

/-- **An entry while there is room keeps the spacing**: what stands `m` places before it is no
longer in the queue, so it is out of the window. -/
theorem enter (h : SlidingWindow w m now log queue) (hroom : queue.length < m) :
    SlidingWindow w m now (log ++ [now]) (queue ++ [now]) where
  sorted := by
    refine List.pairwise_append.mpr ⟨h.sorted, List.pairwise_singleton _ _, fun a ha b hb => ?_⟩
    rw [List.mem_singleton.mp hb]
    exact h.le_now a ha
  le_now := by
    intro a ha
    rcases List.mem_append.mp ha with ha | ha
    · exact h.le_now a ha
    · exact (List.mem_singleton.mp ha).le
  cut := by
    obtain ⟨past, hlog, hpast⟩ := h.cut
    exact ⟨past, by rw [hlog, List.append_assoc], hpast⟩
  spaced := by
    intro i a b ha hb
    have hi : i + m < (log ++ [now]).length := (List.getElem?_eq_some_iff.mp hb).1
    have hlen : i + m ≤ log.length := by
      rw [List.length_append, List.length_singleton] at hi
      omega
    have ha' : log[i]? = some a := by
      rwa [List.getElem?_append_left (by omega)] at ha
    rcases hlen.lt_or_eq with hlt | heq
    · refine h.spaced i a b ha' ?_
      rwa [List.getElem?_append_left hlt] at hb
    · -- the new entry: the one `m` places before it lies in the past
      obtain ⟨past, hlog, hpast⟩ := h.cut
      obtain rfl : now = b := by
        rw [heq, List.getElem?_concat_length] at hb
        exact Option.some_inj.mp hb
      have hpos : i < past.length := by
        have := congrArg List.length hlog
        rw [List.length_append] at this
        omega
      rw [hlog, List.getElem?_append_left hpos] at ha'
      exact hpast a (List.mem_of_getElem? ha')
  length_le := by
    rw [List.length_append, List.length_singleton]
    omega

end SlidingWindow

end TradingPlatform
