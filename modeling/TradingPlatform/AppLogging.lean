import TradingPlatform.Agents.ExternalContent
import TradingPlatform.Throttle

/-!
# Repeated log records

A stream that cannot connect logs the same error thousands of times a minute. A filter lets one of
them through in an interval and adds to it how many it has kept back since the last one. Records are
the same if they come from the same logger and begin with the same eighty characters.

`TradingPlatform.LogStream.log_run` says that this neither floods the log nor hides anything: what
goes through is spaced, what is kept back comes soon after one that went through, and every record
is accounted for, by itself or in a number, but for those that are still to be added to the next.
-/

namespace TradingPlatform

structure LogRecord where
  name : Str
  msg : Str
  args : List Str

/-- What the filter remembers. -/
structure RateLimitFilter (T : Type*) where
  last : Dict Str T
  suppressed : Dict Str ℕ

namespace RateLimitFilter

variable {T : Type*} [AddCommGroup T] [LinearOrder T]

def keyOf (record : LogRecord) : Str := record.name ++ text ":" ++ record.msg.take 80

/-- The record with the number of those kept back, if there are any. The interval is shown in whole
seconds. -/
def annotate (minText : Str) (n : ℕ) (record : LogRecord) : LogRecord :=
  if n = 0 then record
  else
    { record with
      msg := record.msg ++ text " [+" ++ natText n ++ text " identical suppressed in last " ++
        minText ++ text "s]"
      args := [] }

/-- How many of a key are kept back at the moment. -/
def pending (s : RateLimitFilter T) (k : Str) : ℕ := (s.suppressed.get? k).getD 0

variable (fl : Rounding T) (minInterval : T) (minText : Str)

/-- The source's `filter`, with the record as it goes on. -/
def filter (s : RateLimitFilter T) (now : T) (record : LogRecord) :
    RateLimitFilter T × Option LogRecord :=
  let key := keyOf record
  if Throttle.Open fl minInterval s.last now key then
    (⟨s.last.set key now, s.suppressed.erase key⟩, some (annotate minText (s.pending key) record))
  else (⟨s.last, s.suppressed.set key (s.pending key + 1)⟩, none)

end RateLimitFilter

/-- A record that went on, and how many it stands for besides itself. -/
structure Emission (T : Type*) where
  time : T
  key : Str
  record : LogRecord
  standsFor : ℕ

/-- The filter, and what has gone through it. -/
structure LogStream (T : Type*) where
  filter : RateLimitFilter T
  emitted : List (Emission T)

namespace LogStream

variable {T : Type*} [AddCommGroup T] [LinearOrder T]

def initial : LogStream T := ⟨⟨.empty, .empty⟩, []⟩

/-- What has gone through of a key. -/
def emittedOf (s : LogStream T) (k : Str) : List (Emission T) := s.emitted.filter fun e => e.key = k

section Step

variable (fl : Rounding T) (minInterval : T) (minText : Str)

def step (s : LogStream T) (event : T × LogRecord) : LogStream T :=
  let key := RateLimitFilter.keyOf event.2
  let r := s.filter.filter fl minInterval minText event.1 event.2
  { filter := r.1
    emitted := s.emitted ++
      (r.2.map fun record => ⟨event.1, key, record, s.filter.pending key⟩).toList }

end Step

variable {fl : Rounding T} {minInterval : T} {minText : Str} {s : LogStream T}

/-- A record goes on, and takes the number of those kept back with it. -/
theorem step_of_open {event : T × LogRecord}
    (h : Throttle.Open fl minInterval s.filter.last event.1 (RateLimitFilter.keyOf event.2)) :
    s.step fl minInterval minText event =
      ⟨⟨s.filter.last.set (RateLimitFilter.keyOf event.2) event.1,
          s.filter.suppressed.erase (RateLimitFilter.keyOf event.2)⟩,
        s.emitted ++ [⟨event.1, RateLimitFilter.keyOf event.2, RateLimitFilter.annotate minText
          (s.filter.pending (RateLimitFilter.keyOf event.2)) event.2,
          s.filter.pending (RateLimitFilter.keyOf event.2)⟩]⟩ := by
  rw [step, RateLimitFilter.filter, if_pos h]
  rfl

/-- A record is kept back. -/
theorem step_of_not_open {event : T × LogRecord}
    (h : ¬Throttle.Open fl minInterval s.filter.last event.1 (RateLimitFilter.keyOf event.2)) :
    s.step fl minInterval minText event =
      ⟨⟨s.filter.last, s.filter.suppressed.set (RateLimitFilter.keyOf event.2)
          (s.filter.pending (RateLimitFilter.keyOf event.2) + 1)⟩, s.emitted⟩ := by
  rw [step, RateLimitFilter.filter, if_neg h]
  exact congrArg (LogStream.mk _) (List.append_nil _)

/-! ### As a throttle -/

def throttle (s : LogStream T) : Throttle Str T :=
  ⟨s.filter.last, s.emitted.map fun e => (e.time, e.key)⟩

theorem throttle_step (s : LogStream T) (event : T × LogRecord) :
    (s.step fl minInterval minText event).throttle =
      s.throttle.step fl minInterval (event.1, RateLimitFilter.keyOf event.2) := by
  by_cases h : Throttle.Open fl minInterval s.filter.last event.1 (RateLimitFilter.keyOf event.2)
  · rw [step_of_open h, Throttle.step_of_open h, throttle, List.map_append]
    rfl
  · rw [step_of_not_open h, Throttle.step_of_not_open h]
    rfl

/-- **The filter is a throttle** of the records by their keys. -/
theorem throttle_run (events : List (T × LogRecord)) :
    (run (step fl minInterval minText) initial events).throttle =
      run (Throttle.step fl minInterval) .empty
        (events.map fun event => (event.1, RateLimitFilter.keyOf event.2)) := by
  induction events using List.reverseRecOn with
  | nil => rfl
  | append_singleton events event ih =>
    rw [run_concat, throttle_step, ih, List.map_append, run_append]
    rfl

omit [AddCommGroup T] [LinearOrder T] in
theorem map_time_emittedOf (s : LogStream T) (k : Str) :
    (s.emittedOf k).map Emission.time = s.throttle.passedOf k := by
  rw [emittedOf, Throttle.passedOf, throttle, List.filter_map, List.map_map]
  rfl

/-! ### The numbers -/

/-- The records of a key that are shown or counted. -/
def counted (s : LogStream T) (k : Str) : ℕ :=
  ((s.emittedOf k).map fun e => e.standsFor + 1).sum + s.filter.pending k

/-- **A record is counted once.** -/
theorem counted_step (s : LogStream T) (event : T × LogRecord) (k : Str) :
    (s.step fl minInterval minText event).counted k =
      s.counted k + if RateLimitFilter.keyOf event.2 = k then 1 else 0 := by
  by_cases h : Throttle.Open fl minInterval s.filter.last event.1 (RateLimitFilter.keyOf event.2)
  · rw [step_of_open h]
    dsimp only [counted, emittedOf, RateLimitFilter.pending]
    rw [List.filter_append, List.map_append, List.sum_append, Dict.get?_erase]
    by_cases hk : RateLimitFilter.keyOf event.2 = k
    · -- what was kept back is now in the number
      subst hk
      simp
      omega
    · rw [if_neg hk, if_neg (Ne.symm hk), List.filter_cons_of_neg (by simpa using hk)]
      rfl
  · rw [step_of_not_open h]
    dsimp only [counted, emittedOf, RateLimitFilter.pending]
    rw [Dict.get?_set]
    by_cases hk : RateLimitFilter.keyOf event.2 = k
    · subst hk
      simp
      omega
    · rw [if_neg hk, if_neg (Ne.symm hk)]
      rfl

theorem counted_run (events : List (T × LogRecord)) (k : Str) :
    (run (step fl minInterval minText) initial events).counted k =
      events.countP fun event => RateLimitFilter.keyOf event.2 = k := by
  induction events using List.reverseRecOn with
  | nil => rfl
  | append_singleton events event ih =>
    rw [run_concat, counted_step, ih, List.countP_append, List.countP_singleton]
    simp

/-- What goes on is one of the records, with the number it stands for. -/
theorem mem_emitted_run (events : List (T × LogRecord)) :
    ∀ e ∈ (run (step fl minInterval minText) initial events).emitted,
      ∃ event ∈ events, e.time = event.1 ∧ e.key = RateLimitFilter.keyOf event.2 ∧
        e.record = RateLimitFilter.annotate minText e.standsFor event.2 := by
  induction events using List.reverseRecOn with
  | nil => exact fun e he => absurd he List.not_mem_nil
  | append_singleton events event ih =>
    rw [run_concat]
    intro e he
    have hold : ∀ e ∈ (run (step fl minInterval minText) initial events).emitted,
        ∃ event' ∈ events ++ [event], e.time = event'.1 ∧
          e.key = RateLimitFilter.keyOf event'.2 ∧
            e.record = RateLimitFilter.annotate minText e.standsFor event'.2 := by
      intro e he
      obtain ⟨event', hmem, h⟩ := ih e he
      exact ⟨event', List.mem_append_left _ hmem, h⟩
    by_cases h : Throttle.Open fl minInterval
        (run (step fl minInterval minText) initial events).filter.last event.1
          (RateLimitFilter.keyOf event.2)
    · rw [step_of_open h] at he
      rcases List.mem_append.mp he with he | he
      · exact hold e he
      · obtain rfl := List.mem_singleton.mp he
        exact ⟨event, List.mem_append_right _ (List.mem_singleton_self _), rfl, rfl, rfl⟩
    · rw [step_of_not_open h] at he
      exact hold e he

/-- **The log is neither flooded nor blind.** Of each key, what goes on is spaced by the interval.
Every record goes on, or one of its key went on less than an interval before it. All records are
shown, or are in the number that one of them shows, or wait to be added to the next; and what goes
on is a record with just its number. -/
theorem log_run (fl : Rounding T) (minInterval : T) (minText : Str)
    (events : List (T × LogRecord)) :
    let s := run (step fl minInterval minText) initial events
    (∀ k, ((s.emittedOf k).map Emission.time).IsChain
      fun t t' => minInterval ≤ fl.round (t' - t)) ∧
      (∀ event ∈ events, ∃ e ∈ s.emitted, e.key = RateLimitFilter.keyOf event.2 ∧
        (e.time = event.1 ∨ fl.round (event.1 - e.time) < minInterval)) ∧
      (∀ k, ((s.emittedOf k).map fun e => e.standsFor + 1).sum + s.filter.pending k =
        events.countP fun event => RateLimitFilter.keyOf event.2 = k) ∧
      ∀ e ∈ s.emitted, ∃ event ∈ events, e.time = event.1 ∧
        e.key = RateLimitFilter.keyOf event.2 ∧
          e.record = RateLimitFilter.annotate minText e.standsFor event.2 := by
  refine ⟨fun k => ?_, fun event hevent => ?_, counted_run events, mem_emitted_run events⟩
  · rw [map_time_emittedOf, throttle_run]
    exact Throttle.spaced_run _ k
  · have hmem := List.mem_map_of_mem (f := fun event : T × LogRecord =>
      (event.1, RateLimitFilter.keyOf event.2)) hevent
    have hcovered := @Throttle.covered_run Str T _ _ _ fl minInterval _ _ hmem
    rw [← @throttle_run T _ _ fl minInterval minText] at hcovered
    rcases hcovered with h | ⟨e', h, hkey, hlt⟩
    · obtain ⟨e, he, heq⟩ := List.mem_map.mp h
      obtain ⟨htime, hkey⟩ := Prod.mk.inj heq
      exact ⟨e, he, hkey, .inl htime⟩
    · obtain ⟨e, he, rfl⟩ := List.mem_map.mp h
      exact ⟨e, he, hkey, .inr hlt⟩

end LogStream

end TradingPlatform
