import TradingPlatform.Run

/-!
# A file that is replaced at once

A text is written to a file by way of a second file beside it. The second file is emptied, filled
bit by bit, and then renamed to the first. The process may stop in the middle of this, as often as
it likes: the file has the text of the last writing that was finished
(`TradingPlatform.AtomicFile.file_run`), and never a part of one.

One text is written at a time. Two writings at once would fill the same second file.

Nothing here is about any one program.
-/

namespace TradingPlatform

variable {π χ : Type*}

/-- The two files, what is being written, and what of its text is still to come; and everything
that was written to the end. -/
structure AtomicFile (π χ : Type*) where
  file : Option (List χ)
  temp : Option (List χ)
  pending : Option (π × List χ)
  finished : List π

namespace AtomicFile

inductive Step (π : Type*)
  /-- The second file is opened, which empties it. -/
  | begin (payload : π)
  /-- So many characters are written to it. -/
  | fill (n : ℕ)
  | rename
  /-- The process stops, or the writing is given up. -/
  | stop

def absent : AtomicFile π χ := ⟨none, none, none, []⟩

variable (text : π → List χ)

def step (s : AtomicFile π χ) : Step π → AtomicFile π χ
  | .begin payload =>
    match s.pending with
    | none => { s with temp := some [], pending := some (payload, text payload) }
    | some _ => s
  | .fill n =>
    match s.pending with
    | none => s
    | some (payload, rest) =>
      { s with
        temp := s.temp.map (· ++ rest.take n)
        pending := some (payload, rest.drop n) }
  | .rename =>
    match s.pending with
    | some (payload, []) => ⟨s.temp, none, none, s.finished ++ [payload]⟩
    | _ => s
  | .stop => { s with pending := none }

/-- The file has what was finished last, and the second file has the beginning of what is being
written. -/
structure Inv (s : AtomicFile π χ) : Prop where
  file : s.file = s.finished.getLast?.map text
  temp : ∀ payload rest, s.pending = some (payload, rest) →
    ∃ written, s.temp = some written ∧ text payload = written ++ rest

variable {text} {s : AtomicFile π χ}

theorem inv_absent : Inv text (absent : AtomicFile π χ) where
  file := rfl
  temp _ _ h := by cases h

theorem Inv.step (hs : Inv text s) (op : Step π) : Inv text (s.step text op) := by
  cases op with
  | begin payload =>
    rw [AtomicFile.step]
    rcases hpending : s.pending with _ | writing
    · refine ⟨hs.file, fun payload' rest h => ?_⟩
      cases h
      exact ⟨[], rfl, rfl⟩
    · exact hs
  | fill n =>
    rw [AtomicFile.step]
    rcases hpending : s.pending with _ | ⟨payload, rest⟩
    · exact hs
    · refine ⟨hs.file, fun payload' rest' h => ?_⟩
      cases h
      obtain ⟨written, htemp, htext⟩ := hs.temp payload rest hpending
      refine ⟨written ++ rest.take n, congrArg (Option.map (· ++ rest.take n)) htemp, ?_⟩
      rw [htext, List.append_assoc, List.take_append_drop]
  | rename =>
    rw [AtomicFile.step]
    rcases hpending : s.pending with _ | ⟨payload, _ | ⟨c, rest⟩⟩
    · exact hs
    · -- the whole text is there
      obtain ⟨written, htemp, htext⟩ := hs.temp payload [] hpending
      refine ⟨?_, fun _ _ h => by cases h⟩
      rw [List.getLast?_concat, Option.map_some, htemp, htext, List.append_nil]
    · exact hs
  | stop => exact ⟨hs.file, fun _ _ h => by cases h⟩

/-- **The file has what was finished last**, wherever the process has stopped. -/
theorem file_run (text : π → List χ) (ops : List (Step π)) :
    (run (step text) absent ops).file =
      (run (step text) absent ops).finished.getLast?.map text := by
  have hstep : ∀ s op, Inv text s → True → Inv text (step text s op) := fun _ op hs _ => hs.step op
  exact ((along_of_forall (fun _ _ => trivial) ops).invariant hstep inv_absent).file

end AtomicFile

end TradingPlatform
