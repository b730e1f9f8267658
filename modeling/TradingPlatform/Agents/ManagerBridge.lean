import TradingPlatform.AtomicFile
import TradingPlatform.Dict
import TradingPlatform.Execution.BudgetFile
import TradingPlatform.Execution.RecordCodec

/-!
# From the manager to the sleeves

The multipliers of a reallocation are handed over in a file: the job writes it, and the sizing reads
it whenever an agent's cap is computed. The file is filled beside its place and then renamed, so
that a crash leaves the multipliers of the last writing that was finished
(`TradingPlatform.SleeveWeights.read_run`): the sizing never goes by a part of a reallocation, and
what it reads are the decimals that were written, digit by digit.
-/

namespace TradingPlatform

variable {F : Type} (ff : FloatFormat F) (tables : UnicodeTables) (lower : Str → Str)

/-- Multipliers, as the job has them. -/
abbrev SleeveWeights := Dict AgentId FiniteDecimal

namespace SleeveWeights

/-- The object that is written. -/
def payload (weights : SleeveWeights) : JsonValue F :=
  .ofRecord (weights.entries.map fun e => (e.1.value, .str (e.2.text.map .scalar)))

/-- The text that the source's `write_sleeve_weights` writes. -/
def fileText (weights : SleeveWeights) : List Char := dumps ff (.indented 2) weights.payload

/-- A field that names an agent and has a decimal. The others are skipped. -/
def weightOf (field : Str × JsonValue F) : Option (AgentId × DecimalValue) :=
  match AgentId.ofValue (lower field.1) with
  | none => none
  | some agentId => (field.2.strToDecimal ff tables).toOption.map (agentId, ·)

/-- The source's `read_sleeve_weights`. -/
def readSleeveWeights (file : FileContent) : Dict AgentId DecimalValue :=
  match file with
  | .absent | .undecodable => .empty
  | .text cs =>
    match loads ff cs with
    | some (.obj fields) => .ofList (fields.filterMap (weightOf ff tables lower))
    | _ => .empty

/-- What there is to read at a place in the file system. -/
def content (file : Option (List Char)) : FileContent :=
  match file with
  | none => .absent
  | some cs => .text cs

theorem value_injective : Function.Injective AgentId.value := by
  intro a b h
  cases a <;> cases b <;> first | rfl | exact absurd h (by decide)

theorem proper_payload (weights : SleeveWeights) : (weights.payload : JsonValue F).Proper := by
  refine JsonValue.proper_ofRecord ?_ fun field hfield => ?_
  · rw [List.map_map]
    have hkeys : weights.entries.map (Prod.fst ∘ fun e : AgentId × FiniteDecimal =>
        (e.1.value, (.str (e.2.text.map .scalar) : JsonValue F))) =
          weights.keys.map AgentId.value := by
      rw [Dict.keys, List.map_map]
      rfl
    rw [hkeys]
    exact weights.nodup_keys.map value_injective
  · obtain ⟨e, -, rfl⟩ := List.mem_map.mp hfield
    exact .str (Str.apart_map_scalar _)

/-- **Multipliers are read back**, with their exponents. -/
theorem readSleeveWeights_fileText
    (hlower : ∀ agentId : AgentId, lower (Str.ofString agentId.value) = Str.ofString agentId.value)
    (weights : SleeveWeights) :
    readSleeveWeights ff tables lower (.text (weights.fileText ff)) =
      weights.mapValues .finite := by
  rw [readSleeveWeights, fileText, loads_dumps ff _ (proper_payload weights)]
  have hfields : (weights.entries.map fun e : AgentId × FiniteDecimal =>
      (Str.ofString e.1.value, (.str (e.2.text.map .scalar) : JsonValue F))).filterMap
        (weightOf ff tables lower) = (weights.mapValues DecimalValue.finite).entries := by
    have heach : ∀ e : AgentId × FiniteDecimal, weightOf ff tables lower
        (Str.ofString e.1.value, (.str (e.2.text.map .scalar) : JsonValue F)) =
          some (e.1, DecimalValue.finite e.2) := by
      intro e
      rw [weightOf, hlower, AgentId.ofValue_value]
      dsimp only
      rw [JsonValue.strToDecimal, decimalOfText_text]
      rfl
    rw [List.filterMap_map]
    exact (List.filterMap_congr fun e _ => heach e).trans (congrFun List.filterMap_eq_map _)
  refine Dict.eq_of_entries_eq ?_
  show (Dict.ofList ((weights.entries.map _).map _ |>.filterMap _)).entries = _
  rw [List.map_map]
  exact (congrArg (fun l => (Dict.ofList l).entries) hfields).trans
    (Dict.entries_ofList (weights.mapValues DecimalValue.finite).nodup_keys)

/-- **What is read is what was written last**, however often the process has stopped in the middle
of a writing, and whether or not a writing is going on: the multipliers of the last writing that was
finished, and none before the first. -/
theorem read_run
    (hlower : ∀ agentId : AgentId, lower (Str.ofString agentId.value) = Str.ofString agentId.value)
    (ops : List (AtomicFile.Step SleeveWeights)) :
    let s := run (AtomicFile.step (fileText ff)) .absent ops
    readSleeveWeights ff tables lower (content s.file) =
      (s.finished.getLast?.getD .empty).mapValues .finite := by
  intro s
  have hfile : s.file = s.finished.getLast?.map (fileText ff) := AtomicFile.file_run _ ops
  rw [hfile]
  rcases s.finished.getLast? with _ | weights
  · rfl
  · exact readSleeveWeights_fileText ff tables lower hlower weights

/-! ### A crash -/

def asciiLower (s : Str) : Str :=
  s.map fun
    | .scalar c => .scalar c.toLower
    | c => c

theorem asciiLower_value (agentId : AgentId) :
    asciiLower (Str.ofString agentId.value) = Str.ofString agentId.value := by
  cases agentId <;> decide

/-- The first multipliers: a fifth more for Haiku, and 0.850 for Sonnet. -/
def raisedWeights : SleeveWeights :=
  (Dict.empty.set .haiku ⟨false, 12, -1, by decide⟩).set .sonnet ⟨false, 850, -3, by decide⟩

/-- Four weeks later the process stops after ten characters. -/
def crashedOps : List (AtomicFile.Step SleeveWeights) :=
  [.begin raisedWeights, .fill 7, .fill 100, .rename, .begin .empty, .fill 10, .stop]

theorem read_crashedOps :
    readSleeveWeights decimalFloats .ascii asciiLower
        (content (run (AtomicFile.step (fileText decimalFloats)) .absent crashedOps).file) =
      raisedWeights.mapValues .finite := by
  have hfinished : (run (AtomicFile.step (fileText decimalFloats)) .absent
      crashedOps).finished = [raisedWeights] := by rfl
  have hread := read_run decimalFloats .ascii asciiLower asciiLower_value crashedOps
  dsimp only at hread
  rw [hfinished] at hread
  exact hread

end SleeveWeights

end TradingPlatform
