import Mathlib

/-!
# JSON values

The values that a JSON text denotes, in a language whose strings are sequences of code points: a
code point is a character, or half of a surrogate pair that stands alone
(`TradingPlatform.CodePoint`). What a float is, is left open (`TradingPlatform.FloatFormat` says
what a reader and a writer need to know of it).

A JSON object is the list of its fields. A reader that meets a key again keeps its first place and
its last value (`TradingPlatform.dictOf`), so not every list of fields comes back from a text:
`TradingPlatform.JsonValue.Proper` says which values do. `TradingPlatform.JsonValue.ind` is the
induction over a value: a property of the items holds of the array.
-/

namespace TradingPlatform

/-! ### Strings -/

/-- A code point: a Unicode scalar value, or one half of a surrogate pair on its own. -/
inductive CodePoint
  | scalar (c : Char)
  | high (bits : Fin 1024)
  | low (bits : Fin 1024)
  deriving DecidableEq

/-- A string is a sequence of code points. -/
abbrev Str := List CodePoint

instance Str.lawfulBEq : LawfulBEq Str := List.instLawfulBEq

/-- A string of characters. -/
def Str.ofString (s : String) : Str := s.toList.map .scalar

theorem Str.ofString_injective : Function.Injective Str.ofString := by
  intro s s' h
  have hinj : Function.Injective CodePoint.scalar := fun _ _ heq => CodePoint.scalar.inj heq
  exact String.toList_inj.mp (hinj.list_map h)

/-- The characters of a string that has no lone half of a surrogate pair. -/
def Str.toText? : Str → Option (List Char)
  | [] => some []
  | .scalar c :: cs => (Str.toText? cs).map (c :: ·)
  | .high _ :: _ | .low _ :: _ => none

@[simp] theorem Str.toText?_map_scalar (cs : List Char) :
    Str.toText? (cs.map CodePoint.scalar) = some cs := by
  induction cs with
  | nil => rfl
  | cons c cs ih => rw [List.map_cons, Str.toText?, ih, Option.map_some]

theorem Str.toText?_eq_some {s : Str} {cs : List Char} (h : s.toText? = some cs) :
    s = cs.map .scalar := by
  induction s generalizing cs with
  | nil =>
    obtain rfl : [] = cs := Option.some.inj h
    rfl
  | cons c s ih =>
    cases c with
    | scalar c =>
      obtain ⟨cs', hcs', rfl⟩ := Option.map_eq_some_iff.mp h
      rw [ih hcs', List.map_cons]
    | high bits => cases h
    | low bits => cases h

/-- No first half of a surrogate pair stands right before a second half. -/
def Str.Apart (s : Str) : Prop :=
  s.IsChain fun p q => ∀ hi lo, p = .high hi → q ≠ .low lo

theorem Str.apart_map_scalar (cs : List Char) : Str.Apart (cs.map CodePoint.scalar) := by
  induction cs with
  | nil => exact List.IsChain.nil
  | cons c cs ih =>
    refine List.isChain_cons.mpr ⟨?_, ih⟩
    rintro q - hi lo hc
    cases hc

/-! ### Floats -/

/-- A float, over some type of finite ones. -/
inductive PyFloat (F : Type)
  | finite (x : F)
  | infinity (negative : Bool)
  | nan
  deriving DecidableEq

/-! ### Values -/

inductive JsonValue (F : Type)
  | null
  | bool (b : Bool)
  | int (n : ℤ)
  | float (x : PyFloat F)
  | str (s : Str)
  | arr (items : List (JsonValue F))
  | obj (fields : List (Str × JsonValue F))

section Dict

variable {κ ν : Type*} [DecidableEq κ]

/-- Set a field: in its place if there is one, else at the end. -/
def setField (fields : List (κ × ν)) (key : κ) (value : ν) : List (κ × ν) :=
  if key ∈ fields.map Prod.fst then
    fields.map fun field => if field.1 = key then (key, value) else field
  else fields ++ [(key, value)]

/-- The object that some fields make, one after the other. -/
def dictOf (fields : List (κ × ν)) : List (κ × ν) :=
  fields.foldl (fun dict field => setField dict field.1 field.2) []

theorem setField_of_notMem {fields : List (κ × ν)} {key : κ} (h : key ∉ fields.map Prod.fst)
    (value : ν) : setField fields key value = fields ++ [(key, value)] := if_neg h

/-- Fields with different keys are an object. -/
theorem dictOf_eq_self {fields : List (κ × ν)} (h : (fields.map Prod.fst).Nodup) :
    dictOf fields = fields := by
  suffices haux : ∀ (before after : List (κ × ν)), ((before ++ after).map Prod.fst).Nodup →
      after.foldl (fun dict field => setField dict field.1 field.2) before = before ++ after from
    haux [] fields h
  intro before after hnd
  induction after generalizing before with
  | nil => exact (List.append_nil before).symm
  | cons field after ih =>
    have hnot : field.1 ∉ before.map Prod.fst := by
      intro hmem
      rw [List.map_append, List.nodup_append] at hnd
      exact hnd.2.2 _ hmem _ List.mem_cons_self rfl
    have hsplit : before ++ field :: after = (before ++ [field]) ++ after := by simp
    rw [List.foldl_cons, setField_of_notMem hnot, hsplit]
    exact ih _ (hsplit ▸ hnd)

end Dict

section Lookup

variable {κ ν : Type*} [BEq κ] [LawfulBEq κ]

theorem lookup_of_notMem {fields : List (κ × ν)} {key : κ} (h : key ∉ fields.map Prod.fst) :
    fields.lookup key = none := by
  rw [List.lookup_eq_none_iff]
  intro field hfield
  rw [bne_iff_ne]
  exact fun heq => h (heq ▸ List.mem_map_of_mem hfield)

end Lookup

namespace JsonValue

variable {F : Type}

/-- **Induction over a value.** -/
@[elab_as_elim]
theorem ind {motive : JsonValue F → Prop} (null : motive .null) (bool : ∀ b, motive (.bool b))
    (int : ∀ n, motive (.int n)) (float : ∀ x, motive (.float x)) (str : ∀ s, motive (.str s))
    (arr : ∀ items, (∀ item ∈ items, motive item) → motive (.arr items))
    (obj : ∀ fields, (∀ field ∈ fields, motive field.2) → motive (.obj fields))
    (v : JsonValue F) : motive v := by
  refine @JsonValue.rec F motive (fun items => ∀ item ∈ items, motive item)
    (fun fields => ∀ field ∈ fields, motive field.2) (fun field => motive field.2)
    null bool int float str arr obj ?_ ?_ ?_ ?_ (fun _ _ h => h) v
  · exact fun _ h => absurd h List.not_mem_nil
  · intro item items hitem hitems item' hmem
    rcases List.mem_cons.mp hmem with rfl | hmem
    · exact hitem
    · exact hitems item' hmem
  · exact fun _ h => absurd h List.not_mem_nil
  · intro field fields hfield hfields field' hmem
    rcases List.mem_cons.mp hmem with rfl | hmem
    · exact hfield
    · exact hfields field' hmem

/-- **A value whose text denotes it again**: the keys of every object are different, and the two
halves of a surrogate pair do not stand side by side in a string. -/
inductive Proper : JsonValue F → Prop
  | null : Proper .null
  | bool (b : Bool) : Proper (.bool b)
  | int (n : ℤ) : Proper (.int n)
  | float (x : PyFloat F) : Proper (.float x)
  | str {s : Str} (h : s.Apart) : Proper (.str s)
  | arr {items : List (JsonValue F)} (h : ∀ item ∈ items, Proper item) : Proper (.arr items)
  | obj {fields : List (Str × JsonValue F)} (hkeys : (fields.map Prod.fst).Nodup)
      (hapart : ∀ field ∈ fields, Str.Apart field.1) (h : ∀ field ∈ fields, Proper field.2) :
      Proper (.obj fields)

/-- An object, from fields with texts for keys. -/
def ofRecord (fields : List (String × JsonValue F)) : JsonValue F :=
  .obj (fields.map fun field => (Str.ofString field.1, field.2))

theorem proper_ofRecord {fields : List (String × JsonValue F)}
    (hkeys : (fields.map Prod.fst).Nodup) (h : ∀ field ∈ fields, Proper field.2) :
    Proper (ofRecord fields) := by
  refine .obj ?_ (fun field hfield => ?_) fun field hfield => ?_
  · have hfst : (fields.map fun field => (Str.ofString field.1, field.2)).map Prod.fst =
        (fields.map Prod.fst).map Str.ofString := by
      rw [List.map_map, List.map_map]
      rfl
    rw [hfst]
    exact hkeys.map Str.ofString_injective
  · obtain ⟨field, -, rfl⟩ := List.mem_map.mp hfield
    exact Str.apart_map_scalar field.1.toList
  · obtain ⟨field, hmem, rfl⟩ := List.mem_map.mp hfield
    exact h field hmem

/-- A value that is written as a number. -/
def isNumber : JsonValue F → Bool
  | .int _ | .float _ => true
  | .null | .bool _ | .str _ | .arr _ | .obj _ => false

/-- The field of an object. -/
def field? (fields : List (Str × JsonValue F)) (key : String) : Option (JsonValue F) :=
  fields.lookup (Str.ofString key)

end JsonValue

end TradingPlatform
