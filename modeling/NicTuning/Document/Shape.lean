import NicTuning.Dict
import NicTuning.Json.Number
import NicTuning.Text.Quoted

/-!
# Shapes of documents

Reading a document as a value of an expected shape. What does not fit is described by what was
found and what was expected.
-/
namespace NicTuning.Document

/-- A value of the expected shape, or what is wrong with the document. -/
abbrev Shaped (α : Type) := Except String α

/-- What a document is, in words. -/
def found : Document → String
  | null => "null"
  | flag b => "boolean `" ++ toString b ++ "`"
  | integer n => "integer `" ++ toString n ++ "`"
  | float x => "floating point `" ++ Json.floatText x ++ "`"
  | text s => "string " ++ Text.quoted s
  | list _ => "sequence"
  | map _ => "map"

def wrongType {α : Type} (d : Document) (expected : String) : Shaped α :=
  .error ("invalid type: " ++ d.found ++ ", expected " ++ expected)

def wrongValue {α : Type} (d : Document) (expected : String) : Shaped α :=
  .error ("invalid value: " ++ d.found ++ ", expected " ++ expected)

def asFlag : Document → Shaped Bool
  | flag b => .ok b
  | d => d.wrongType "a boolean"

def asText : Document → Shaped String
  | text s => .ok s
  | d => d.wrongType "a string"

def asUInt32 : Document → Shaped UInt32
  | integer n =>
    if 0 ≤ n ∧ n < UInt32.size then .ok (UInt32.ofNat n.toNat)
    else (integer n).wrongValue "u32"
  | d => d.wrongType "u32"

def asInt64 : Document → Shaped Int64
  | integer n =>
    if Int64.minValue.toInt ≤ n ∧ n ≤ Int64.maxValue.toInt then .ok (Int64.ofInt n)
    else (integer n).wrongValue "i64"
  | d => d.wrongType "i64"

/-- A list whose items are read one after another. -/
def asListOf {α : Type} (item : Document → Shaped α) : Document → Shaped (List α)
  | list items => items.mapM item
  | d => d.wrongType "a sequence"

/-- A map with texts for keys. Of two entries with one key the later counts. -/
def asDictOf {α : Type} (value : Document → Shaped α) : Document → Shaped (Dict α)
  | map entries => do
    let pairs ← entries.mapM fun (k, v) => do
      let k ← asText k
      let v ← value v
      return (k, v)
    return Dict.ofList pairs
  | d => d.wrongType "a map"

/-- Nothing, or a value of the expected shape. -/
def optionally {α : Type} (value : Document → Shaped α) : Document → Shaped (Option α)
  | null => .ok none
  | d => (value d).map some

/-- What to do with the value of each field of a record. -/
abbrev Fields (σ : Type) := List (String × (σ → Document → Shaped σ))

/-- Reads the entries of a record that belong to the given fields, in the order of the text. Other
entries do not count, and no field may come twice. -/
def readFields {σ : Type} (fields : Fields σ) (seen : List String) (s : σ) :
    List (String × Document) → Shaped σ
  | [] => .ok s
  | (k, v) :: rest =>
    match fields.lookup k with
    | none => readFields fields seen s rest
    | some set =>
      if seen.contains k then .error ("duplicate field `" ++ k ++ "`")
      else do readFields fields (k :: seen) (← set s v) rest

end NicTuning.Document
