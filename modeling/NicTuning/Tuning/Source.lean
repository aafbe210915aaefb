import NicTuning.Fault
import NicTuning.Json.Reader
import NicTuning.Json.Writer
import NicTuning.Text.Utf8
import NicTuning.Tuning.Decoding
import NicTuning.Tuning.Encoding
import NicTuning.Yaml.Reader
import NicTuning.Yaml.Writer

/-!
# Sources of tunings

Tunings and single settings as texts in JSON and YAML, and as files.
-/
namespace NicTuning

/-- What a shape demands, as a fault of a JSON text. -/
def Document.Shaped.ofJson {α : Type} (r : Document.Shaped α) : Except Fault α :=
  r.mapError Fault.jsonShape

/-- A setting in JSON, with nothing after it. -/
def Setting.ofJson (s : String) : Except Fault Setting :=
  match Json.value? Json.maxDepth s.toList with
  | none => .error .jsonSyntax
  | some (d, rest) => do
    let setting ← (Setting.ofDocument d).ofJson
    if (Json.skipSpace rest).isEmpty then return setting else throw .jsonSyntax

namespace Tuning

/-- The entries of a map whose keys are texts. -/
def textEntries (entries : List (Document × Document)) : List (String × Document) :=
  entries.filterMap fun
    | (.text k, v) => some (k, v)
    | _ => none

/-- What stands at the top of a parameter file, in messages. -/
def expected : String := "struct HwConfigParams"

/-- A tuning in JSON. A list is refused as soon as it begins, any other value when it has been
read, and what comes after the value only then. -/
def ofJson (s : String) : Except Fault Tuning :=
  match Json.skipSpace s.toList with
  | '[' :: _ => ((Document.list []).wrongType expected : Document.Shaped Tuning).ofJson
  | cs =>
    match Json.value? Json.maxDepth cs with
    | none => .error .jsonSyntax
    | some (.map entries, rest) => do
      let t ← (ofEntries (textEntries entries)).ofJson
      if (Json.skipSpace rest).isEmpty then return t else throw .jsonSyntax
    | some (d, _) => (d.wrongType expected : Document.Shaped Tuning).ofJson

/-- A tuning in YAML. -/
def ofYaml (s : String) : Except Fault Tuning :=
  match Yaml.readRecord? s with
  | none => .error .yaml
  | some entries => (ofEntries entries).mapError fun _ => .yaml

def toJson (t : Tuning) : String := Json.write t.document

def toYaml (t : Tuning) : String := Yaml.write t.document

/-- What follows the last dot of a file's name, unless the dot is the first character or there is
none. -/
def extension? (name : List Char) : Option (List Char) :=
  if name.contains '.' then
    let stem := (name.reverse.dropWhile (· != '.')).drop 1
    if stem.isEmpty || name = ['.', '.'] then none
    else some (name.reverse.takeWhile (· != '.')).reverse
  else none

/-- The last part of a path. Slashes at its end and parts that are a dot do not count. -/
def fileName (path : String) : List Char :=
  let parts := (path.toList.splitOn '/').filter fun p => !p.isEmpty
  match parts with
  | [] => []
  | first :: rest => ((first :: rest.filter (· != ['.'])).getLast?).getD []

/-- The name of a YAML file, by its extension. -/
def isYamlName (path : String) : Bool :=
  (extension? (fileName path)).any fun ext =>
    let ext := ext.map Char.toLower
    ext == "yaml".toList || ext == "yml".toList

/-- A tuning from a file with the given content, which is JSON unless the file's name tells it is
YAML. -/
def ofFile (path : String) (content : Except String (List UInt8)) : Except Fault Tuning :=
  match content with
  | .error cause => .error (.io cause)
  | .ok bytes =>
    match Text.decode? bytes with
    | none => .error (.io "stream did not contain valid UTF-8")
    | some s => if isYamlName path then ofYaml s else ofJson s

end Tuning

end NicTuning
