import NicTuning.Dict
import NicTuning.Text.Blank
import NicTuning.Text.Casing
import NicTuning.Text.Lines

/-!
# Keys with values

Most tools print one value a line, after its key and a colon. The key is what stands before the
first colon, the value what stands between that colon and the end of the line; both are trimmed.
-/
namespace NicTuning.Report

structure KeyValue where
  key : String
  value : String
  deriving DecidableEq, Repr

namespace KeyValue

def isLineEnd (c : Char) : Bool := c == '\n' || c == '\r'

/-- The end of the text or of a line. A carriage return without its line feed is neither. -/
def atLineEnd : List Char → Bool
  | [] | '\n' :: _ | '\r' :: '\n' :: _ => true
  | _ => false

/-- A key and its value at the beginning of a text, with the characters from the end of the value's
line on. The key may span lines but not be empty. -/
def readChars? (cs : List Char) : Option (KeyValue × List Char) :=
  let key := cs.takeWhile (· != ':')
  match key, cs.dropWhile (· != ':') with
  | [], _ | _, [] => none
  | _, _ :: after =>
    let value := after.takeWhile (!isLineEnd ·)
    let rest := after.dropWhile (!isLineEnd ·)
    if atLineEnd rest then
      some (⟨String.ofList (Text.trimChars key), String.ofList (Text.trimChars value)⟩, rest)
    else none

/-- A key and its value at the beginning of a text, with what follows the value. -/
def read? (s : String) : Option (KeyValue × String) :=
  (readChars? s.toList).map fun (entry, rest) => (entry, String.ofList rest)

/-- A text that is a key and its value and nothing more. -/
def ofLine? (line : String) : Option KeyValue :=
  match readChars? line.toList with
  | some (entry, []) => some entry
  | _ => none

/-- The lines that hold a key with a value, by key in lower case. The last of two counts. -/
def table (output : String) : Dict String :=
  let entries := (Text.lines output).filterMap ofLine?
  Dict.ofList ((entries.filter fun e => !e.value.isEmpty).map fun e => (Text.lower e.key, e.value))

end KeyValue

/-- A flag is spelled by the first word of a value. -/
def flag? (value : String) : Option Bool :=
  match Text.words value with
  | "on" :: _ => some true
  | "off" :: _ => some false
  | _ => none

end NicTuning.Report
