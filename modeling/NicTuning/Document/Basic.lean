import NicTuning.Binary64.Shortest

/-!
# Documents

What a JSON or YAML text says, whatever its layout: nested lists and maps of plain values. A map
keeps its entries in the order of the text, a key may come several times, and keys may be any
value because YAML allows that.
-/
namespace NicTuning

inductive Document
  | null
  | flag (b : Bool)
  | integer (n : Int)
  | float (x : Binary64)
  | text (s : String)
  | list (items : List Document)
  | map (entries : List (Document × Document))

namespace Document

instance : Inhabited Document := ⟨null⟩

/-- A map with texts for keys. -/
def record (entries : List (String × Document)) : Document :=
  map (entries.map fun e => (text e.1, e.2))

end Document

end NicTuning
