/-!
# Beginnings and replacements

What follows the beginning of a text, and a text with one character in place of another.
-/
namespace NicTuning.Text

/-- The text begins with `beginning`. -/
def begins (beginning s : String) : Bool := beginning.toList.isPrefixOf s.toList

/-- What follows `beginning` in a text that begins with it. -/
def after? (beginning s : String) : Option String :=
  if begins beginning s then some (String.ofList (s.toList.drop beginning.length))
  else none

theorem after?_append (beginning s : String) : after? beginning (beginning ++ s) = some s := by
  simp [after?, begins, String.toList_append, ← String.length_toList]

/-- The text with `new` for every `old`. -/
def replaceChar (old new : Char) (s : String) : String :=
  String.ofList (s.toList.map fun c => if c = old then new else c)

end NicTuning.Text
