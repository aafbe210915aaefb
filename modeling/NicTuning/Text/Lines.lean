/-!
# Lines

A line ends with a line feed, and a carriage return directly before that line feed belongs to the
end and not to the line. What follows the last line feed is a line of its own unless it is empty.
-/
namespace NicTuning.Text

/-- A line without the carriage return that its line feed brought along. -/
def dropReturn (line : List Char) : List Char :=
  if line.getLast? = some '\r' then line.dropLast else line

/-- The lines of a list of characters. -/
def lineChars (cs : List Char) : List (List Char) :=
  let pieces := cs.splitOn '\n'
  pieces.dropLast.map dropReturn ++ (pieces.getLast?.toList.filter fun p => !p.isEmpty)

/-- The lines of a text. -/
def lines (s : String) : List String := (lineChars s.toList).map String.ofList

/-- The text in which each of the lines ends with a line feed. -/
def ofLines (ls : List String) : String := String.join (ls.map (· ++ "\n"))

end NicTuning.Text
