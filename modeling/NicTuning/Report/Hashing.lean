import NicTuning.Report.KeyValue

/-!
# Receive hashing

How a device spreads received packets over its queues: the hash function that is on, and the
fields of a packet that are hashed for a type of flow, each with its letter.
-/
namespace NicTuning.Report.Hashing

def startsBlank (line : String) : Bool := line.toList.head?.any Text.isBlank

/-- The indented lines directly below the heading of the hash functions. -/
def functionLines (output : String) : List String :=
  let lines := (Text.lines output).dropWhile fun line => Text.trim line != "RSS hash function:"
  (lines.drop 1).takeWhile startsBlank

/-- The first hash function that is on. -/
def function? (output : String) : Option String :=
  let entries := (functionLines output).filterMap KeyValue.ofLine?
  (entries.find? fun e => flag? e.value = some true).map KeyValue.key

/-- The fields that can be hashed and their letters, in the order of the letters in a setting. -/
def fields : List (String × Char) :=
  [("L2DA", 'm'), ("VLAN tag", 'v'), ("L3 proto", 't'), ("IP SA", 's'), ("IP DA", 'd'),
    ("L4 bytes 0 & 1 [TCP/UDP src port]", 'f'), ("L4 bytes 2 & 3 [TCP/UDP dst port]", 'n')]

/-- The letters of the fields in a report, whose first line is a title. -/
def flowFields (output : String) : String :=
  let lines := ((Text.lines output).drop 1).map Text.trim
  String.ofList ((fields.filter fun f => lines.contains f.1).map Prod.snd)

end NicTuning.Report.Hashing
