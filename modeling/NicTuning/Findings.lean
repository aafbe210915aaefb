import NicTuning.Fault

/-!
# Findings

What an examination of parameters brings to light. Errors forbid their use and warnings do not.
Findings of several examinations are appended, and `check` refuses those with an error.
-/
namespace NicTuning

structure Findings where
  errors : List Issue
  warnings : List Issue
  deriving DecidableEq

namespace Findings

def none : Findings := ⟨[], []⟩

def error (field message : String) : Findings := ⟨[⟨field, message⟩], []⟩

def warning (field message : String) : Findings := ⟨[], [⟨field, message⟩]⟩

instance : Append Findings := ⟨fun a b => ⟨a.errors ++ b.errors, a.warnings ++ b.warnings⟩⟩

@[simp] theorem errors_append (a b : Findings) : (a ++ b).errors = a.errors ++ b.errors := rfl

@[simp] theorem warnings_append (a b : Findings) : (a ++ b).warnings = a.warnings ++ b.warnings :=
  rfl

def join (l : List Findings) : Findings := l.foldr (· ++ ·) none

def isValid (f : Findings) : Bool := f.errors.isEmpty

def hasWarnings (f : Findings) : Bool := !f.warnings.isEmpty

theorem isValid_append (a b : Findings) : (a ++ b).isValid = (a.isValid && b.isValid) := by
  cases h : a.errors <;> simp [isValid, h]

/-- Every finding in words and whether it is an error, errors first. -/
def issues (f : Findings) : List (String × Bool) :=
  f.errors.map (fun i => ("error in '" ++ i.field ++ "': " ++ i.message, true)) ++
    f.warnings.map (fun i => ("warning in '" ++ i.field ++ "': " ++ i.message, false))

/-- Refuses findings with an error. -/
def check (f : Findings) : Except Fault Unit :=
  if f.isValid then .ok () else .error (.rejected f.errors)

/-- An interface name has one to fifteen octets and no slash, blank or null. -/
def interfaceName (field name : String) : Findings :=
  if name.isEmpty then error field "interface name cannot be empty"
  else
    let octets := name.utf8ByteSize
    (if octets > 15 then
      error field ("interface name too long (" ++ toString octets ++ " > 15 chars)")
    else none) ++
    (if name.toList.any fun c => c == '/' || c == '\x00' || c == ' ' then
      error field "interface name contains invalid characters"
    else none)

/-- The least transfer unit that suits version 4 of the internet protocol. -/
def leastMtu : UInt32 := 68

/-- The greatest transfer unit that any driver accepts. -/
def greatestMtu : UInt32 := 65535

def mtu (field : String) (value : UInt32) : Findings :=
  if value < leastMtu ∨ greatestMtu < value then
    error field ("MTU must be " ++ toString leastMtu ++ "-" ++ toString greatestMtu ++ ", got " ++
      toString value)
  else if 9000 < value then
    warning field ("MTU " ++ toString value ++ " exceeds most jumbo frame limits")
  else none

/-- A character of the keys that the tools know. -/
def isKeyChar (c : Char) : Bool := c.isLower || c.isDigit || c == '-' || c == '_'

/-- A key is a word over small letters, digits, the hyphen and the underscore. -/
def toolKey (field key : String) : Findings :=
  if key.isEmpty then error field "key cannot be empty"
  else if key.toList.all isKeyChar then none
  else error field ("invalid key '" ++ key ++ "'")

/-- A list with an entry for each device is as long as the list of devices. -/
def positional (field : String) (entries devices : Nat) : Findings :=
  if entries = devices then none
  else error field (toString entries ++ " entries given for " ++ toString devices ++
    " target devices")

end Findings

end NicTuning
