/-!
# Faults

What can go wrong while parameters are read and devices are tuned. Each fault is a cause, and
`message` puts it into words.
-/
namespace NicTuning

/-- One remark about one parameter. -/
structure Issue where
  field : String
  message : String
  deriving DecidableEq, Repr

namespace Issue

def text (i : Issue) : String := i.field ++ ": " ++ i.message

end Issue

inductive Fault
  /-- A program could not be started or a file could not be read. -/
  | io (cause : String)
  /-- A text is no JSON. -/
  | jsonSyntax
  /-- A text is JSON, but not what was expected. -/
  | jsonShape (cause : String)
  /-- A text is no YAML, or not what was expected. -/
  | yaml
  /-- A value is outside of the accepted ones. -/
  | invalidParameter (name explanation : String)
  /-- Parameters did not pass validation. -/
  | rejected (issues : List Issue)
  /-- A command ended with a code other than zero. -/
  | remoteCommand (host command : String) (exitCode : Int) (stderr : String)
  /-- The output of a command could not be understood. -/
  | parse (cause : String)
  /-- A device has no such attribute. -/
  | unsupportedAttribute (device name : String)
  /-- A layer was to be applied on top of itself. -/
  | alreadyConfigured (layer : String)
  deriving DecidableEq

namespace Fault

def message : Fault → String
  | io cause => "I/O error: " ++ cause
  | jsonSyntax => "JSON error: "
  | jsonShape cause => "JSON error: " ++ cause
  | yaml => "YAML error: "
  | invalidParameter name explanation => "invalid parameter " ++ name ++ ": " ++ explanation
  | rejected issues => "validation failed: " ++ "; ".intercalate (issues.map Issue.text)
  | remoteCommand host command exitCode stderr =>
    host ++ ": `" ++ command ++ "` failed with exit code " ++ toString exitCode ++ ": " ++ stderr
  | parse cause => "parse error: " ++ cause
  | unsupportedAttribute device name => device ++ ": unsupported attribute " ++ name
  | alreadyConfigured layer => layer ++ " is already configured"

/-- Whoever gave the parameters is to blame. -/
def isInvalidInput : Fault → Bool
  | invalidParameter .. | rejected _ => true
  | _ => false

def isRemoteFailure : Fault → Bool
  | remoteCommand .. => true
  | _ => false

/-- The code with which the command ended, if one is to blame. -/
def exitCode? : Fault → Option Int
  | remoteCommand _ _ code _ => some code
  | _ => none

end Fault

end NicTuning
