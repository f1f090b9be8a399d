import Mathlib.Tactic.Common

/-!
# The command line of the launched program

A command as the caller gives it, each part as its UTF-16 units (`encode_wide`): what
`wide_command` accepts of it, and the one string `launch_and_wait` makes of it for
`CreateProcessW`.
-/

namespace SteamInputLease
namespace Launch

/-- The library's `Error`. An `io::Error` is kept as the text it displays. -/
inductive Error
  | targetNotFound (name : String)
  | ambiguousTarget (name : String) (firstProcessId secondProcessId : UInt32)
  | payloadNotFound (path : String)
  | architectureMismatch
  | protocol (text : String)
  | payloadUnavailable (context source : String)
  | unsupportedSteamBuild (text : String)
  | windows (operation source : String)
  | message (text : String)
  deriving DecidableEq, Repr

/-- `Display`. -/
def Error.display : Error → String
  | .targetNotFound name => s!"target process is not running: {name}"
  | .ambiguousTarget name first second =>
    s!"multiple {name} processes run in this Windows session ({first} and {second}); " ++
      "refusing to choose an injection target"
  | .payloadNotFound path => s!"payload not found: {path}"
  | .architectureMismatch => "the library and target process have different architectures"
  | .protocol text => text
  | .unsupportedSteamBuild text => text
  | .message text => text
  | .payloadUnavailable context source => s!"{context}: {source}"
  | .windows operation source => s!"{operation}: {source}"

/-! ## Units -/

/-- `b'"'`. -/
def quote : UInt16 := 0x22

/-- `b'\\'`. -/
def backslash : UInt16 := 0x5c

/-- `b' '`. -/
def space : UInt16 := 0x20

/-- `b'\t'`. -/
def tab : UInt16 := 0x09

/-! ## From the command to the command line -/

/-- `wide_command`. -/
def wideCommand (arguments : List (List UInt16)) : Except Error (List (List UInt16)) :=
  match arguments with
  | [] => .error (.message "the wrapped command is empty")
  | [] :: _ => .error (.message "the wrapped executable name is empty")
  | _ =>
    match arguments.findIdx? fun argument => argument.contains 0 with
    | some index =>
      .error (.message s!"wrapped command argument {index} contains a NUL character")
    | none => .ok arguments

/-- `matches!(*unit, 0x20 | 0x09 | 0x0a | 0x0b | 0x22)`. -/
def needsQuotes (unit : UInt16) : Bool :=
  unit == 0x20 || unit == 0x09 || unit == 0x0a || unit == 0x0b || unit == 0x22

/-- The loop of `quote_argument`, with the backslashes seen since the last other unit, and what
    follows it. -/
def quoteLoop : List UInt16 → Nat → List UInt16 → List UInt16
  | [], backslashes, result => result ++ List.replicate (backslashes * 2) backslash ++ [quote]
  | unit :: value, backslashes, result =>
    if unit = backslash then quoteLoop value (backslashes + 1) result
    else if unit = quote then
      quoteLoop value 0 (result ++ List.replicate (backslashes * 2 + 1) backslash ++ [unit])
    else quoteLoop value 0 (result ++ List.replicate backslashes backslash ++ [unit])

/-- `quote_argument`. -/
def quoteArgument (value : List UInt16) : List UInt16 :=
  if value.isEmpty then [quote, quote]
  else if !value.any needsQuotes then value
  else quoteLoop value 0 [quote]

/-- The loop of `launch_and_wait` over the arguments. -/
def joinLoop : List (List UInt16) → List UInt16 → List UInt16
  | [], commandLine => commandLine
  | argument :: arguments, commandLine =>
    let commandLine := if commandLine.isEmpty then commandLine else commandLine ++ [space]
    joinLoop arguments (commandLine ++ quoteArgument argument)

/-- The command line `CreateProcessW` gets, with its terminating NUL. -/
def commandLine (arguments : List (List UInt16)) : List UInt16 :=
  joinLoop arguments [] ++ [0]

end Launch
end SteamInputLease
