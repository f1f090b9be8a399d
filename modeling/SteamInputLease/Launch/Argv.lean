import SteamInputLease.Launch.CommandLine

/-!
# `CommandLineToArgvW`

How a program takes its command line apart, after the Windows documentation. The program name
has a rule of its own. In the arguments `2n` backslashes before a quote are `n` backslashes and
the quote begins or ends quoting, `2n + 1` are `n` backslashes and a literal quote, and other
backslashes stand for themselves; a doubled quote inside quotes is a literal quote; a blank
outside quotes separates.
-/

namespace SteamInputLease
namespace Launch

/-- Space or tab. -/
def isBlank (unit : UInt16) : Bool := unit == space || unit == tab

/-- Where the parser of the arguments is. -/
inductive Parse
  /-- No argument has begun. -/
  | between
  /-- In `argument`, whose last `backslashes` backslashes are still to be decided. -/
  | inside (quoted : Bool) (backslashes : Nat) (argument : List UInt16)
  /-- Right behind a quote that stood inside quotes. -/
  | closing (argument : List UInt16)
  deriving DecidableEq, Repr

/-- `unit` inside an argument: on in the argument, or `none` where it ends. -/
def parseInside (quoted : Bool) (backslashes : Nat) (argument : List UInt16) (unit : UInt16) :
    Option Parse :=
  if unit = backslash then some (.inside quoted (backslashes + 1) argument)
  else if unit = quote then
    let argument := argument ++ List.replicate (backslashes / 2) backslash
    if backslashes % 2 = 1 then some (.inside quoted 0 (argument ++ [quote]))
    else if quoted then some (.closing argument)
    else some (.inside true 0 argument)
  else if isBlank unit && !quoted then none
  else some (.inside quoted 0 (argument ++ List.replicate backslashes backslash ++ [unit]))

/-- The arguments after the program name. `stay` is whether quoting goes on behind a doubled
    quote, where the C runtimes differ. -/
def parseArguments (stay : Bool) : Parse → List UInt16 → List (List UInt16)
  | .between, [] => []
  | .inside _ backslashes argument, [] => [argument ++ List.replicate backslashes backslash]
  | .closing argument, [] => [argument]
  | .between, unit :: units =>
    match parseInside false 0 [] unit with
    | some p => parseArguments stay p units
    | none => parseArguments stay .between units
  | .inside quoted backslashes argument, unit :: units =>
    match parseInside quoted backslashes argument unit with
    | some p => parseArguments stay p units
    | none =>
      (argument ++ List.replicate backslashes backslash) :: parseArguments stay .between units
  | .closing argument, unit :: units =>
    if unit = quote then parseArguments stay (.inside stay 0 (argument ++ [quote])) units
    else match parseInside false 0 argument unit with
      | some p => parseArguments stay p units
      | none => argument :: parseArguments stay .between units

/-- The program name and what follows it: up to the next quote when a quote begins it, else up
    to the first blank. Backslashes mean nothing in it. -/
def programName : List UInt16 → List UInt16 × List UInt16
  | [] => ([], [])
  | unit :: units =>
    if unit = quote then
      (units.takeWhile (· != quote), (units.dropWhile (· != quote)).drop 1)
    else ((unit :: units).takeWhile (!isBlank ·), (unit :: units).dropWhile (!isBlank ·))

/-- `CommandLineToArgvW` of a command line that is not empty. -/
def commandLineToArgv (stay : Bool) (commandLine : List UInt16) : List (List UInt16) :=
  let (name, rest) := programName (commandLine.takeWhile (· != 0))
  name :: parseArguments stay .between rest

/-- Programs read the command off the line, if its name has no quote in it and no backslash at its
    end. -/
def ReadOff (line : List UInt16) (command : List (List UInt16)) : Prop :=
  (∀ name ∈ command.head?, quote ∉ name ∧ name.getLast? ≠ some backslash) →
    ∀ stay, commandLineToArgv stay line = command

end Launch
end SteamInputLease
