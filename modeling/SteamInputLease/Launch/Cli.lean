import SteamInputLease.Ffi.Handles
import SteamInputLease.Launch.Run

/-!
# The command line of the launcher

`parse`, `run` and `main` of `steam-input-lease.exe`. An argument is its code units, and the
options are those of `Ffi.Handles`. `Client::status` and `Client::rescan` answer by the instant, as
Windows does.
-/

namespace SteamInputLease
namespace Launch

open Lib
open Recovery (RescanResult)

/-- `RESIDENT_CONNECT_TIMEOUT`, in milliseconds. -/
def residentConnectTimeout : Nat := 2000

/-- `usage`, of the package's version. -/
def usage (version : String) : String :=
  "\n".intercalate
    ["Steam Input Lease " ++ version,
      "",
      "Stops Steam Input from holding your controllers while a program runs, and gives",
      "them back when the program and everything it started have exited.",
      "",
      "Run a program through it:",
      "  steam-input-lease.exe [options] -- program.exe [arguments...]",
      "",
      "Steam launch options (with steam-input-lease.exe beside steam.exe):",
      "  \"C:\\Program Files (x86)\\Steam\\steam-input-lease.exe\" -- %command%",
      "",
      "Diagnostics:",
      "  steam-input-lease.exe --status   query the gate Steam has loaded",
      "  steam-input-lease.exe --rescan   ask Steam to look for controllers again",
      "",
      "Options:",
      "  --inject             load steam_input_gate.dll into the target when no gate answers",
      "  --payload PATH       the DLL --inject loads (default: beside this executable)",
      "  --target-name NAME   target process instead of steam.exe",
      "  --help, -h           show this text"]

/-- `OsStr::to_str` and `OsString::into_string`. -/
def toStr : List UInt16 → Option (List Char)
  | [] => some []
  | [unit] =>
    if isHighSurrogate unit || isLowSurrogate unit then none else some [Char.ofNat unit.toNat]
  | unit :: next :: rest =>
    if isHighSurrogate unit && isLowSurrogate next then
      (toStr rest).map fun text => pairChar unit next :: text
    else if isHighSurrogate unit || isLowSurrogate unit then none
    else (toStr (next :: rest)).map fun text => Char.ofNat unit.toNat :: text

/-- `Mode`. -/
inductive Mode
  | help
  | status
  | rescan
  | run (command : List (List UInt16))
  deriving DecidableEq, Repr

/-- `Invocation`. -/
structure Invocation where
  options : Ffi.ClientOptions
  mode : Mode

/-- The variables of `parse`. -/
structure Locals where
  options : Ffi.ClientOptions
  payload : Option (List UInt16)
  help : Bool
  status : Bool
  rescan : Bool
  command : Option (List (List UInt16))

/-- The loop of `parse`. -/
def parseLoop : List (List UInt16) → Locals → Except String Locals
  | [], s => .ok s
  | argument :: arguments, s =>
    if toStr argument = some "--".toList then .ok { s with command := some arguments }
    else if toStr argument = some "--status".toList then parseLoop arguments { s with status := true }
    else if toStr argument = some "--rescan".toList then parseLoop arguments { s with rescan := true }
    else if toStr argument = some "--inject".toList then
      parseLoop arguments { s with options := { s.options with allowInjection := true } }
    else if toStr argument = some "--target-name".toList then
      match arguments with
      | [] => .error "--target-name requires a value"
      | value :: arguments =>
        match toStr value with
        | none => .error "--target-name must be valid Unicode"
        | some name => parseLoop arguments { s with options := { s.options with targetName := name } }
    else if toStr argument = some "--payload".toList then
      match arguments with
      | [] => .error "--payload requires a value"
      | path :: arguments => parseLoop arguments { s with payload := some path }
    else if toStr argument = some "--help".toList ∨ toStr argument = some "-h".toList then
      parseLoop arguments { s with help := true }
    else .error ("unknown option: " ++ String.ofList (fromUtf16Lossy argument))

/-- `if let Some(path) = payload { .. }`. -/
def takePayload (s : Locals) : Except String Ffi.ClientOptions :=
  match s.payload with
  | none => .ok s.options
  | some path =>
    if !s.options.allowInjection then .error "--payload is only used together with --inject"
    else .ok { s.options with payloadPath := path }

/-- The mode of an invocation. -/
def chooseMode (s : Locals) : Except String Mode :=
  if s.help then .ok .help
  else if s.status then .ok .status
  else if s.rescan then .ok .rescan
  else
    match s.command with
    | some command =>
      if command ≠ [] then .ok (.run command)
      else .error "a program to run is required after --"
    | none => .error "a program to run is required after --"

/-- `parse`, from `ClientOptions::default()`. -/
def parse (default : Ffi.ClientOptions) (arguments : List (List UInt16)) :
    Except String Invocation := do
  let s ← parseLoop arguments ⟨default, none, false, false, false, none⟩
  let options ← takePayload s
  let options :=
    if !options.allowInjection then { options with connectTimeout := residentConnectTimeout }
    else options
  let mode ← chooseMode s
  pure ⟨options, mode⟩

/-! ## Running an invocation -/

/-- What `main` asks: Windows and the payload, and the diagnostics of `Client`. -/
structure LauncherAnswers extends Answers where
  /-- `ClientOptions::default()`. -/
  defaultOptions : Ffi.ClientOptions
  /-- `Client::status`. -/
  status : Nat → Except Error Status
  /-- `Client::rescan`. -/
  rescan : Nat → Except Error RescanResult
  /-- `CARGO_PKG_VERSION`. -/
  version : String

section

variable (w : LauncherAnswers)

/-- `run`. -/
def run (invocation : Invocation) (polls : Nat) : Run (Option (Except String UInt32)) := do
  match invocation.mode with
  | .help => do
    record (.printed (usage w.version))
    pure (some (.ok 0))
  | .status => do
    match ← consult w.status with
    | .error error => pure (some (.error error.display))
    | .ok status => do
      record (.printed (s!"Gate active; leases={status.leaseCount}, tracked HID " ++
        s!"handles={status.hidHandleCount}, handles revoked by last " ++
        s!"transition={status.lastRevokedHandleCount}."))
      pure (some (.ok 0))
  | .rescan => do
    match ← consult w.rescan with
    | .error error => pure (some (.error error.display))
    | .ok result => do
      record (.printed (s!"Requested Steam controller discovery (scan counter " ++
        s!"{result.scanCountBefore} -> {result.scanCountAfter})."))
      pure (some (.ok 0))
  | .run command => do
    let exitCode ←
      runCommand w.toAnswers (String.ofList invocation.options.targetName) command polls
    pure (exitCode.map .ok)

/-- `main`: the code it exits with, where it does not still wait for the program. -/
def main (arguments : List (List UInt16)) (polls : Nat) : Run (Option UInt32) := do
  match parse w.defaultOptions arguments with
  | .error error => do
    record (.printed (error ++ "\n\n" ++ usage w.version))
    pure (some 1)
  | .ok invocation =>
    match ← run w invocation polls with
    | none => pure none
    | some (.ok code) => pure (some code)
    | some (.error error) => do
      record (.printed error)
      pure (some 1)

end

/-! ## What a command line says -/

/-- An option, as it is written. -/
inductive Item
  | status
  | rescan
  | inject
  | help (long : Bool)
  | targetName (value : List UInt16) (name : List Char) (valid : toStr value = some name)
  | payload (path : List UInt16)

/-- The code units of a word of the launcher's own. -/
def word (text : String) : List UInt16 := asciiUnits text.toList

/-- The arguments an option takes up. -/
def Item.words : Item → List (List UInt16)
  | .status => [word "--status"]
  | .rescan => [word "--rescan"]
  | .inject => [word "--inject"]
  | .help long => [word (if long then "--help" else "-h")]
  | .targetName value _ _ => [word "--target-name", value]
  | .payload path => [word "--payload", path]

def Item.isInject : Item → Bool
  | .inject => true
  | _ => false

def Item.isHelp : Item → Bool
  | .help _ => true
  | _ => false

def Item.isStatus : Item → Bool
  | .status => true
  | _ => false

def Item.isRescan : Item → Bool
  | .rescan => true
  | _ => false

def Item.name : Item → Option (List Char)
  | .targetName _ name _ => some name
  | _ => none

def Item.path : Item → Option (List UInt16)
  | .payload path => some path
  | _ => none

/-- The words that begin an option, and the separator. -/
def optionWords : List (List UInt16) :=
  [word "--", word "--status", word "--rescan", word "--inject", word "--target-name",
    word "--payload", word "--help", word "-h"]

/-- What can stand behind the options: the command, or what is wrong. -/
inductive Tail : List (List UInt16) → Except String (Option (List (List UInt16))) → Prop
  | nothing : Tail [] (.ok none)
  | command (command : List (List UInt16)) : Tail (word "--" :: command) (.ok (some command))
  | unknown (argument : List UInt16) (rest : List (List UInt16)) (h : argument ∉ optionWords) :
    Tail (argument :: rest)
      (.error ("unknown option: " ++ String.ofList (fromUtf16Lossy argument)))
  | noTargetName : Tail [word "--target-name"] (.error "--target-name requires a value")
  | badTargetName (value : List UInt16) (rest : List (List UInt16)) (h : toStr value = none) :
    Tail (word "--target-name" :: value :: rest) (.error "--target-name must be valid Unicode")
  | noPayload : Tail [word "--payload"] (.error "--payload requires a value")

/-- The last target name and the last path. -/
def lastName (items : List Item) : Option (List Char) := items.reverse.findSome? Item.name

def lastPath (items : List Item) : Option (List UInt16) := items.reverse.findSome? Item.path

/-- The injection is allowed. -/
def injects (default : Ffi.ClientOptions) (items : List Item) : Bool :=
  default.allowInjection || items.any Item.isInject

/-- The options that the command line asks for: of each, the last. -/
def optionsOf (default : Ffi.ClientOptions) (items : List Item) : Ffi.ClientOptions where
  targetName := (lastName items).getD default.targetName
  payloadPath := (lastPath items).getD default.payloadPath
  connectTimeout :=
    if injects default items then default.connectTimeout else residentConnectTimeout
  allowInjection := injects default items

/-- What it asks to do; diagnostics come before a command. -/
def modeOf (items : List Item) (command : Option (List (List UInt16))) : Except String Mode :=
  if items.any Item.isHelp then .ok .help
  else if items.any Item.isStatus then .ok .status
  else if items.any Item.isRescan then .ok .rescan
  else if command.getD [] = [] then .error "a program to run is required after --"
  else .ok (.run (command.getD []))

/-- What the options and the command come to. -/
def conclude (default : Ffi.ClientOptions) (items : List Item)
    (command : Option (List (List UInt16))) : Except String Invocation :=
  if (lastPath items).isSome && !injects default items then
    .error "--payload is only used together with --inject"
  else (modeOf items command).map fun mode => ⟨optionsOf default items, mode⟩

/-- `arguments` are options and a tail, and say `result`. -/
inductive Reads (default : Ffi.ClientOptions) (arguments : List (List UInt16))
    (result : Except String Invocation) : Prop
  | intro (items : List Item) (rest : List (List UInt16))
      (tail : Except String (Option (List (List UInt16)))) (htail : Tail rest tail)
      (harguments : arguments = items.flatMap Item.words ++ rest)
      (hresult : result = tail.bind (conclude default items))

/-- No option asks for a diagnosis. -/
def Plain (items : List Item) : Prop :=
  ∀ item ∈ items, item.isHelp = false ∧ item.isStatus = false ∧ item.isRescan = false

/-- What `main` shows: what it creates is the command behind the separator, in processes of which
    one at most is let run, and the code it exits with is that to which this process was followed,
    or 0 or 1. -/
structure MainShows (w : LauncherAnswers) (arguments : List (List UInt16)) (r : Option UInt32)
    (log : List Event) : Prop where
  created : ∀ line environment process, .created line environment process ∈ log →
    ∃ items command, Plain items ∧
      arguments = items.flatMap Item.words ++ word "--" :: command ∧ line = commandLine command
  once : resumes log ≤ 1
  confined : Confined log
  exitCode : resumes log = 1 → ∃ line, LetsRun w.toAnswers line r log
  failed : ∀ code, r = some code → resumes log = 0 → code = 0 ∨ code = 1

/-- Windows lets any process start. -/
structure LetsStart (w : Answers) : Prop where
  createProcess : ∀ i, (w.createProcess i).isSome
  createJobObject : ∀ i, (w.createJobObject i).isSome
  assignProcessToJobObject : ∀ i, w.assignProcessToJobObject i = true
  resumeThread : ∀ i, w.resumeThread i ≠ resumeFailed

end Launch
end SteamInputLease
