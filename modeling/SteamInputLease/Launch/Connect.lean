import SteamInputLease.Launch.CommandLine
import SteamInputLease.Launch.Environment

/-!
# Reaching the payload

`Client::connect` with everything Windows answers to it: the attempts at the control pipe, the
module snapshots of the target, and whether the payload is a file. A module carries beside its
entry whether it is an image of the gate, which the client cannot see.
-/

namespace SteamInputLease
namespace Launch

/-- `ERROR_FILE_NOT_FOUND`. -/
def errorFileNotFound : UInt32 := 2

/-- `ERROR_BAD_LENGTH`. -/
def errorBadLength : UInt32 := 24

/-- `ERROR_PIPE_BUSY`. -/
def errorPipeBusy : UInt32 := 231

/-- `MODULE_SNAPSHOT_ATTEMPTS`. -/
def moduleSnapshotAttempts : Nat := 5

/-- The milliseconds of the first probe. -/
def probeTimeout : Nat := 20

/-- What `connect` reads of `ClientOptions`, the timeout in milliseconds. -/
structure ClientOptions where
  payloadPath : String
  /-- `payload_path.file_name().and_then(|name| name.to_str())`. -/
  payloadName : Option (List Char)
  connectTimeout : Nat
  allowInjection : Bool
  deriving DecidableEq, Repr

/-! ## The pipe -/

/-- One round of `connect_pipe`. -/
structure PipeAttempt where
  /-- `CreateFileW`, or the code of its error. -/
  createFile : Except UInt32 UInt64
  /-- `GetNamedPipeServerProcessId`, `none` where it fails. -/
  server : Option UInt32
  lastOsError : String
  /-- `Instant::now()` behind a refused attempt, in milliseconds. -/
  now : Nat

/-- The calls of one `connect_pipe`. -/
structure PipeCalls where
  /-- `Instant::now()` at its start. -/
  started : Nat
  attempts : List PipeAttempt

/-- `verify_pipe_server`. -/
def verifyPipeServer (expected server : UInt32) : Except Error Unit :=
  if server = expected then .ok ()
  else .error (.protocol (s!"the payload pipe for process {expected} is served by process " ++
    s!"{server}; refusing to use it"))

/-- The end of an attempt that opened the pipe. -/
def openedPipe (processId : UInt32) (attempt : PipeAttempt) (handle : UInt64) :
    Except Error UInt64 :=
  match attempt.server with
  | none => .error (.windows "could not identify the payload pipe server" attempt.lastOsError)
  | some server => (verifyPipeServer processId server).map fun _ => handle

/-- The loop of `connect_pipe`; `none` still waits when the attempts are used up. -/
def pollPipe (processId : UInt32) (deadline : Nat) :
    List PipeAttempt → Option (Except Error UInt64)
  | [] => none
  | attempt :: rest =>
    match attempt.createFile with
    | .ok handle => some (openedPipe processId attempt handle)
    | .error code =>
      if code ≠ errorPipeBusy ∧ code ≠ errorFileNotFound then
        some (.error (.windows "could not connect to payload pipe" attempt.lastOsError))
      else if deadline ≤ attempt.now then
        some (.error (.payloadUnavailable "timed out connecting to payload pipe"
          attempt.lastOsError))
      else pollPipe processId deadline rest

/-- `connect_pipe`. -/
def connectPipe (processId : UInt32) (timeout : Nat) (calls : PipeCalls) :
    Option (Except Error UInt64) :=
  pollPipe processId (calls.started + timeout) calls.attempts

/-- A `PayloadUnavailable` is given another context. -/
def inContext (context : String) : Except Error UInt64 → Except Error UInt64
  | .error (.payloadUnavailable _ source) => .error (.payloadUnavailable context source)
  | other => other

/-! ## The modules of the target -/

/-- `MODULEENTRY32W`, and whether the module is an image of the gate. -/
structure ModuleEntry where
  szModule : List UInt16
  modBaseAddr : Nat
  modBaseSize : Nat
  gate : Bool
  deriving DecidableEq, Repr

/-- `RemoteModule`. -/
structure RemoteModule where
  base : Nat
  size : Nat
  deriving DecidableEq, Repr

/-- `wide_slice_to_string`. -/
def wideSliceToString (value : List UInt16) : List Char :=
  fromUtf16Lossy (value.takeWhile (· != 0))

/-- The entry has the name that is looked for. -/
def ModuleEntry.isNamed (name : List Char) (entry : ModuleEntry) : Bool :=
  eqIgnoreAsciiCase (wideSliceToString entry.szModule) name

/-- One `CreateToolhelp32Snapshot` and its enumeration. -/
inductive Snapshot
  /-- No handle, for an error. -/
  | invalid (code : UInt32)
  /-- The modules mapped then; the enumeration fails behind the first `listed`. -/
  | taken (mapped : List ModuleEntry) (listed : Nat)

/-- The loop of `remote_module`, from `attempt`, with the attempts that are left. -/
def remoteModuleFrom (name : List Char) (snapshots : Nat → Snapshot) :
    Nat → Nat → Option RemoteModule
  | _, 0 => none
  | attempt, left + 1 =>
    match snapshots attempt with
    | .invalid code =>
      if code = errorBadLength then remoteModuleFrom name snapshots (attempt + 1) left else none
    | .taken mapped listed =>
      if mapped.take listed = [] then remoteModuleFrom name snapshots (attempt + 1) left
      else ((mapped.take listed).find? (·.isNamed name)).map fun entry =>
        ⟨entry.modBaseAddr, entry.modBaseSize⟩

/-- `remote_module`. -/
def remoteModule (name : List Char) (snapshots : Nat → Snapshot) : Option RemoteModule :=
  remoteModuleFrom name snapshots 0 moduleSnapshotAttempts

/-! ## The client -/

/-- What Windows answers to one `connect`. -/
structure Target where
  /-- The first, short `connect_pipe`. -/
  probe : PipeCalls
  /-- The `connect_pipe` with the configured timeout. -/
  wait : PipeCalls
  snapshots : Nat → Snapshot
  /-- `payload_path.is_file()`. -/
  isFile : Bool
  /-- The modules mapped when `inject_payload` is reached. -/
  mapped : List ModuleEntry
  /-- What `inject_payload` returns. -/
  injectPayload : Except Error Unit

/-- The journal holds the modules that were mapped each time `inject_payload` was reached. -/
abbrev Connecting := StateM (List (List ModuleEntry))

section

variable (options : ClientOptions) (processId : UInt32) (target : Target)

/-- A payload of the configured name is resident. -/
def residentByName : Bool :=
  match options.payloadName with
  | none => false
  | some name => (remoteModule name target.snapshots).isSome

/-- `inject_payload`. -/
def injectPayload : Connecting (Except Error Unit) := do
  modify (· ++ [target.mapped])
  pure target.injectPayload

/-- `Client::connect_only`. -/
def connectOnly : Option (Except Error UInt64) :=
  (connectPipe processId options.connectTimeout target.wait).map
    (inContext ("no resident Steam Input payload answered; Steam Input Management is off, its " ++
      "proxy is not deployed, or Steam has not restarted since deployment"))

/-- `Client::connect_or_inject`. -/
def connectOrInject : Connecting (Option (Except Error UInt64)) :=
  match connectPipe processId probeTimeout target.probe with
  | some (.error (.payloadUnavailable _ _)) =>
    if residentByName options target then
      pure ((connectPipe processId options.connectTimeout target.wait).map
        (inContext ("a payload with this name is already loaded, but its control pipe did not " ++
          "become available")))
    else if !target.isFile then pure (some (.error (.payloadNotFound options.payloadPath)))
    else do
      match ← injectPayload target with
      | .error e => pure (some (.error e))
      | .ok () =>
        pure ((connectPipe processId options.connectTimeout target.wait).map
          (inContext "the payload loaded, but its control pipe did not become available"))
  | other => pure other

/-- `Client::connect`. -/
def connect : Connecting (Option (Except Error UInt64)) :=
  if options.allowInjection then connectOrInject options processId target
  else pure (connectOnly options processId target)

/-- The modules mapped each time `connect` reaches `inject_payload`. -/
def injections : List (List ModuleEntry) := ((connect options processId target).run []).2

/-- `connect` injects at most once, where it may, and never beside a gate. -/
structure InjectsSafely : Prop where
  allowed : injections options processId target ≠ [] → options.allowInjection = true
  alone : ∀ mapped ∈ injections options processId target, ∀ entry ∈ mapped, entry.gate = false
  once : (injections options processId target).length ≤ 1

end

/-! ## How a gate is overlooked -/

/-- The pipe is busy, or there is none. -/
def PipeAttempt.Refused (attempt : PipeAttempt) : Prop :=
  attempt.createFile = .error errorPipeBusy ∨ attempt.createFile = .error errorFileNotFound

/-- All attempts until the deadline is over are refused. -/
def Unanswered (timeout : Nat) (calls : PipeCalls) : Prop :=
  ∃ (before : List PipeAttempt) (last : PipeAttempt) (rest : List PipeAttempt),
    calls.attempts = before ++ last :: rest ∧
    (∀ attempt ∈ before, attempt.Refused ∧ attempt.now < calls.started + timeout) ∧
    last.Refused ∧ calls.started + timeout ≤ last.now

/-- The lookup tries again. -/
def Snapshot.Transient : Snapshot → Prop
  | .invalid code => code = errorBadLength
  | .taken mapped listed => mapped.take listed = []

/-- The lookup ends without a module of this name. -/
def Snapshot.Without (name : List Char) : Snapshot → Prop
  | .invalid code => code ≠ errorBadLength
  | .taken mapped listed =>
    mapped.take listed ≠ [] ∧ ∀ entry ∈ mapped.take listed, entry.isNamed name = false

/-- Every snapshot is transient, or the first that is not has no module of this name. -/
def Overlooked (name : List Char) (snapshots : Nat → Snapshot) (attempt left : Nat) : Prop :=
  ∃ n ≤ left, (∀ i < n, (snapshots (attempt + i)).Transient) ∧
    (n < left → (snapshots (attempt + n)).Without name)

/-- A gate is mapped that neither the probe nor the lookup by the configured name comes across. -/
structure SecondGate (options : ClientOptions) (target : Target) : Prop where
  allowed : options.allowInjection = true
  unanswered : Unanswered probeTimeout target.probe
  overlooked : ∀ name, options.payloadName = some name →
    Overlooked name target.snapshots 0 moduleSnapshotAttempts
  payload : target.isFile = true
  gate : ∃ entry ∈ target.mapped, entry.gate = true

end Launch
end SteamInputLease
