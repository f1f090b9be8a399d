import SteamInputLease.Launch.Connect
import SteamInputLease.Launch.Run
import SteamInputLease.Lib.Custody
import SteamInputLease.Lib.Utf8

/-!
# What the host library calls

`find_process`, `remote_module`, `inject_payload`, `connect_pipe` and `exchange`, as programs that
call Windows, which answers as it likes. A snapshot that was taken does not change, so it is
answered with what it lists. What the library must give back is in `hostCustody`: its handles, and
the memory it allocates in another process.
-/

namespace SteamInputLease
namespace Host

open Lib Protocol
open Recovery (RescanResult)
open Launch (Error ModuleEntry RemoteModule moduleSnapshotAttempts errorBadLength errorPipeBusy
  errorFileNotFound verifyPipeServer responseSize unitToLower asciiUnits)

/-- `ERROR_NO_MORE_FILES`. -/
def errorNoMoreFiles : UInt32 := 18

/-- `WAIT_OBJECT_0`. -/
def waitObject0 : UInt32 := 0

/-- `WAIT_TIMEOUT`. -/
def waitTimeout : UInt32 := 258

/-- `INVALID_HANDLE_VALUE`. -/
def invalidHandle : UInt64 := 0xffffffffffffffff

/-- `PROCESSENTRY32W`. -/
structure ProcessEntry where
  szExeFile : List UInt16
  th32ProcessID : UInt32
  deriving DecidableEq, Repr

inductive HostCall
  /-- `ProcessIdToSessionId` of the caller itself, and of a process. -/
  | currentSession
  | processIdToSessionId (processId : UInt32)
  /-- `CreateToolhelp32Snapshot`, with the enumeration of it. -/
  | snapshotProcesses
  | snapshotModules (processId : UInt32)
  | sleep
  | lastOsError
  | openProcess (processId : UInt32)
  /-- `IsWow64Process2`; `none` is the caller itself. -/
  | isWow64Process (process : Option UInt64)
  | getModuleHandle (name : String)
  | getProcAddress (module : UInt64) (name : String)
  | canonicalize (path : String)
  | isFile (path : String)
  /-- `VirtualAllocEx`, and `VirtualFreeEx` of the whole block. -/
  | virtualAllocEx (process : UInt64) (bytes : Nat)
  | virtualFreeEx (process address : UInt64)
  | writeProcessMemory (process address : UInt64) (units : List UInt16)
  | createRemoteThread (process start parameter : UInt64)
  | waitForSingleObject (handle : UInt64)
  | getExitCodeThread (thread : UInt64)
  | createFile (name : List UInt16)
  | getNamedPipeServerProcessId (pipe : UInt64)
  /-- `Instant::now()`. -/
  | now
  | waitNamedPipe
  | writeFile (pipe : UInt64) (request : Request)
  | readFile (pipe : UInt64)
  /-- The guarded recovery of an opened Steam, from its module on. -/
  | recover (process : UInt64) (module : RemoteModule)
  | closeHandle (handle : UInt64)
  deriving DecidableEq, Repr

/-- An answer, of which each call reads its own part. -/
structure HostAnswer where
  /-- Not `FALSE`. -/
  ok : Bool
  /-- The handle or the address that comes back. -/
  handle : UInt64
  /-- A session, a process, an exit code or the result of a wait. -/
  value : UInt32
  /-- The transferred count, or the time in milliseconds. -/
  number : Nat
  /-- `raw_os_error`, and the text of the error. -/
  error : UInt32
  text : String
  /-- The process machine and the native one. -/
  machines : UInt16 × UInt16
  /-- What `canonicalize` returns. -/
  path : Except String (List UInt16)
  processes : List ProcessEntry
  modules : List ModuleEntry
  response : Response
  recovered : Except Error RescanResult

/-- A part of the library. -/
abbrev Hosting := Program HostCall HostAnswer

/-! ## What has to be given back -/

inductive HostHandle
  | object (handle : UInt64)
  /-- A block in the memory of the opened process. -/
  | remote (process address : UInt64)
  deriving DecidableEq, Repr

/-- What an `OwnedHandle` closes when it is dropped. -/
def owned (handle : UInt64) : Multiset HostHandle :=
  if handle = 0 ∨ handle = invalidHandle then 0 else {.object handle}

def HostCall.opens (a : HostAnswer) : HostCall → Multiset HostHandle
  | .snapshotProcesses | .snapshotModules _ | .openProcess _ | .createRemoteThread _ _ _
  | .createFile _ => owned a.handle
  | .virtualAllocEx process _ => if a.handle = 0 then 0 else {.remote process a.handle}
  | _ => 0

def hostCustody : Custody HostCall HostAnswer HostHandle where
  uses
    | .isWow64Process (some process) | .virtualAllocEx process _ | .virtualFreeEx process _
    | .recover process _ => owned process
    | .writeProcessMemory process address _ | .createRemoteThread process _ address =>
      owned process + {.remote process address}
    | .waitForSingleObject handle | .getExitCodeThread handle => owned handle
    | .getNamedPipeServerProcessId pipe | .writeFile pipe _ | .readFile pipe => owned pipe
    | _ => 0
  takes
    | .closeHandle handle, _ => {.object handle}
    | .virtualFreeEx process address, _ => {.remote process address}
    | _, _ => 0
  gives c a := c.opens a

/-! ## Handles and errors -/

/-- `OwnedHandle`'s `drop`. -/
def dropHandle (handle : UInt64) : Hosting Unit :=
  if handle = 0 ∨ handle = invalidHandle then pure ()
  else do
    let _ ← Program.ask (.closeHandle handle)
    pure ()

/-- `Error::windows`. -/
def windowsError {α : Type} (operation : String) : Hosting (Except Error α) := do
  let last ← Program.ask .lastOsError
  pure (.error (.windows operation last.text))

/-! ## The target -/

/-- `to_ascii_lowercase`. -/
def byteToLower (byte : UInt8) : UInt8 :=
  if 0x41 ≤ byte ∧ byte ≤ 0x5a then byte + 0x20 else byte

/-- `wide_eq_ignore_ascii_case`, of the bytes of the name. -/
def wideEqIgnoreAsciiCase (wide : List UInt16) (ascii : List UInt8) : Bool :=
  let name := wide.takeWhile (· != 0)
  name.length == ascii.length &&
    (name.zip ascii).all fun (unit, byte) =>
      unit < 128 && byteToLower unit.toUInt8 == byteToLower byte

/-- The entry has the name, and runs in the caller's session. -/
def inSession (name : String) (session : UInt32) (entry : ProcessEntry) : Hosting Bool :=
  if !wideEqIgnoreAsciiCase entry.szExeFile (Utf8.encode name.toList) then pure false
  else do
    let candidate ← Program.ask (.processIdToSessionId entry.th32ProcessID)
    pure (candidate.ok && candidate.value == session)

/-- The loop of `find_process`. `Process32FirstW` of nothing fails as `Process32NextW` behind the
    last entry does. -/
def matchProcesses (name : String) (session : UInt32) :
    List ProcessEntry → Option UInt32 → Hosting (Except Error UInt32)
  | [], matched => do
    let last ← Program.ask .lastOsError
    if last.error ≠ errorNoMoreFiles then
      pure (.error (.windows "could not enumerate running processes" last.text))
    else
      match matched with
      | some processId => pure (.ok processId)
      | none => pure (.error (.targetNotFound name))
  | entry :: entries, matched => do
    let found ← inSession name session entry
    if !found then matchProcesses name session entries matched
    else
      match matched with
      | some first => pure (.error (.ambiguousTarget name first entry.th32ProcessID))
      | none => matchProcesses name session entries (some entry.th32ProcessID)

/-- `find_process`. -/
def findProcess (name : String) : Hosting (Except Error UInt32) :=
  if name.toList.contains '\x00' then
    pure (.error (.message "the target process name contains a NUL character"))
  else do
    let session ← Program.ask .currentSession
    if !session.ok then windowsError "could not resolve the caller's Windows session"
    else do
      let snapshot ← Program.ask .snapshotProcesses
      if snapshot.handle = invalidHandle then windowsError "could not snapshot running processes"
      else do
        let matched ← matchProcesses name session.value snapshot.processes none
        dropHandle snapshot.handle
        pure matched

/-! ## The modules of the target -/

/-- What a snapshot says of the module; `none` where it has to be taken again. -/
def findModule (name : List Char) (modules : List ModuleEntry) : Option (Option RemoteModule) :=
  if modules = [] then none
  else some ((modules.find? (·.isNamed name)).map fun entry =>
    ⟨entry.modBaseAddr, entry.modBaseSize⟩)

/-- The pause before every attempt but the first. -/
def retryDelay (left : Nat) : Hosting Unit :=
  if left < moduleSnapshotAttempts then do
    let _ ← Program.ask .sleep
    pure ()
  else pure ()

/-- The loop of `remote_module`, with the attempts that are left. -/
def remoteModuleFrom (processId : UInt32) (name : List Char) :
    Nat → Hosting (Option RemoteModule)
  | 0 => pure none
  | left + 1 => do
    retryDelay (left + 1)
    let snapshot ← Program.ask (.snapshotModules processId)
    if snapshot.handle = invalidHandle then do
      let last ← Program.ask .lastOsError
      if last.error = errorBadLength then remoteModuleFrom processId name left else pure none
    else do
      dropHandle snapshot.handle
      match findModule name snapshot.modules with
      | some found => pure found
      | none => remoteModuleFrom processId name left

/-- `remote_module`. -/
def remoteModule (processId : UInt32) (name : List Char) : Hosting (Option RemoteModule) :=
  remoteModuleFrom processId name moduleSnapshotAttempts

/-! ## What a search shows -/

/-- The executable of the entry has this name, which is an ASCII one, in whatever case. -/
def Named (name : String) (entry : ProcessEntry) : Prop :=
  (∀ c ∈ name.toList, c.toNat < 0x80) ∧
    (entry.szExeFile.takeWhile (· != 0)).map unitToLower = (asciiUnits name.toList).map unitToLower

instance (name : String) (entry : ProcessEntry) : Decidable (Named name entry) :=
  inferInstanceAs (Decidable (_ ∧ _))

/-- The processes of this name, in the order of the snapshot. -/
def named (name : String) (entries : List ProcessEntry) : List UInt32 :=
  (entries.filter fun entry => decide (Named name entry)).map (·.th32ProcessID)

/-- The processes whose session was asked for. -/
def asked (log : List (HostCall × HostAnswer)) : List UInt32 := log.filterMap fun e =>
  match e.1 with
  | .processIdToSessionId processId => some processId
  | _ => none

/-- A process that was asked for and runs in `session`. -/
def sessionHit (session : UInt32) (e : HostCall × HostAnswer) : Option UInt32 :=
  match e.1 with
  | .processIdToSessionId processId =>
    if e.2.ok && e.2.value == session then some processId else none
  | _ => none

def sessionHits (session : UInt32) (log : List (HostCall × HostAnswer)) : List UInt32 :=
  log.filterMap (sessionHit session)

/-- What is made of the processes that were found when there are no more. -/
def choice (name : String) (last : HostAnswer) (hits : List UInt32) : Except Error UInt32 :=
  if last.error ≠ errorNoMoreFiles then
    .error (.windows "could not enumerate running processes" last.text)
  else
    match hits with
    | [] => .error (.targetNotFound name)
    | processId :: _ => .ok processId

/-- Only processes of the name are asked for, in their order. All of them are, unless two run in the
    session: then the search ends at the second and names both. `found` are those found before. -/
structure Chooses (name : String) (session : UInt32) (entries : List ProcessEntry)
    (found : List UInt32) (log : List (HostCall × HostAnswer)) (r : Except Error UInt32) :
    Prop where
  order : asked log <+: named name entries
  whole : (found ++ sessionHits session log).length < 2 → asked log = named name entries ∧
    ∃ (before : List (HostCall × HostAnswer)) (last : HostAnswer),
      log = before ++ [(.lastOsError, last)] ∧
      r = choice name last (found ++ sessionHits session log)
  ambiguous : 2 ≤ (found ++ sessionHits session log).length → ∃ first second,
    found ++ sessionHits session log = [first, second] ∧
    r = .error (.ambiguousTarget name first second)

/-- How `find_process` goes. -/
inductive FindRun (name : String) : List (HostCall × HostAnswer) → Except Error UInt32 → Prop
  | nul (h : '\x00' ∈ name.toList) :
    FindRun name [] (.error (.message "the target process name contains a NUL character"))
  | noSession (session last : HostAnswer) (h : session.ok = false) :
    FindRun name [(.currentSession, session), (.lastOsError, last)]
      (.error (.windows "could not resolve the caller's Windows session" last.text))
  | noSnapshot (session snapshot last : HostAnswer) (hs : session.ok = true)
      (h : snapshot.handle = invalidHandle) :
    FindRun name [(.currentSession, session), (.snapshotProcesses, snapshot), (.lastOsError, last)]
      (.error (.windows "could not snapshot running processes" last.text))
  | searched (session snapshot : HostAnswer) (log closing : List (HostCall × HostAnswer))
      (r : Except Error UInt32) (hn : '\x00' ∉ name.toList) (hs : session.ok = true)
      (h : snapshot.handle ≠ invalidHandle)
      (hlog : Chooses name session.value snapshot.processes [] log r)
      (hc : ∀ e ∈ closing, e.1 = .closeHandle snapshot.handle) :
    FindRun name ((.currentSession, session) :: (.snapshotProcesses, snapshot) :: (log ++ closing)) r

end Host
end SteamInputLease
