import SteamInputLease.Host.Calls

/-!
# `inject_payload`

The payload is loaded by a thread that Windows starts at `LoadLibraryW` in the target, with the
payload's path in memory that is allocated there. That memory is the thread's as long as the thread
may run, and only a wait that succeeded says that it is gone.
-/

namespace SteamInputLease
namespace Host

open Lib
open Launch (Error RemoteModule)

/-! ## The injection -/

/-- `same_architecture`. -/
def sameArchitecture (target : UInt64) : Hosting Bool := do
  let own ← Program.ask (.isWow64Process none)
  if !own.ok then pure false
  else do
    let other ← Program.ask (.isWow64Process (some target))
    pure (other.ok && own.machines == other.machines)

/-- The wait of the closure, with `remote_path_is_idle` behind it. -/
def awaitThread (thread : UInt64) : Hosting (Bool × Except Error Unit) := do
  let wait ← Program.ask (.waitForSingleObject thread)
  if wait.value = waitObject0 then do
    let exit ← Program.ask (.getExitCodeThread thread)
    if !exit.ok || exit.value == 0 then
      pure (true, .error (.message "the target did not load steam_input_gate.dll"))
    else pure (true, .ok ())
  else if wait.value = waitTimeout then
    pure (false, .error (.message "payload injection timed out"))
  else do
    let r ← windowsError "waiting for payload injection failed"
    pure (false, r)

/-- The closure `inject`, with `remote_path_is_idle` behind it. -/
def inject (process start remotePath : UInt64) (payloadWide : List UInt16) :
    Hosting (Bool × Except Error Unit) := do
  let written ← Program.ask (.writeProcessMemory process remotePath payloadWide)
  if !written.ok then do
    let r ← windowsError "WriteProcessMemory failed"
    pure (true, r)
  else do
    let thread ← Program.ask (.createRemoteThread process start remotePath)
    if thread.handle = 0 then do
      let r ← windowsError "CreateRemoteThread failed"
      pure (true, r)
    else do
      let r ← awaitThread thread.handle
      dropHandle thread.handle
      pure r

/-- The path is freed if it is idle. -/
def freeIdle (idle : Bool) (process remotePath : UInt64) : Hosting Unit :=
  if idle then do
    let _ ← Program.ask (.virtualFreeEx process remotePath)
    pure ()
  else pure ()

/-- From the allocation on. -/
def loadRemotely (process start : UInt64) (payloadWide : List UInt16) :
    Hosting (Except Error Unit) := do
  let remote ← Program.ask (.virtualAllocEx process (payloadWide.length * 2))
  if remote.handle = 0 then windowsError "VirtualAllocEx failed"
  else do
    let (idle, r) ← inject process start remote.handle payloadWide
    freeIdle idle process remote.handle
    pure r

/-- The path as the target is to read it, and where it is to start. -/
def loadPath (process start : UInt64) (payload : String) : Hosting (Except Error Unit) := do
  let absolute ← Program.ask (.canonicalize payload)
  match absolute.path with
  | .error source => pure (.error (.windows "could not resolve payload path" source))
  | .ok path =>
    if path.any (· == 0) then
      pure (.error (.message "the payload path contains a NUL character"))
    else loadRemotely process start (path ++ [0])

/-- `inject_payload`, into the opened process. -/
def injectInto (processId : UInt32) (process : UInt64) (payload : String) :
    Hosting (Except Error Unit) := do
  let same ← sameArchitecture process
  if !same then pure (.error .architectureMismatch)
  else
    match ← remoteModule processId "kernel32.dll".toList with
    | none => pure (.error (.message "could not locate kernel32.dll in the target"))
    | some remoteKernel32 => do
      let localKernel32 ← Program.ask (.getModuleHandle "kernel32.dll")
      let loadLibrary ← Program.ask (.getProcAddress localKernel32.handle "LoadLibraryW")
      if loadLibrary.handle = 0 then pure (.error (.message "could not locate LoadLibraryW"))
      else
        loadPath process (.ofNat remoteKernel32.base + loadLibrary.handle - localKernel32.handle)
          payload

/-- `inject_payload`. -/
def injectPayload (processId : UInt32) (payload : String) : Hosting (Except Error Unit) := do
  let process ← Program.ask (.openProcess processId)
  if process.handle = 0 then windowsError "OpenProcess failed"
  else do
    let r ← injectInto processId process.handle payload
    dropHandle process.handle
    pure r

/-! ## What a run shows -/

/-- What became of the remote path. -/
inductive RemotePath
  | absent
  | idle (process address : UInt64)
  /-- A remote thread that was started on it has not been seen to end. -/
  | lent (process address thread : UInt64)
  | freed
  /-- It was freed under a thread that may still read it. -/
  | pulled
  deriving DecidableEq, Repr

def RemotePath.next (path : RemotePath) (e : HostCall × HostAnswer) : RemotePath :=
  match path, e.1 with
  | .absent, .virtualAllocEx process _ =>
    if e.2.handle = 0 then path else .idle process e.2.handle
  | .idle process address, .createRemoteThread process' _ parameter =>
    if e.2.handle ≠ 0 ∧ process' = process ∧ parameter = address then
      .lent process address e.2.handle
    else path
  | .idle process address, .virtualFreeEx process' address' =>
    if process' = process ∧ address' = address then .freed else path
  | .lent process address thread, .waitForSingleObject handle =>
    if handle = thread ∧ e.2.value = waitObject0 then .idle process address else path
  | .lent process address _, .virtualFreeEx process' address' =>
    if process' = process ∧ address' = address then .pulled else path
  | _, _ => path

def remotePath (log : List (HostCall × HostAnswer)) : RemotePath := log.foldl .next .absent

/-- It is with a thread, or with nobody. -/
def RemotePath.settled : RemotePath → Bool
  | .absent | .lent _ _ _ | .freed => true
  | .idle _ _ | .pulled => false

/-- A path that is with a thread is left to it. -/
def RemotePath.leaked : RemotePath → Multiset HostHandle
  | .lent process address _ => {.remote process address}
  | _ => 0

/-- The path is where the remote thread will look for it, and the target is one that can run it:
    the machines agree, `LoadLibraryW` is as far into its module as here, and the path is the
    canonical one, whole and terminated. -/
structure Prepared (processId : UInt32) (payload : String) (before : List (HostCall × HostAnswer))
    (process start address : UInt64) : Prop where
  opened : ∃ a : HostAnswer, (.openProcess processId, a) ∈ before ∧ a.handle = process
  machines : ∃ own other : HostAnswer, (.isWow64Process none, own) ∈ before ∧
    (.isWow64Process (some process), other) ∈ before ∧ own.ok = true ∧ other.ok = true ∧
    own.machines = other.machines
  start : ∃ snapshot localKernel32 loadLibrary : HostAnswer, ∃ kernel32 : RemoteModule,
    (.snapshotModules processId, snapshot) ∈ before ∧
    findModule "kernel32.dll".toList snapshot.modules = some (some kernel32) ∧
    (.getModuleHandle "kernel32.dll", localKernel32) ∈ before ∧
    (.getProcAddress localKernel32.handle "LoadLibraryW", loadLibrary) ∈ before ∧
    loadLibrary.handle ≠ 0 ∧
    start + localKernel32.handle = .ofNat kernel32.base + loadLibrary.handle
  path : ∃ absolute allocated written : HostAnswer, ∃ path : List UInt16,
    (.canonicalize payload, absolute) ∈ before ∧ absolute.path = .ok path ∧ 0 ∉ path ∧
    (.virtualAllocEx process ((path.length + 1) * 2), allocated) ∈ before ∧
    allocated.handle = address ∧ address ≠ 0 ∧
    (.writeProcessMemory process address (path ++ [0]), written) ∈ before ∧ written.ok = true

/-- A remote thread was started and seen to end, and what it returned was not null. -/
def LoadedModule (log : List (HostCall × HostAnswer)) : Prop :=
  ∃ (process start address : UInt64) (thread wait exit : HostAnswer),
    (.createRemoteThread process start address, thread) ∈ log ∧ thread.handle ≠ 0 ∧
    (.waitForSingleObject thread.handle, wait) ∈ log ∧ wait.value = waitObject0 ∧
    (.getExitCodeThread thread.handle, exit) ∈ log ∧ exit.ok = true ∧ exit.value ≠ 0

def HostCall.startsThread : HostCall → Bool
  | .createRemoteThread _ _ _ => true
  | _ => false

/-- At most one thread is started, on a path that is ready, and the result is what it returned. -/
structure InjectsOnce (processId : UInt32) (payload : String)
    (log : List (HostCall × HostAnswer)) (r : Except Error Unit) : Prop where
  once : log.countP (·.1.startsThread) ≤ 1
  prepared : ∀ (before after : List (HostCall × HostAnswer)) (process start address : UInt64)
    (a : HostAnswer), log = before ++ (.createRemoteThread process start address, a) :: after →
      Prepared processId payload before process start address
  loaded : r = .ok () ↔ LoadedModule log

end Host
end SteamInputLease
