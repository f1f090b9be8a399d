import SteamInputLease.Core.Protocol
import SteamInputLease.Launch.CommandLine
import SteamInputLease.Launch.Environment
import SteamInputLease.Lib.Journal
import SteamInputLease.Recovery.Requests

/-!
# Running a command under a lease

`launch_and_wait`, `Client::run_wrapped`, `run_unleased` and the launcher's `run_command`. Windows
and the payload answer by the instant; the journal holds what the program did. The wait for the
process tree is bounded by a number of polls, and `none` is a launch that still waits then.
-/

namespace SteamInputLease
namespace Launch

open Lib Protocol
open Recovery (RescanResult)

/-- `ERROR_PROCESS_ABORTED`. -/
def errorProcessAborted : UInt32 := 1067

/-- `u32::MAX`, with which `ResumeThread` fails. -/
def resumeFailed : UInt32 := 0xffffffff

/-- `PROCESS_INFORMATION`: the two handles it is used for. -/
structure ProcessInformation where
  process : UInt64
  thread : UInt64
  deriving DecidableEq, Repr

/-- What `WaitForSingleObject` returns. -/
inductive WaitResult
  | object0
  | timeout
  | failed
  deriving DecidableEq, Repr

/-- The answers of Windows and of the payload. `none` is `FALSE` or a null handle. -/
structure Answers where
  /-- `Client::process_id`. -/
  processId : Nat → Except Error UInt32
  /-- `Client::connect`. -/
  connect : Nat → Except Error UInt64
  /-- The transferred count. -/
  writeFile : Nat → Option Nat
  readFile : Nat → Option (Response × Nat)
  rescanSteamControllers : Nat → Except Error RescanResult
  lastOsError : Nat → String
  /-- The block, with its two terminating NULs. -/
  getEnvironmentStrings : Nat → Option (List UInt16)
  createProcess : Nat → Option ProcessInformation
  createJobObject : Nat → Option UInt64
  assignProcessToJobObject : Nat → Bool
  resumeThread : Nat → UInt32
  terminateJobObject : Nat → Bool
  terminateProcess : Nat → Bool
  waitForSingleObject : Nat → WaitResult
  /-- `ActiveProcesses`. -/
  queryInformationJobObject : Nat → Option UInt32
  setInformationJobObject : Nat → Bool
  getExitCodeProcess : Nat → Option UInt32

/-- What the program did: attempts to send a command, what it was told of the process it follows,
    and the other calls that succeeded. -/
inductive Event
  | sent (command : Command)
  /-- `Client::acquire` returned a lease. -/
  | acquired
  | created (commandLine : List UInt16) (environment : Option (List UInt16))
      (process : ProcessInformation)
  | assigned (job process : UInt64)
  | resumed (thread : UInt64)
  /-- `ActiveProcesses`, or no answer. -/
  | queried (job : UInt64) (activeProcesses : Option UInt32)
  /-- The exit code, or no answer. -/
  | exited (process : UInt64) (exitCode : Option UInt32)
  /-- The launch attempt of `run_wrapped` returned. -/
  | returned
  | printed (text : String)
  deriving DecidableEq, Repr

/-- A computation of the launcher. -/
abbrev Run := StateM (Journal Event)

section

variable (w : Answers)

/-- `Error::windows`. -/
def windowsError (operation : String) : Run Error := do
  let source ← consult w.lastOsError
  pure (.windows operation source)

/-! ## The lease -/

/-- `Status`. -/
structure Status where
  capabilities : UInt16
  leaseCount : UInt32
  hidHandleCount : UInt32
  lastRevokedHandleCount : UInt32
  deriving DecidableEq, Repr

/-- `From<Response> for Status`. -/
def Status.ofResponse (r : Response) : Status :=
  { capabilities := r.capabilities
    leaseCount := r.leaseCount
    hidHandleCount := r.hidHandleCount
    lastRevokedHandleCount := r.lastRevokedHandleCount }

/-- `Lease`, without its pipe. -/
structure Lease where
  processId : UInt32
  targetIsSteam : Bool
  acquiredStatus : Status
  deriving DecidableEq, Repr

/-- `RecoveryOutcome`. -/
inductive RecoveryOutcome
  | notRequired
  | scheduled
  | completed (result : RescanResult)
  | unavailable (error : Error)
  deriving DecidableEq, Repr

/-- `RecoveryOutcome::error`. -/
def RecoveryOutcome.error : RecoveryOutcome → Option Error
  | .unavailable error => some error
  | _ => none

/-- `ReleaseOutcome`. -/
structure ReleaseOutcome where
  status : Status
  recovery : RecoveryOutcome
  deriving DecidableEq, Repr

/-- `size_of::<Response>()`. -/
def responseSize : Nat := 24

/-- The read of `exchange`. -/
def readResponse : Run (Except Error Response) := do
  match ← consult w.readFile with
  | none => do
    let error ← windowsError w "could not read payload response"
    pure (.error error)
  | some (response, transferred) =>
    if transferred ≠ responseSize then
      pure (.error (.protocol "the payload returned an incomplete response"))
    else if !response.isValid then
      pure (.error (.protocol
        "the payload rejected the command or uses a different protocol version"))
    else pure (.ok response)

/-- `exchange`. -/
def exchange (command : Command) : Run (Except Error Response) := do
  record (.sent command)
  match ← consult w.writeFile with
  | none => do
    let error ← windowsError w "could not send command to payload"
    pure (.error error)
  | some transferred =>
    if transferred ≠ requestSize then
      pure (.error (.protocol "the payload pipe accepted an incomplete command"))
    else readResponse w

/-- `Client::acquire`, for a client of `targetName`. -/
def acquire (targetName : String) : Run (Except Error Lease) := do
  match ← consult w.processId with
  | .error e => pure (.error e)
  | .ok processId =>
    match ← consult w.connect with
    | .error e => pure (.error e)
    | .ok _ =>
      match ← exchange w .acquireLease with
      | .error e => pure (.error e)
      | .ok response => do
        record .acquired
        pure (.ok
          { processId := processId
            targetIsSteam := eqIgnoreAsciiCase targetName.toList "steam.exe".toList
            acquiredStatus := .ofResponse response })

/-- The recovery of a release that was answered. -/
def releaseRecovery (lease : Lease) (response : Response) : Run RecoveryOutcome := do
  if !lease.targetIsSteam || decide (0 < response.leaseCount) then pure .notRequired
  else if response.hasInternalRecovery then pure .scheduled
  else
    match ← consult w.rescanSteamControllers with
    | .ok result => pure (.completed result)
    | .error error => pure (.unavailable error)

/-- `Lease::release`. -/
def Lease.release (lease : Lease) : Run (Except Error ReleaseOutcome) := do
  match ← exchange w .releaseLease with
  | .error e => pure (.error e)
  | .ok response => do
    let recovery ← releaseRecovery w lease response
    pure (.ok { status := .ofResponse response, recovery := recovery })

/-! ## The process -/

/-- `abort_unstarted_process`. -/
def abortUnstartedProcess (cause : Error) : Run Error := do
  let terminated ← consult w.terminateProcess
  if !terminated then do
    let source ← consult w.lastOsError
    pure (.message (s!"{cause.display}; additionally, the suspended process could not be " ++
      s!"terminated: {source}"))
  else
    match ← consult w.waitForSingleObject with
    | .object0 => pure cause
    | .timeout => pure (.message (s!"{cause.display}; additionally, the suspended process did " ++
        "not terminate within 5 seconds"))
    | .failed => do
      let source ← consult w.lastOsError
      pure (.message (s!"{cause.display}; additionally, waiting for suspended-process " ++
        s!"termination failed: {source}"))

/-- `leased_environment`. -/
def leasedEnvironment : Run (Except Error (List UInt16)) := do
  match ← consult w.getEnvironmentStrings with
  | none => do
    let error ← windowsError w "could not snapshot the wrapped-process environment"
    pure (.error error)
  | some environment => pure (.ok (leasedEnvironmentBlock environment))

/-- The environment `CreateProcessW` gets; `none` is to inherit. -/
def childEnvironment (leased : Bool) : Run (Except Error (Option (List UInt16))) :=
  if leased then do
    let environment ← leasedEnvironment w
    pure (environment.map some)
  else pure (.ok none)

/-- The end of a process whose thread could not be resumed. -/
def abortInJob : Run Error := do
  let error ← windowsError w "could not resume wrapped process"
  let terminated ← consult w.terminateJobObject
  if !terminated then abortUnstartedProcess w error
  else
    match ← consult w.waitForSingleObject with
    | .object0 => pure error
    | _ => pure (.message
        s!"{error.display}; the failed wrapped process did not terminate cleanly")

/-- The suspended process in a new job. -/
def resumeInJob (job : UInt64) (process : ProcessInformation) : Run (Except Error UInt64) := do
  let assigned ← consult w.assignProcessToJobObject
  if !assigned then do
    let error ← windowsError w "could not assign wrapped process to its job object"
    let error ← abortUnstartedProcess w error
    pure (.error error)
  else do
    record (.assigned job process.process)
    let previous ← consult w.resumeThread
    if previous = resumeFailed then do
      let error ← abortInJob w
      pure (.error error)
    else do
      record (.resumed process.thread)
      pure (.ok job)

/-- From the suspended process to the running one in its job. -/
def startInJob (process : ProcessInformation) : Run (Except Error UInt64) := do
  match ← consult w.createJobObject with
  | none => do
    let error ← windowsError w "could not create wrapped-process job object"
    let error ← abortUnstartedProcess w error
    pure (.error error)
  | some job => resumeInJob w job process

/-- The tree cannot be followed any more: kill it, or have it killed with the job. -/
def abortTree : Run Unit := do
  let terminated ← consult w.terminateJobObject
  if !terminated then do
    let limited ← consult w.setInformationJobObject
    if !limited then do
      let _ ← consult w.terminateProcess
      pure ()
    else pure ()
  else pure ()

/-- The loop that waits for the process tree, and the exit code. -/
def awaitTree (job process : UInt64) : Nat → Run (Option UInt32)
  | 0 => pure none
  | polls + 1 => do
    let accounting ← consult w.queryInformationJobObject
    record (.queried job accounting)
    match accounting with
    | none => do
      abortTree w
      let _ ← consult w.waitForSingleObject
      pure (some errorProcessAborted)
    | some activeProcesses =>
      if activeProcesses = 0 then do
        let exitCode ← consult w.getExitCodeProcess
        record (.exited process exitCode)
        pure (some (exitCode.getD errorProcessAborted))
      else awaitTree job process polls

/-- What `launch_and_wait` does with the process it created. -/
def runProcess (process : ProcessInformation) (polls : Nat) :
    Run (Option (Except Error UInt32)) := do
  match ← startInJob w process with
  | .error error => pure (some (.error error))
  | .ok job => do
    let exitCode ← awaitTree w job process.process polls
    pure (exitCode.map .ok)

/-- `launch_and_wait`. -/
def launchAndWait (arguments : List (List UInt16)) (leased : Bool) (polls : Nat) :
    Run (Option (Except Error UInt32)) := do
  match ← childEnvironment w leased with
  | .error error => pure (some (.error error))
  | .ok environment =>
    match ← consult w.createProcess with
    | none => do
      let error ← windowsError w "could not start wrapped process"
      pure (some (.error error))
    | some process => do
      record (.created (commandLine arguments) environment process)
      runProcess w process polls

/-! ## The callers -/

/-- `WrappedRun`. -/
structure WrappedRun where
  exitCode : UInt32
  release : Except Error ReleaseOutcome

/-- `Client::run_wrapped`, for a client of `targetName`. -/
def runWrapped (targetName : String) (command : List (List UInt16)) (polls : Nat) :
    Run (Option (Except Error WrappedRun)) := do
  match wideCommand command with
  | .error e => pure (some (.error e))
  | .ok arguments =>
    match ← acquire w targetName with
    | .error e => pure (some (.error e))
    | .ok lease =>
      match ← launchAndWait w arguments true polls with
      | none => pure none
      | some launched => do
        record .returned
        let released ← lease.release w
        pure (some (launched.map fun exitCode => { exitCode := exitCode, release := released }))

/-- `run_unleased`. -/
def runUnleased (command : List (List UInt16)) (polls : Nat) :
    Run (Option (Except Error UInt32)) :=
  match wideCommand command with
  | .error e => pure (some (.error e))
  | .ok arguments => launchAndWait w arguments false polls

/-- What `run_command` says of a wrapped run. -/
def reportRun (run : WrappedRun) : Run Unit :=
  match run.release with
  | .ok outcome => do
    record (.printed s!"Process tree exited with code {run.exitCode}; Steam Input unblocked.")
    match outcome.recovery.error with
    | some error =>
      record (.printed
        s!"Steam was not asked to look for controllers again: {error.display}")
    | none => pure ()
  | .error error =>
    record (.printed (s!"Process tree exited with code {run.exitCode}; Steam Input unblocked, " ++
      "but the release handshake failed and controller recovery did not run: " ++ error.display))

/-- `run_command`, without the log file's first line. -/
def runCommand (targetName : String) (command : List (List UInt16)) (polls : Nat) :
    Run (Option UInt32) := do
  record (.printed "Acquiring Steam Input block lease...")
  match ← runWrapped w targetName command polls with
  | none => pure none
  | some (.ok run) => do
    reportRun run
    pure (some run.exitCode)
  | some (.error error) => do
    record (.printed
      s!"Steam Input block unavailable ({error.display}); starting without it.")
    match ← runUnleased w command polls with
    | none => pure none
    | some (.ok exitCode) => do
      record (.printed s!"Process tree exited with code {exitCode}.")
      pure (some exitCode)
    | some (.error error) => do
      record (.printed s!"Could not start the program: {error.display}")
      pure (some 1)

end

/-! ## What a run shows -/

/-- The result of a run from an empty journal. -/
def result {α : Type} (x : Run α) : α := (x.run (.start Event)).1

/-- Its journal. -/
def entries {α : Type} (x : Run α) : List Event := (x.run (.start Event)).2.entries

def Event.isResumed : Event → Bool
  | .resumed _ => true
  | _ => false

/-- The processes whose thread was resumed. -/
def resumes (log : List Event) : Nat := log.countP Event.isResumed

/-- The attempts to release. -/
def releases (log : List Event) : Nat := log.count (.sent .releaseLease)

def Event.isCreated : Event → Bool
  | .created _ _ _ => true
  | _ => false

/-- A resumed thread is that of the process created last, which is in a job by then. -/
def Confined (log : List Event) : Prop :=
  ∀ before thread after, log = before ++ .resumed thread :: after →
    ∃ earlier line environment process middle job,
      before = earlier ++ .created line environment process :: middle ∧
        (∀ e ∈ middle, e.isCreated = false) ∧ process.thread = thread ∧
        .assigned job process.process ∈ middle

/-- One release is attempted, behind the launch. -/
def ReleasedAfterLaunch (log : List Event) : Prop :=
  ∃ before after, log = before ++ .returned :: after ∧ releases before = 0 ∧ releases after = 1

/-- The job was asked for its active processes until it had none, and the process for its exit code
    then; or the job gave no answer, and the code stands for that. `none` is to wait still. -/
inductive Follows (w : Answers) (job process : UInt64) : Option UInt32 → List Event → Prop
  | waits : Follows w job process none []
  | lost (i : Nat) (hi : w.queryInformationJobObject i = none) :
    Follows w job process (some errorProcessAborted) [.queried job none]
  | ended (i k : Nat) (hi : w.queryInformationJobObject i = some 0) :
    Follows w job process (some ((w.getExitCodeProcess k).getD errorProcessAborted))
      [.queried job (some 0), .exited process (w.getExitCodeProcess k)]
  | polled (i : Nat) (activeProcesses : UInt32) (r : Option UInt32) (log : List Event)
      (hi : w.queryInformationJobObject i = some activeProcesses) (hactive : activeProcesses ≠ 0)
      (hlog : Follows w job process r log) :
      Follows w job process r (.queried job (some activeProcesses) :: log)

/-- One process was let run: it was created with `line`, put into a job, resumed, and followed to
    `exitCode`. -/
def LetsRun (w : Answers) (line : List UInt16) (exitCode : Option UInt32) (log : List Event) :
    Prop :=
  ∃ before environment process job tree after,
    log = before ++ ([.created line environment process, .assigned job process.process,
      .resumed process.thread] ++ tree) ++ after ∧
    resumes before = 0 ∧ Follows w job process.process exitCode tree ∧ resumes after = 0

/-- An error is returned only where nothing was resumed, and whatever returns once something
    was resumed succeeds. -/
structure StartsOnce {α : Type} (x : Run (Option (Except Error α))) : Prop where
  failed : ∀ e, result x = some (.error e) → resumes (entries x) = 0
  started : resumes (entries x) ≠ 0 → ∀ r, result x = some r → ∃ a, r = .ok a
  once : resumes (entries x) ≤ 1
  confined : Confined (entries x)

end Launch
end SteamInputLease
