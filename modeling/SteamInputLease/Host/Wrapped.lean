import SteamInputLease.Host.Client
import SteamInputLease.Lib.Embed

/-!
# A wrapped run, call by call

`Client::run_wrapped` with `launch_and_wait`, as a program that calls Windows. Its calls are those
of the client's operations and those that start and follow a process; the two kinds of handles are
told apart. The wait for the process tree is bounded by a number of polls, and `none` is a run that
still waits then.
-/

namespace SteamInputLease
namespace Host

open Lib Protocol
open Launch (Error ReleaseOutcome WrappedRun wideCommand commandLine leasedEnvironmentBlock
  resumeFailed errorProcessAborted)

inductive LaunchCall
  | getEnvironmentStrings
  | freeEnvironmentStrings (environment : UInt64)
  | createProcess (commandLine : List UInt16) (environment : Option (List UInt16))
  | createJobObject
  | assignProcessToJobObject (job process : UInt64)
  | resumeThread (thread : UInt64)
  | terminateJobObject (job : UInt64)
  | terminateProcess (process : UInt64)
  | waitForSingleObject (process : UInt64)
  | queryInformationJobObject (job : UInt64)
  /-- `JOB_OBJECT_LIMIT_KILL_ON_JOB_CLOSE`. -/
  | setInformationJobObject (job : UInt64)
  | getExitCodeProcess (process : UInt64)
  | sleep
  | lastOsError
  | closeHandle (handle : UInt64)
  deriving DecidableEq, Repr

/-- An answer, of which each call reads its own part. -/
structure LaunchAnswer where
  /-- Not `FALSE`. -/
  ok : Bool
  /-- The handle or the address that comes back, and the handle of the first thread. -/
  handle : UInt64
  thread : UInt64
  /-- A count, an exit code or the result of a wait. -/
  value : UInt32
  text : String
  /-- The block, with its two terminating NULs. -/
  environment : List UInt16
  deriving DecidableEq, Repr

/-- A part of `launch_and_wait`. -/
abbrev Launching := Program LaunchCall LaunchAnswer

/-! ## What has to be given back -/

inductive LaunchHandle
  | object (handle : UInt64)
  | environment (address : UInt64)
  deriving DecidableEq, Repr

/-- What an `OwnedHandle` closes when it is dropped. -/
def launched (handle : UInt64) : Multiset LaunchHandle :=
  if handle = 0 ∨ handle = invalidHandle then 0 else {.object handle}

def LaunchCall.opens (a : LaunchAnswer) : LaunchCall → Multiset LaunchHandle
  | .getEnvironmentStrings => if a.handle = 0 then 0 else {.environment a.handle}
  | .createProcess _ _ => if a.ok then launched a.handle + launched a.thread else 0
  | .createJobObject => launched a.handle
  | _ => 0

def launchCustody : Custody LaunchCall LaunchAnswer LaunchHandle where
  uses
    | .assignProcessToJobObject job process => launched job + launched process
    | .resumeThread handle | .terminateJobObject handle | .terminateProcess handle
    | .waitForSingleObject handle | .queryInformationJobObject handle
    | .setInformationJobObject handle | .getExitCodeProcess handle => launched handle
    | _ => 0
  takes
    | .closeHandle handle, _ => {.object handle}
    | .freeEnvironmentStrings address, _ => {.environment address}
    | _, _ => 0
  gives c a := c.opens a

/-! ## The process -/

/-- `OwnedHandle`'s `drop`. -/
def dropLaunched (handle : UInt64) : Launching Unit :=
  if handle = 0 ∨ handle = invalidHandle then pure ()
  else do
    let _ ← Program.ask (.closeHandle handle)
    pure ()

/-- `Error::windows`. -/
def launchError (operation : String) : Launching Error := do
  let last ← Program.ask .lastOsError
  pure (.windows operation last.text)

/-- `abort_unstarted_process`. -/
def abortUnstartedProcess (process : UInt64) (cause : Error) : Launching Error := do
  let terminated ← Program.ask (.terminateProcess process)
  if !terminated.ok then do
    let last ← Program.ask .lastOsError
    pure (.message (s!"{cause.display}; additionally, the suspended process could not be " ++
      s!"terminated: {last.text}"))
  else do
    let waited ← Program.ask (.waitForSingleObject process)
    if waited.value = waitObject0 then pure cause
    else if waited.value = waitTimeout then
      pure (.message (s!"{cause.display}; additionally, the suspended process did " ++
        "not terminate within 5 seconds"))
    else do
      let last ← Program.ask .lastOsError
      pure (.message (s!"{cause.display}; additionally, waiting for suspended-process " ++
        s!"termination failed: {last.text}"))

/-- `leased_environment`. -/
def leasedEnvironment : Launching (Except Error (List UInt16)) := do
  let block ← Program.ask .getEnvironmentStrings
  if block.handle = 0 then do
    let error ← launchError "could not snapshot the wrapped-process environment"
    pure (.error error)
  else do
    let _ ← Program.ask (.freeEnvironmentStrings block.handle)
    pure (.ok (leasedEnvironmentBlock block.environment))

/-- The environment `CreateProcessW` gets; `none` is to inherit. -/
def childEnvironment (leased : Bool) : Launching (Except Error (Option (List UInt16))) :=
  if leased then do
    let environment ← leasedEnvironment
    pure (environment.map some)
  else pure (.ok none)

/-- The end of a process whose thread could not be resumed. -/
def abortInJob (job process : UInt64) : Launching Error := do
  let error ← launchError "could not resume wrapped process"
  let terminated ← Program.ask (.terminateJobObject job)
  if !terminated.ok then abortUnstartedProcess process error
  else do
    let waited ← Program.ask (.waitForSingleObject process)
    if waited.value ≠ waitObject0 then
      pure (.message s!"{error.display}; the failed wrapped process did not terminate cleanly")
    else pure error

/-- The suspended process in a new job; on an error the job is dropped. -/
def resumeInJob (job process thread : UInt64) : Launching (Except Error UInt64) := do
  let assigned ← Program.ask (.assignProcessToJobObject job process)
  if !assigned.ok then do
    let error ← launchError "could not assign wrapped process to its job object"
    let error ← abortUnstartedProcess process error
    dropLaunched job
    pure (.error error)
  else do
    let previous ← Program.ask (.resumeThread thread)
    if previous.value = resumeFailed then do
      let error ← abortInJob job process
      dropLaunched job
      pure (.error error)
    else pure (.ok job)

/-- From the suspended process to the running one in its job. -/
def startInJob (process thread : UInt64) : Launching (Except Error UInt64) := do
  let job ← Program.ask .createJobObject
  if job.handle = 0 then do
    let error ← launchError "could not create wrapped-process job object"
    let error ← abortUnstartedProcess process error
    pure (.error error)
  else resumeInJob job.handle process thread

/-- The tree cannot be followed any more: kill it, or have it killed with the job. -/
def abortTree (job process : UInt64) : Launching Unit := do
  let terminated ← Program.ask (.terminateJobObject job)
  if !terminated.ok then do
    let limited ← Program.ask (.setInformationJobObject job)
    if !limited.ok then do
      let _ ← Program.ask (.terminateProcess process)
      pure ()
    else pure ()
  else pure ()

/-- The loop that waits for the process tree, the exit code, and the job that is dropped then. -/
def awaitTree (job process : UInt64) : Nat → Launching (Option UInt32)
  | 0 => pure none
  | polls + 1 => do
    let accounting ← Program.ask (.queryInformationJobObject job)
    if !accounting.ok then do
      abortTree job process
      dropLaunched job
      let _ ← Program.ask (.waitForSingleObject process)
      pure (some errorProcessAborted)
    else if accounting.value = 0 then do
      let code ← Program.ask (.getExitCodeProcess process)
      dropLaunched job
      pure (some (if code.ok then code.value else errorProcessAborted))
    else do
      let _ ← Program.ask .sleep
      awaitTree job process polls

/-- What `launch_and_wait` does with the process it created. -/
def runProcess (process thread : UInt64) (polls : Nat) :
    Launching (Option (Except Error UInt32)) := do
  match ← startInJob process thread with
  | .error error => do
    dropLaunched thread
    dropLaunched process
    pure (some (.error error))
  | .ok job => do
    dropLaunched thread
    match ← awaitTree job process polls with
    | none => pure none
    | some exitCode => do
      dropLaunched process
      pure (some (.ok exitCode))

/-- `launch_and_wait`. -/
def launchAndWait (arguments : List (List UInt16)) (leased : Bool) (polls : Nat) :
    Launching (Option (Except Error UInt32)) := do
  match ← childEnvironment leased with
  | .error error => pure (some (.error error))
  | .ok environment => do
    let created ← Program.ask (.createProcess (commandLine arguments) environment)
    if !created.ok then do
      let error ← launchError "could not start wrapped process"
      pure (some (.error error))
    else runProcess created.handle created.thread polls

/-! ## The run -/

inductive WrappedCall
  | host (call : HostCall)
  | launch (call : LaunchCall)
  deriving DecidableEq, Repr

structure WrappedAnswer where
  host : HostAnswer
  launch : LaunchAnswer

inductive WrappedHandle
  | host (handle : HostHandle)
  | launch (handle : LaunchHandle)
  deriving DecidableEq, Repr

def wrappedCustody : Custody WrappedCall WrappedAnswer WrappedHandle where
  uses
    | .host c => (hostCustody.uses c).map .host
    | .launch c => (launchCustody.uses c).map .launch
  takes
    | .host c, a => (hostCustody.takes c a.host).map .host
    | .launch c, a => (launchCustody.takes c a.launch).map .launch
  gives
    | .host c, a => (hostCustody.gives c a.host).map .host
    | .launch c, a => (launchCustody.gives c a.launch).map .launch

/-- `Client::run_wrapped`. -/
def runWrapped (options : ClientOptions) (rounds : Nat) (command : List (List UInt16))
    (polls : Nat) : Program WrappedCall WrappedAnswer (Option (Except Error WrappedRun)) :=
  match wideCommand command with
  | .error error => pure (some (.error error))
  | .ok arguments => do
    match ← (acquire options rounds).embed .host WrappedAnswer.host with
    | none => pure none
    | some (.error error) => pure (some (.error error))
    | some (.ok lease) => do
      match ← (launchAndWait arguments true polls).embed .launch WrappedAnswer.launch with
      | none => pure none
      | some launched => do
        let released ← lease.release.embed .host WrappedAnswer.host
        pure (some (launched.map fun exitCode => ⟨exitCode, released⟩))

/-! ## What a run shows -/

/-- What has become of the process that was created. -/
inductive Fate
  | absent
  /-- It has not run, and is in the job. -/
  | suspended (process thread : UInt64) (job : Option UInt64)
  /-- It runs; the job may kill its processes when it is closed. -/
  | running (process : UInt64) (job : Option UInt64) (armed : Bool)
  /-- It was killed itself, and others in the job may run. -/
  | orphaned (job : Option UInt64)
  /-- Its tree has ended, or was killed. -/
  | over
  deriving DecidableEq, Repr

def Fate.next (f : Fate) (e : LaunchCall × LaunchAnswer) : Fate :=
  match f, e.1 with
  | .absent, .createProcess _ _ => if e.2.ok then .suspended e.2.handle e.2.thread none else f
  | .suspended process thread _, .assignProcessToJobObject job p =>
    if e.2.ok ∧ p = process then .suspended process thread (some job) else f
  | .suspended process thread job, .resumeThread t =>
    if e.2.value ≠ resumeFailed ∧ t = thread then .running process job false else f
  | .suspended process _ _, .terminateProcess p => if e.2.ok ∧ p = process then .over else f
  | .suspended _ _ job, .terminateJobObject j => if e.2.ok ∧ job = some j then .over else f
  | .running process job _, .terminateProcess p =>
    if e.2.ok ∧ p = process then .orphaned job else f
  | .running _ job _, .terminateJobObject j => if e.2.ok ∧ job = some j then .over else f
  | .running process job _, .setInformationJobObject j =>
    if e.2.ok ∧ job = some j then .running process job true else f
  | .running _ job _, .queryInformationJobObject j =>
    if e.2.ok ∧ e.2.value = 0 ∧ job = some j then .over else f
  | .running _ job true, .closeHandle j => if job = some j then .over else f
  | _, _ => f

/-- The calls of a run that start and follow the process. -/
def launchLog (log : List (WrappedCall × WrappedAnswer)) : List (LaunchCall × LaunchAnswer) :=
  log.filterMap fun e =>
    match e.1 with
    | .launch c => some (c, e.2.launch)
    | .host _ => none

/-- The calls of a run to the client's operations. -/
def hostLog (log : List (WrappedCall × WrappedAnswer)) : List (HostCall × HostAnswer) :=
  log.filterMap fun e =>
    match e.1 with
    | .host c => some (c, e.2.host)
    | .launch _ => none

/-- The requests of a run. -/
def requestLog (log : List (WrappedCall × WrappedAnswer)) : List Request :=
  log.filterMap fun e =>
    match e.1 with
    | .host c => writtenRequest (c, e.2.host)
    | .launch _ => none

def fate (log : List (LaunchCall × LaunchAnswer)) : Fate := log.foldl .next .absent

/-- The job refused to be killed and to kill its processes when it is closed. -/
def Refused (log : List (LaunchCall × LaunchAnswer)) : Prop :=
  ∃ job terminated limited, (.terminateJobObject job, terminated) ∈ log ∧ terminated.ok = false ∧
    (.setInformationJobObject job, limited) ∈ log ∧ limited.ok = false

/-- The suspended process refused to be killed. -/
def Stuck (log : List (LaunchCall × LaunchAnswer)) : Prop :=
  ∃ process terminated, (.terminateProcess process, terminated) ∈ log ∧ terminated.ok = false

/-- A thread was let run. -/
def Ran (log : List (LaunchCall × LaunchAnswer)) : Prop :=
  ∃ thread previous, (.resumeThread thread, previous) ∈ log ∧ previous.value ≠ resumeFailed

/-- `CreateJobObjectW` returns no `INVALID_HANDLE_VALUE`. -/
def JobsValid (log : List (LaunchCall × LaunchAnswer)) : Prop :=
  ∀ a, (.createJobObject, a) ∈ log → a.handle ≠ invalidHandle

/-- What a launch that failed created is killed, unless it refused to be. One that succeeded is
    over, unless its job refused to be killed; the job is a handle that can be closed. -/
def LaunchEnds (log : List (LaunchCall × LaunchAnswer)) : Except Error UInt32 → Prop
  | .error _ => fate log = .absent ∨ fate log = .over ∨
    (∃ process thread job, fate log = .suspended process thread job) ∧ Stuck log
  | .ok exitCode => JobsValid log → fate log = .over ∨ Refused log ∧ exitCode = errorProcessAborted

/-- How a wrapped run goes: without a lease nothing is launched; a lease that was granted is kept for
    the whole of the launch; and a launch that failed has let nothing run. -/
inductive WrappedGoes :
    List (WrappedCall × WrappedAnswer) → Option (Except Error WrappedRun) → Prop
  | unleased (log : List (WrappedCall × WrappedAnswer)) (r : Option (Except Error WrappedRun))
      (hlog : launchLog log = [])
      (hrequest : requestLog log = [Request.new .acquireLease] ∨ requestLog log = [])
      (hr : ∀ run, r ≠ some (.ok run)) : WrappedGoes log r
  | waits (before during : List (WrappedCall × WrappedAnswer)) (hbefore : launchLog before = [])
      (hacquired : requestLog before = [Request.new .acquireLease])
      (hgranted : Granted .acquireLease (hostLog before))
      (hduring : requestLog during = []) : WrappedGoes (before ++ during) none
  | ran (before during after : List (WrappedCall × WrappedAnswer))
      (launched : Except Error UInt32) (released : Except Error ReleaseOutcome)
      (hbefore : launchLog before = [])
      (hacquired : requestLog before = [Request.new .acquireLease])
      (hgranted : Granted .acquireLease (hostLog before))
      (hduring : requestLog during = [])
      (hfailed : ∀ error, launched = .error error → ¬ Ran (launchLog during))
      (hends : LaunchEnds (launchLog during) launched)
      (hafter : launchLog after = [])
      (hreleased : requestLog after = [Request.new .releaseLease]) :
      WrappedGoes (before ++ (during ++ after))
        (some (launched.map fun exitCode => ⟨exitCode, released⟩))

end Host
end SteamInputLease
