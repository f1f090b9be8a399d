import SteamInputLease.Host.Wrapped

/-!
# The environment that a log tells of

`run_wrapped` is modelled twice. `Launch.runWrapped` asks an environment that answers by the
instant, and enters what it does into a journal; `Host.runWrapped` calls Windows. Here both the
answers of that environment and the entries of that journal are read off the calls, so that the two
can be compared run by run.

Most of what the first one asks is one call of the second. Three questions are answered by many
calls: which process is the target, the pipe to it, and what became of the rescan. Their answers
are what the calls lead to, replayed.
-/

namespace SteamInputLease
namespace Host

open Lib Protocol
open Recovery (RescanResult)
open Launch (Error Answers Event ProcessInformation WaitResult resumeFailed wideCommand)

/-! ## Answers in turn -/

/-- A question that the launcher's model asks, with the answer. -/
inductive Consulted
  | processId (answer : Except Error UInt32)
  | connect (answer : Except Error UInt64)
  | writeFile (answer : Option Nat)
  | readFile (answer : Option (Response × Nat))
  | rescanSteamControllers (answer : Except Error RescanResult)
  | lastOsError (answer : String)
  | getEnvironmentStrings (answer : Option (List UInt16))
  | createProcess (answer : Option ProcessInformation)
  | createJobObject (answer : Option UInt64)
  | assignProcessToJobObject (answer : Bool)
  | resumeThread (answer : UInt32)
  | terminateJobObject (answer : Bool)
  | terminateProcess (answer : Bool)
  | waitForSingleObject (answer : WaitResult)
  | queryInformationJobObject (answer : Option UInt32)
  | setInformationJobObject (answer : Bool)
  | getExitCodeProcess (answer : Option UInt32)

/-- The environment gives this answer at that instant. -/
def Consulted.Holds (w : Answers) (i : Nat) : Consulted → Prop
  | .processId answer => w.processId i = answer
  | .connect answer => w.connect i = answer
  | .writeFile answer => w.writeFile i = answer
  | .readFile answer => w.readFile i = answer
  | .rescanSteamControllers answer => w.rescanSteamControllers i = answer
  | .lastOsError answer => w.lastOsError i = answer
  | .getEnvironmentStrings answer => w.getEnvironmentStrings i = answer
  | .createProcess answer => w.createProcess i = answer
  | .createJobObject answer => w.createJobObject i = answer
  | .assignProcessToJobObject answer => w.assignProcessToJobObject i = answer
  | .resumeThread answer => w.resumeThread i = answer
  | .terminateJobObject answer => w.terminateJobObject i = answer
  | .terminateProcess answer => w.terminateProcess i = answer
  | .waitForSingleObject answer => w.waitForSingleObject i = answer
  | .queryInformationJobObject answer => w.queryInformationJobObject i = answer
  | .setInformationJobObject answer => w.setInformationJobObject i = answer
  | .getExitCodeProcess answer => w.getExitCodeProcess i = answer

/-- From that instant on, the environment gives these answers in turn. -/
def Gives (w : Answers) : Nat → List Consulted → Prop
  | _, [] => True
  | i, c :: answers => c.Holds w i ∧ Gives w (i + 1) answers

/-- The environment that gives these answers in turn. -/
def environment (answers : List Consulted) : Answers where
  processId i := match answers[i]? with
    | some (.processId answer) => answer
    | _ => .error .architectureMismatch
  connect i := match answers[i]? with
    | some (.connect answer) => answer
    | _ => .error .architectureMismatch
  writeFile i := match answers[i]? with
    | some (.writeFile answer) => answer
    | _ => none
  readFile i := match answers[i]? with
    | some (.readFile answer) => answer
    | _ => none
  rescanSteamControllers i := match answers[i]? with
    | some (.rescanSteamControllers answer) => answer
    | _ => .error .architectureMismatch
  lastOsError i := match answers[i]? with
    | some (.lastOsError answer) => answer
    | _ => ""
  getEnvironmentStrings i := match answers[i]? with
    | some (.getEnvironmentStrings answer) => answer
    | _ => none
  createProcess i := match answers[i]? with
    | some (.createProcess answer) => answer
    | _ => none
  createJobObject i := match answers[i]? with
    | some (.createJobObject answer) => answer
    | _ => none
  assignProcessToJobObject i := match answers[i]? with
    | some (.assignProcessToJobObject answer) => answer
    | _ => false
  resumeThread i := match answers[i]? with
    | some (.resumeThread answer) => answer
    | _ => resumeFailed
  terminateJobObject i := match answers[i]? with
    | some (.terminateJobObject answer) => answer
    | _ => false
  terminateProcess i := match answers[i]? with
    | some (.terminateProcess answer) => answer
    | _ => false
  waitForSingleObject i := match answers[i]? with
    | some (.waitForSingleObject answer) => answer
    | _ => .failed
  queryInformationJobObject i := match answers[i]? with
    | some (.queryInformationJobObject answer) => answer
    | _ => none
  setInformationJobObject i := match answers[i]? with
    | some (.setInformationJobObject answer) => answer
    | _ => false
  getExitCodeProcess i := match answers[i]? with
    | some (.getExitCodeProcess answer) => answer
    | _ => none

/-! ## What a call answers and shows -/

/-- `WaitForSingleObject`. -/
def waitResult (value : UInt32) : WaitResult :=
  if value = waitObject0 then .object0 else if value = waitTimeout then .timeout else .failed

def readLaunch : LaunchCall × LaunchAnswer → List Consulted
  | (.getEnvironmentStrings, a) =>
    [.getEnvironmentStrings (if a.handle = 0 then none else some a.environment)]
  | (.createProcess _ _, a) =>
    [.createProcess (if a.ok then some ⟨a.handle, a.thread⟩ else none)]
  | (.createJobObject, a) => [.createJobObject (if a.handle = 0 then none else some a.handle)]
  | (.assignProcessToJobObject _ _, a) => [.assignProcessToJobObject a.ok]
  | (.resumeThread _, a) => [.resumeThread a.value]
  | (.terminateJobObject _, a) => [.terminateJobObject a.ok]
  | (.terminateProcess _, a) => [.terminateProcess a.ok]
  | (.waitForSingleObject _, a) => [.waitForSingleObject (waitResult a.value)]
  | (.queryInformationJobObject _, a) =>
    [.queryInformationJobObject (if a.ok then some a.value else none)]
  | (.setInformationJobObject _, a) => [.setInformationJobObject a.ok]
  | (.getExitCodeProcess _, a) => [.getExitCodeProcess (if a.ok then some a.value else none)]
  | (.lastOsError, a) => [.lastOsError a.text]
  | (.freeEnvironmentStrings _, _) | (.sleep, _) | (.closeHandle _, _) => []

def showLaunch : LaunchCall × LaunchAnswer → List Event
  | (.createProcess line environment, a) =>
    if a.ok then [.created line environment ⟨a.handle, a.thread⟩] else []
  | (.assignProcessToJobObject job process, a) => if a.ok then [.assigned job process] else []
  | (.resumeThread thread, a) => if a.value = resumeFailed then [] else [.resumed thread]
  | (.queryInformationJobObject job, a) => [.queried job (if a.ok then some a.value else none)]
  | (.getExitCodeProcess process, a) => [.exited process (if a.ok then some a.value else none)]
  | _ => []

/-- The calls of an exchange. -/
def readHost : HostCall × HostAnswer → List Consulted
  | (.writeFile _ _, a) => [.writeFile (if a.ok then some a.number else none)]
  | (.readFile _, a) => [.readFile (if a.ok then some (a.response, a.number) else none)]
  | (.lastOsError, a) => [.lastOsError a.text]
  | _ => []

/-- The command of a request. -/
def commandOf (request : Request) : Option Command :=
  [.acquireLease, .queryStatus, .releaseLease, .acquirePassThrough, .releasePassThrough].find?
    fun command => decide (Request.new command = request)

/-- The commands that were sent. -/
def sentEvents (log : List (HostCall × HostAnswer)) : List Event :=
  (written log).filterMap fun request => (commandOf request).map .sent

/-- The lease of the launcher's model, which knows no pipe. -/
def Lease.unpiped (lease : Lease) : Launch.Lease where
  processId := lease.processId
  targetIsSteam := lease.targetIsSteam
  acquiredStatus := lease.acquiredStatus

/-! ## What a run answers and shows -/

section

variable (options : ClientOptions) (rounds : Nat)

/-- `acquire`: the target, the pipe, and the exchange behind them. -/
def acquireReads (log : List (HostCall × HostAnswer)) : List Consulted :=
  match (findProcess options.targetName).replay log with
  | none => []
  | some (.error e, _) => [.processId (.error e)]
  | some (.ok processId, behind) =>
    match (connect options rounds processId).replay behind with
    | some (some reached, behind) =>
      .processId (.ok processId) :: .connect reached :: behind.flatMap readHost
    | _ => []

/-- A rescan, if there is one. -/
def rescanReads (processId : UInt32) (log : List (HostCall × HostAnswer)) : List Consulted :=
  ((rescanSteamControllers processId).replay log).elim []
    fun rescanned => [.rescanSteamControllers rescanned.1]

/-- `release`: the exchange, and the rescan behind it, which takes a snapshot first. -/
def releaseReads (processId : UInt32) (log : List (HostCall × HostAnswer)) : List Consulted :=
  (log.takeWhile (!·.1.takesSnapshot)).flatMap readHost ++
    rescanReads processId (log.dropWhile (!·.1.takesSnapshot))

def WrappedCall.isHost : WrappedCall → Bool
  | .host _ => true
  | .launch _ => false

/-- The calls before the launch, and those behind it. -/
def beforeLaunch (log : List (WrappedCall × WrappedAnswer)) : List (HostCall × HostAnswer) :=
  hostLog (log.takeWhile (·.1.isHost))

def behindLaunch (log : List (WrappedCall × WrappedAnswer)) : List (HostCall × HostAnswer) :=
  hostLog (log.dropWhile (·.1.isHost))

/-- The calls are those of a `connect` that has not come to the pipe in the rounds it had. -/
def StillConnecting (log : List (HostCall × HostAnswer)) : Prop :=
  ∃ processId behind,
    (findProcess options.targetName).replay log = some (.ok processId, behind) ∧
      (connect options rounds processId).replay behind = some (none, [])

/-- The target that was found. -/
def targetOf (log : List (HostCall × HostAnswer)) : UInt32 :=
  match (findProcess options.targetName).replay log with
  | some (.ok processId, _) => processId
  | _ => 0

/-- A command that is refused is refused unasked. -/
def wrappedReads (command : List (List UInt16)) (log : List (WrappedCall × WrappedAnswer)) :
    List Consulted :=
  match wideCommand command with
  | .error _ => []
  | .ok _ =>
    acquireReads options rounds (beforeLaunch log) ++ (launchLog log).flatMap readLaunch ++
      releaseReads (targetOf options (beforeLaunch log)) (behindLaunch log)

/-- A lease was acquired where a process is launched, and the launch returned where its release is
    sent. -/
def wrappedShows (log : List (WrappedCall × WrappedAnswer)) : List Event :=
  sentEvents (beforeLaunch log) ++
    (if launchLog log = [] then [] else .acquired :: (launchLog log).flatMap showLaunch) ++
    if behindLaunch log = [] then [] else .returned :: sentEvents (behindLaunch log)

end

end Host
end SteamInputLease
