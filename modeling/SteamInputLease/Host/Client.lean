import SteamInputLease.Host.Inject

/-!
# The client's operations

`Client`, `Lease` and `PassThrough` over the control pipe. Where the library polls for the pipe, the
polls are bounded by a number of rounds, and `none` is an operation that still waits then. A session
is a program that uses the library: it calls operations in any order, and holds the leases and
pass-through claims it got until it releases or drops them.
-/

namespace SteamInputLease
namespace Host

open Lib Protocol
open Recovery (RescanResult)
open Launch (Error ModuleEntry RemoteModule Snapshot PipeAttempt PipeCalls Target errorPipeBusy
  errorFileNotFound verifyPipeServer responseSize inContext probeTimeout eqIgnoreAsciiCase
  asciiUnits Status)

/-! ## The pipe -/

/-- `pipe_name`. -/
def pipeName (processId : UInt32) : List UInt16 :=
  asciiUnits s!"\\\\.\\pipe\\SteamInputGate-{processId}".toList ++ [0]

/-- The end of a round of `connect_pipe` that opened the pipe. -/
def openedPipe (processId : UInt32) (pipe : UInt64) : Hosting (Except Error UInt64) := do
  let server ← Program.ask (.getNamedPipeServerProcessId pipe)
  if !server.ok then do
    let r ← windowsError "could not identify the payload pipe server"
    dropHandle pipe
    pure r
  else
    match verifyPipeServer processId server.value with
    | .error e => do
      dropHandle pipe
      pure (.error e)
    | .ok () => pure (.ok pipe)

/-- The loop of `connect_pipe`. -/
def pollPipe (processId : UInt32) (deadline : Nat) :
    Nat → Hosting (Option (Except Error UInt64))
  | 0 => pure none
  | rounds + 1 => do
    let file ← Program.ask (.createFile (pipeName processId))
    if file.handle ≠ invalidHandle then do
      let r ← openedPipe processId file.handle
      pure (some r)
    else do
      let last ← Program.ask .lastOsError
      if last.error ≠ errorPipeBusy ∧ last.error ≠ errorFileNotFound then
        pure (some (.error (.windows "could not connect to payload pipe" last.text)))
      else do
        let now ← Program.ask .now
        if deadline ≤ now.number then
          pure (some (.error (.payloadUnavailable "timed out connecting to payload pipe"
            last.text)))
        else do
          let _ ← Program.ask (if last.error = errorFileNotFound then .sleep else .waitNamedPipe)
          pollPipe processId deadline rounds

/-- `connect_pipe`. -/
def connectPipe (processId : UInt32) (timeout rounds : Nat) :
    Hosting (Option (Except Error UInt64)) := do
  let started ← Program.ask .now
  pollPipe processId (started.number + timeout) rounds

/-- The read of `exchange`. -/
def readResponse (pipe : UInt64) : Hosting (Except Error Response) := do
  let read ← Program.ask (.readFile pipe)
  if !read.ok then windowsError "could not read payload response"
  else if read.number ≠ responseSize then
    pure (.error (.protocol "the payload returned an incomplete response"))
  else if !read.response.isValid then
    pure (.error (.protocol
      "the payload rejected the command or uses a different protocol version"))
  else pure (.ok read.response)

/-- `exchange`. -/
def exchange (pipe : UInt64) (command : Command) : Hosting (Except Error Response) := do
  let written ← Program.ask (.writeFile pipe (Request.new command))
  if !written.ok then windowsError "could not send command to payload"
  else if written.number ≠ requestSize then
    pure (.error (.protocol "the payload pipe accepted an incomplete command"))
  else readResponse pipe

/-! ## The client -/

/-- `ClientOptions`, the target's name included. -/
structure ClientOptions extends Launch.ClientOptions where
  targetName : String
  deriving DecidableEq, Repr

section

variable (options : ClientOptions) (rounds : Nat)

/-- `Client::connect_only`. -/
def connectOnly (processId : UInt32) : Hosting (Option (Except Error UInt64)) := do
  let r ← connectPipe processId options.connectTimeout rounds
  pure (r.map (inContext ("no resident Steam Input payload answered; Steam Input Management is " ++
    "off, its proxy is not deployed, or Steam has not restarted since deployment")))

/-- A payload of the configured name is resident. -/
def residentByName (processId : UInt32) : Hosting Bool :=
  match options.payloadName with
  | none => pure false
  | some name => do
    let module ← remoteModule processId name
    pure module.isSome

/-- `connect_or_inject` behind a probe that nothing answered. -/
def injectAndConnect (processId : UInt32) : Hosting (Option (Except Error UInt64)) := do
  let resident ← residentByName options processId
  if resident then do
    let r ← connectPipe processId options.connectTimeout rounds
    pure (r.map (inContext ("a payload with this name is already loaded, but its control pipe " ++
      "did not become available")))
  else do
    let file ← Program.ask (.isFile options.payloadPath)
    if !file.ok then pure (some (.error (.payloadNotFound options.payloadPath)))
    else
      match ← injectPayload processId options.payloadPath with
      | .error e => pure (some (.error e))
      | .ok () => do
        let r ← connectPipe processId options.connectTimeout rounds
        pure (r.map (inContext "the payload loaded, but its control pipe did not become available"))

/-- `Client::connect_or_inject`. -/
def connectOrInject (processId : UInt32) : Hosting (Option (Except Error UInt64)) := do
  match ← connectPipe processId probeTimeout rounds with
  | some (.error (.payloadUnavailable _ _)) => injectAndConnect options rounds processId
  | other => pure other

/-- `Client::connect`. -/
def connect (processId : UInt32) : Hosting (Option (Except Error UInt64)) :=
  if options.allowInjection then connectOrInject options rounds processId
  else connectOnly options rounds processId

/-- A pipe on which the target granted `command`, with the target and its response. On an error the
    pipe is dropped. -/
def openWith (pipeOf : UInt32 → Hosting (Option (Except Error UInt64))) (command : Command) :
    Hosting (Option (Except Error (UInt64 × UInt32 × Response))) := do
  match ← findProcess options.targetName with
  | .error e => pure (some (.error e))
  | .ok processId =>
    match ← pipeOf processId with
    | none => pure none
    | some (.error e) => pure (some (.error e))
    | some (.ok pipe) => do
      match ← exchange pipe command with
      | .error e => do
        dropHandle pipe
        pure (some (.error e))
      | .ok response => pure (some (.ok (pipe, processId, response)))

/-- A status query, on a pipe of its own. -/
def queryWith (pipeOf : UInt32 → Hosting (Option (Except Error UInt64))) :
    Hosting (Option (Except Error Status)) := do
  match ← openWith options pipeOf .queryStatus with
  | none => pure none
  | some (.error e) => pure (some (.error e))
  | some (.ok (pipe, _, response)) => do
    dropHandle pipe
    pure (some (.ok (.ofResponse response)))

/-- `Client::ensure_payload`. -/
def ensurePayload : Hosting (Option (Except Error Status)) :=
  queryWith options (connect options rounds)

/-- `Client::status`. -/
def status : Hosting (Option (Except Error Status)) :=
  queryWith options fun processId => connectPipe processId 500 rounds

/-- `Lease`. -/
structure Lease where
  pipe : UInt64
  processId : UInt32
  targetIsSteam : Bool
  acquiredStatus : Status
  deriving DecidableEq, Repr

/-- `PassThrough`. -/
structure PassThrough where
  pipe : UInt64
  acquiredStatus : Status
  deriving DecidableEq, Repr

/-- The `Lease` of a grant. -/
def Lease.ofGrant (granted : UInt64 × UInt32 × Response) : Lease where
  pipe := granted.1
  processId := granted.2.1
  targetIsSteam := eqIgnoreAsciiCase options.targetName.toList "steam.exe".toList
  acquiredStatus := .ofResponse granted.2.2

/-- The `PassThrough` of a grant. -/
def PassThrough.ofGrant (granted : UInt64 × UInt32 × Response) : PassThrough where
  pipe := granted.1
  acquiredStatus := .ofResponse granted.2.2

/-- `Client::acquire`. -/
def acquire : Hosting (Option (Except Error Lease)) := do
  let r ← openWith options (connect options rounds) .acquireLease
  pure (r.map fun r => r.map (Lease.ofGrant options))

/-- `Client::acquire_pass_through`. -/
def acquirePassThrough : Hosting (Option (Except Error PassThrough)) := do
  let r ← openWith options (connect options rounds) .acquirePassThrough
  pure (r.map fun r => r.map PassThrough.ofGrant)

end

/-! ## Recovery and release -/

/-- `rescan_steam_controllers`, and `check_recovery` as far as what it opens is concerned. -/
def rescanSteamControllers (processId : UInt32) : Hosting (Except Error RescanResult) := do
  match ← remoteModule processId "steamclient64.dll".toList with
  | none => pure (.error (.unsupportedSteamBuild "steamclient64.dll is not loaded in Steam"))
  | some steamclient => do
    let process ← Program.ask (.openProcess processId)
    if process.handle = 0 then windowsError "could not open Steam for controller discovery"
    else do
      let result ← Program.ask (.recover process.handle steamclient)
      dropHandle process.handle
      pure result.recovered

/-- The recovery of a release that was answered. -/
def releaseRecovery (lease : Lease) (response : Response) : Hosting Launch.RecoveryOutcome := do
  if !lease.targetIsSteam || decide (0 < response.leaseCount) then pure .notRequired
  else if response.hasInternalRecovery then pure .scheduled
  else
    match ← rescanSteamControllers lease.processId with
    | .ok result => pure (.completed result)
    | .error error => pure (.unavailable error)

/-- `Lease::release`. -/
def Lease.release (lease : Lease) : Hosting (Except Error Launch.ReleaseOutcome) := do
  let response ← exchange lease.pipe .releaseLease
  dropHandle lease.pipe
  match response with
  | .error e => pure (.error e)
  | .ok response => do
    let recovery ← releaseRecovery lease response
    pure (.ok { status := .ofResponse response, recovery := recovery })

/-- `PassThrough::release`. -/
def PassThrough.release (claim : PassThrough) : Hosting (Except Error Status) := do
  let response ← exchange claim.pipe .releasePassThrough
  dropHandle claim.pipe
  pure (response.map .ofResponse)

/-! ## Sessions -/

/-- What a caller holds. -/
inductive Claim
  | lease (lease : Lease)
  | passThrough (claim : PassThrough)
  deriving DecidableEq, Repr

def Claim.pipe : Claim → UInt64
  | .lease l => l.pipe
  | .passThrough p => p.pipe

/-- The command by which the claim was acquired, and the one that releases it. -/
def Claim.acquiring : Claim → Command
  | .lease _ => .acquireLease
  | .passThrough _ => .acquirePassThrough

def Claim.releasing : Claim → Command
  | .lease _ => .releaseLease
  | .passThrough _ => .releasePassThrough

/-- What a caller may call; a claim is named by its place among those it holds. -/
inductive Operation
  | ensurePayload
  | status
  | rescan
  | acquire
  | acquirePassThrough
  | release (index : Nat)
  | drop (index : Nat)
  deriving DecidableEq, Repr

/-- The release of a claim. -/
def Claim.release : Claim → Hosting Unit
  | .lease l => do
    let _ ← l.release
    pure ()
  | .passThrough p => do
    let _ ← p.release
    pure ()

/-- What is held behind an acquisition. -/
def addClaim (claims : List Claim) {α : Type} (claim : α → Claim) :
    Option (Except Error α) → Option (List Claim)
  | none => none
  | some (.error _) => some claims
  | some (.ok a) => some (claims ++ [claim a])

section

variable (options : ClientOptions) (rounds : Nat)

/-- One operation, and the claims behind it. -/
def perform (claims : List Claim) : Operation → Hosting (Option (List Claim))
  | .ensurePayload => do
    let r ← ensurePayload options rounds
    pure (r.map fun _ => claims)
  | .status => do
    let r ← status options rounds
    pure (r.map fun _ => claims)
  | .rescan => do
    match ← findProcess options.targetName with
    | .error _ => pure (some claims)
    | .ok processId => do
      let _ ← rescanSteamControllers processId
      pure (some claims)
  | .acquire => do
    let r ← acquire options rounds
    pure (addClaim claims .lease r)
  | .acquirePassThrough => do
    let r ← acquirePassThrough options rounds
    pure (addClaim claims .passThrough r)
  | .release index =>
    match claims[index]? with
    | none => pure (some claims)
    | some claim => do
      claim.release
      pure (some (claims.eraseIdx index))
  | .drop index =>
    match claims[index]? with
    | none => pure (some claims)
    | some claim => do
      dropHandle claim.pipe
      pure (some (claims.eraseIdx index))

/-- A caller's operations in turn, up to one that still waits, and what it holds then. -/
def session : List Operation → List Claim → Hosting (List Claim)
  | [], claims => pure claims
  | operation :: operations, claims => do
    match ← perform options rounds claims operation with
    | none => pure claims
    | some claims => session operations claims

end

/-! ## What a run shows -/

def HostCall.opensProcess : HostCall → Bool
  | .openProcess _ => true
  | _ => false

/-- `connect` opens the target to inject and for nothing else. -/
def injectsInto (log : List (HostCall × HostAnswer)) : Bool := log.any (·.1.opensProcess)

/-- The pipes of the claims. -/
def claimsHeld (claims : List Claim) : Multiset HostHandle :=
  (claims.map fun claim => owned claim.pipe).sum

/-- What was written to a pipe. -/
def writtenRequest (e : HostCall × HostAnswer) : Option Request :=
  match e.1 with
  | .writeFile _ request => some request
  | _ => none

def written (log : List (HostCall × HostAnswer)) : List Request := log.filterMap writtenRequest

/-- A command was sent whole over a pipe, and the answer that was read from it then came whole and
    grants the command. -/
def Granted (command : Command) (log : List (HostCall × HostAnswer)) : Prop :=
  ∃ before pipe sent read,
    log = before ++ [(.writeFile pipe (Request.new command), sent), (.readFile pipe, read)] ∧
    sent.ok = true ∧ sent.number = requestSize ∧
    read.ok = true ∧ read.number = responseSize ∧ read.response.isValid = true

/-- The requests of a kind that were sent, and the claims of that kind that are held. -/
def sent (command : Command) (log : List (HostCall × HostAnswer)) : Nat :=
  (written log).count (Request.new command)

def held (command : Command) (claims : List Claim) : Nat :=
  claims.countP fun claim => claim.acquiring == command

/-- The requests of a session that began with `before` and holds `after`: each is one of the
    protocol's, and each release gives up a claim of its kind, which an acquisition made. -/
structure Conforms (log : List (HostCall × HostAnswer)) (before after : List Claim) : Prop where
  requests : ∀ request ∈ written log, ∃ command, request = Request.new command
  leases : sent .releaseLease log + held .acquireLease after ≤
    held .acquireLease before + sent .acquireLease log
  passThroughs : sent .releasePassThrough log + held .acquirePassThrough after ≤
    held .acquirePassThrough before + sent .acquirePassThrough log

/-! ## The target that a log tells of -/

/-- The calls of `connect_pipe`. -/
def HostCall.reachesPipe : HostCall → Bool
  | .now | .createFile _ | .getNamedPipeServerProcessId _ | .lastOsError | .sleep | .waitNamedPipe
  | .closeHandle _ => true
  | _ => false

def HostCall.asksError : HostCall → Bool
  | .lastOsError => true
  | _ => false

def HostCall.asksServer : HostCall → Bool
  | .getNamedPipeServerProcessId _ => true
  | _ => false

def HostCall.asksTime : HostCall → Bool
  | .now => true
  | _ => false

def HostCall.takesSnapshot : HostCall → Bool
  | .snapshotModules _ => true
  | _ => false

def HostCall.asksFile : HostCall → Bool
  | .isFile _ => true
  | _ => false

/-- The answer to the first call of a kind. -/
def firstAnswer (p : HostCall → Bool) (log : List (HostCall × HostAnswer)) : Option HostAnswer :=
  (log.find? fun e => p e.1).map (·.2)

/-- An attempt at the pipe, from the answer of its `CreateFileW` and the calls behind it. -/
def attemptIn (file : HostAnswer) (behind : List (HostCall × HostAnswer)) : PipeAttempt where
  createFile :=
    if file.handle ≠ invalidHandle then .ok file.handle
    else .error ((firstAnswer HostCall.asksError behind).elim 0 (·.error))
  server := (firstAnswer HostCall.asksServer behind).bind fun a =>
    if a.ok then some a.value else none
  lastOsError := (firstAnswer HostCall.asksError behind).elim "" (·.text)
  now := (firstAnswer HostCall.asksTime behind).elim 0 (·.number)

def attemptsIn : List (HostCall × HostAnswer) → List PipeAttempt
  | [] => []
  | (.createFile _, file) :: behind => attemptIn file behind :: attemptsIn behind
  | _ :: behind => attemptsIn behind

/-- The calls of a `connect_pipe`. -/
def pipeCallsIn : List (HostCall × HostAnswer) → PipeCalls
  | (.now, started) :: behind => ⟨started.number, attemptsIn behind⟩
  | _ => ⟨0, []⟩

/-- A snapshot of the target's modules, from its answer and the calls behind it. -/
def snapshotIn (snapshot : HostAnswer) (behind : List (HostCall × HostAnswer)) : Snapshot :=
  if snapshot.handle = invalidHandle then
    .invalid ((firstAnswer HostCall.asksError behind).elim 0 (·.error))
  else .taken snapshot.modules snapshot.modules.length

def snapshotsIn : List (HostCall × HostAnswer) → List Snapshot
  | [] => []
  | (.snapshotModules _, snapshot) :: behind => snapshotIn snapshot behind :: snapshotsIn behind
  | _ :: behind => snapshotsIn behind

/-- The target that the log of a `connect` tells of, with `mapped` where the payload is injected:
    a probe, if injection is allowed; the snapshots and the file behind it; what `inject_payload`
    makes of its answers; and the attempts at the pipe behind all that. -/
def targetIn (options : ClientOptions) (processId : UInt32) (mapped : List ModuleEntry)
    (log : List (HostCall × HostAnswer)) : Target :=
  let behind := log.dropWhile (·.1.reachesPipe)
  { probe := pipeCallsIn (log.takeWhile (·.1.reachesPipe))
    wait := pipeCallsIn (if options.allowInjection then behind.dropWhile (!·.1.asksTime) else log)
    snapshots := fun i => ((snapshotsIn behind)[i]?).getD (.invalid 0)
    isFile := (firstAnswer HostCall.asksFile behind).any (·.ok)
    mapped := mapped
    injectPayload := ((injectPayload processId options.payloadPath).replay
      (behind.dropWhile (!·.1.opensProcess))).elim (.ok ()) (·.1) }

end Host
end SteamInputLease
