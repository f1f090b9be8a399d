import SteamInputLease.Lib.System
import SteamInputLease.Recovery.Election
import SteamInputLease.Recovery.Scan

/-!
# Requesting a discovery

The payload's `request_internal_discovery` and the host's `rescan_steam_controllers`, each from
the resolved layout to the write of `-1.0`. Everything that may change between two steps of a
thread (Steam's memory, the caches that other threads write, the clock) answers by the instant at
which it is asked, so nothing relates two of its answers.
-/

namespace SteamInputLease
namespace Recovery

open Lib

/-- What a thread finds around it, instant by instant. -/
structure Surroundings where
  query : Nat → Nat → Option MemoryRegion
  read : Nat → Nat → List UInt8 → Nat × List UInt8
  /-- `runtime_recovery_layout`. -/
  runtimeLayout : Nat → Option RuntimeRecoveryLayout
  /-- `HID_THREAD_ADDRESS`. -/
  hidThreadAddress : Nat → Nat
  /-- `HID_THREAD_ATTEMPTS`. -/
  hidThreadAttempts : Nat → UInt32
  /-- The rounds that an election has. -/
  electionRounds : Nat → Nat
  /-- The module of Steam that the host opened, and the layout it resolved of its image. -/
  remoteLayout : Nat → Option RuntimeRecoveryLayout
  /-- `WriteProcessMemory` wrote the eight bytes. -/
  written : Nat → Bool

/-- The instant, and what an observer of the thread was told. -/
structure Trail where
  instant : Nat
  log : List Note
  deriving DecidableEq, Repr

def Trail.start : Trail := ⟨0, []⟩

/-- What is there now; the next question comes an instant later. -/
def ask {α : Type} (answer : Nat → α) : StateM Trail α := fun t =>
  (answer t.instant, { t with instant := t.instant + 1 })

def tell (n : Note) : StateM Trail Unit := fun t => ((), { t with log := t.log ++ [n] })

section

variable (w : Surroundings)

/-- `CurrentProcess` and `RemoteMemory`. -/
def Surroundings.memory : ProcessMemory (StateM Trail) where
  query address := ask (w.query · address)
  read address buffer := ask (w.read · address buffer)
  note := tell

/-! ## The payload -/

/-- `validate_hid_thread`. -/
def validateHidThread (rt : RuntimeRecoveryLayout) (address : Nat) : StateM Trail Bool :=
  if address ≠ 0 then hidThreadIsLive w.memory rt address else pure false

/-- The candidates, unless the attempts are spent. -/
def hidThreadCandidates (rt : RuntimeRecoveryLayout) (ignoreBudget : Bool) :
    StateM Trail (List Nat) := do
  if ignoreBudget then findLiveHidThreads w.memory rt
  else do
    let attempts ← ask w.hidThreadAttempts
    if hidThreadMaxAttempts ≤ attempts then pure [] else findLiveHidThreads w.memory rt

/-- The election among several candidates. -/
def electHidThread (rt : RuntimeRecoveryLayout) (several : List Nat) :
    StateM Trail (Option Nat) := do
  let rounds ← ask w.electionRounds
  match ← electRunningHidThread w.memory rt.layout several (pure ()) rounds with
  | .elected index => pure several[index]?
  | _ => pure none

/-- `elected`. -/
def chooseHidThread (rt : RuntimeRecoveryLayout) : List Nat → StateM Trail (Option Nat)
  | [] => pure none
  | [address] => pure (some address)
  | several => electHidThread w rt several

/-- `find_hid_thread`. What it stores in the caches is left to `Surroundings`: whatever is loaded
    from them later may be another thread's. -/
def findHidThread (rt : RuntimeRecoveryLayout) (ignoreBudget : Bool) :
    StateM Trail (Option Nat) := do
  let cached ← ask w.hidThreadAddress
  let valid ← validateHidThread w rt cached
  if valid then pure (some cached)
  else do
    let candidates ← hidThreadCandidates w rt ignoreBudget
    chooseHidThread w rt candidates

/-- `resolve_discovery_deadline`, and the layout it resolved the deadline by. -/
def resolveDiscoveryDeadline (ignoreBudget : Bool) :
    StateM Trail (Option (RuntimeRecoveryLayout × Nat)) := do
  match ← ask w.runtimeLayout with
  | none => pure none
  | some rt =>
    let hidThread ← findHidThread w rt ignoreBudget
    pure (hidThread.map fun address => (rt, address + rt.layout.discoveryDeadlineOffset))

/-- `request_internal_discovery`. -/
def requestInternalDiscovery (ignoreBudget : Bool) : StateM Trail Bool := do
  match ← resolveDiscoveryDeadline w ignoreBudget with
  | none => pure false
  | some (rt, deadline) =>
    -- `is_multiple_of(align_of::<AtomicU64>())`
    if deadline % 8 ≠ 0 then pure false
    else do
      tell (.stored rt deadline)
      pure true

/-! ## The host -/

/-- Why the host gives up. -/
inductive RescanError
  /-- Steam or the module is not there, or its image has no layout. -/
  | unresolved
  | objectNotFound
  | ambiguousCandidates (candidates : List Nat) (before after : List SchedulerSample)
  | unreadableCandidates (candidates : List Nat)
  /-- `candidates[index]` out of range, which no election leads to. -/
  | indexPanic
  | noLongerValid
  | unreadable
  | notRequested
  deriving DecidableEq, Repr

/-- `RescanResult`. -/
structure RescanResult where
  previousDeadline : Nat
  scanCountBefore : Nat
  scanCountAfter : Nat
  deriving DecidableEq, Repr

/-- The election of `find_remote_hid_thread`. -/
def electRemoteHidThread (rt : RuntimeRecoveryLayout) (candidates : List Nat) :
    StateM Trail (Except RescanError Nat) := do
  let rounds ← ask w.electionRounds
  match ← electRunningHidThread w.memory rt.layout candidates (pure ()) rounds with
  | .elected index =>
    match candidates[index]? with
    | some candidate => pure (.ok candidate)
    | none => pure (.error .indexPanic)
  | .unreadable => pure (.error (.unreadableCandidates candidates))
  | .ambiguous before last =>
    pure (.error (.ambiguousCandidates candidates before (last.getD before)))

/-- `find_remote_hid_thread`. -/
def findRemoteHidThread (rt : RuntimeRecoveryLayout) :
    StateM Trail (Except RescanError Nat) := do
  match ← findLiveHidThreads w.memory rt with
  | [candidate] => pure (.ok candidate)
  | [] => pure (.error .objectNotFound)
  | candidates => electRemoteHidThread w rt candidates

/-- `resolve_remote_recovery`. -/
def resolveRemoteRecovery : StateM Trail (Except RescanError (RuntimeRecoveryLayout × Nat)) := do
  match ← ask w.remoteLayout with
  | none => pure (.error .unresolved)
  | some rt =>
    let hidThread ← findRemoteHidThread w rt
    pure (hidThread.map fun address => (rt, address))

/-- `read_remote` of `width` bytes. -/
def readRemote (address width : Nat) : StateM Trail (Except RescanError Nat) := do
  match ← readExact w.memory address width with
  | some bytes => pure (.ok (leNat bytes))
  | none => pure (.error .unreadable)

/-- The write of `request_internal_scan`, and the counter after the delay. -/
def writeDeadline (rt : RuntimeRecoveryLayout) (hidThread previousDeadline scanCountBefore : Nat) :
    StateM Trail (Except RescanError RescanResult) := do
  tell (.stored rt (hidThread + rt.layout.discoveryDeadlineOffset))
  let written ← ask w.written
  if written then do
    let after ← readRemote w (hidThread + rt.layout.discoveryCounterOffset) 4
    pure (.ok ⟨previousDeadline, scanCountBefore, after.toOption.getD scanCountBefore⟩)
  else pure (.error .notRequested)

/-- `request_internal_scan`. -/
def requestInternalScan (rt : RuntimeRecoveryLayout) (hidThread : Nat) :
    StateM Trail (Except RescanError RescanResult) := do
  -- `validate_remote_hid_thread`
  let live ← hidThreadIsLive w.memory rt hidThread
  if live then do
    match ← readRemote w (hidThread + rt.layout.discoveryDeadlineOffset) 8 with
    | .error e => pure (.error e)
    | .ok previousDeadline =>
      match ← readRemote w (hidThread + rt.layout.discoveryCounterOffset) 4 with
      | .error e => pure (.error e)
      | .ok scanCountBefore => writeDeadline w rt hidThread previousDeadline scanCountBefore
  else pure (.error .noLongerValid)

/-- `rescan_steam_controllers`. -/
def rescanSteamControllers : StateM Trail (Except RescanError RescanResult) := do
  match ← resolveRemoteRecovery w with
  | .error e => pure (.error e)
  | .ok (rt, hidThread) =>
    match ← requestInternalScan w rt hidThread with
    | .error e => pure (.error e)
    | .ok first =>
      match ← requestInternalScan w rt hidThread with
      | .error e => pure (.error e)
      | .ok second => pure (.ok { first with scanCountAfter := second.scanCountAfter })

/-! ## Threads -/

/-- What a thread calls. -/
inductive Call
  | requestInternalDiscovery (ignoreBudget : Bool)
  | resolveDiscoveryDeadline (ignoreBudget : Bool)
  | rescanSteamControllers
  deriving DecidableEq, Repr

/-- A thread that makes one call after another. -/
def discovery : System Trail Call where
  init t := t = .start
  step t
    | .requestInternalDiscovery ignoreBudget =>
      some ((requestInternalDiscovery w ignoreBudget).run t).2
    | .resolveDiscoveryDeadline ignoreBudget =>
      some ((resolveDiscoveryDeadline w ignoreBudget).run t).2
    | .rescanSteamControllers => some ((rescanSteamControllers w).run t).2

end

/-! ## Guarded writes -/

/-- `hid_thread_is_live` has answered yes for the object since it was last scanned or sampled
    for. -/
def Fresh (log : List Note) (rt : RuntimeRecoveryLayout) (object : Nat) : Prop :=
  ∃ before after, log = before ++ .verdict rt object true :: after ∧
    ∀ n ∈ after, n ≠ .scanned ∧ n ≠ .sampled

/-- Every write goes to the deadline of an object that was validated after the last read that
    chose it. -/
def Guarded (log : List Note) : Prop :=
  ∀ before rt deadline after, log = before ++ .stored rt deadline :: after →
    ∃ object, deadline = object + rt.layout.discoveryDeadlineOffset ∧ Fresh before rt object

section

variable (w : Surroundings)

/-- The candidates the payload would have to choose from: none when the cached object is live. -/
def payloadCandidates (ignoreBudget : Bool) :
    StateM Trail (Option (RuntimeRecoveryLayout × List Nat)) := do
  match ← ask w.runtimeLayout with
  | none => pure none
  | some rt =>
    let cached ← ask w.hidThreadAddress
    let valid ← validateHidThread w rt cached
    if valid then pure none
    else do
      let candidates ← hidThreadCandidates w rt ignoreBudget
      pure (some (rt, candidates))

/-- A call of the payload from here comes to an election among several candidates, and one with
    an aligned deadline is elected. -/
def electsObject (t : Trail) (ignoreBudget : Bool) : Bool :=
  match (payloadCandidates w ignoreBudget).run t with
  | (some (rt, first :: second :: rest), t') =>
    ((electHidThread w rt (first :: second :: rest)).run t').1.any fun object =>
      (object + rt.layout.discoveryDeadlineOffset) % 8 == 0
  | _ => false

/-- The call is not a request that elects its object. -/
def chosenWithoutElection (t : Trail) : Call → Bool
  | .requestInternalDiscovery ignoreBudget => !electsObject w t ignoreBudget
  | _ => true

end

end Recovery
end SteamInputLease
