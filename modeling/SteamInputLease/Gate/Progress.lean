import SteamInputLease.Lib.Progress
import SteamInputLease.Gate.System

/-!
# How far a worker is from its end

`client_thread` has no loop: two reads, two sections, two responses. `WorkerPc.rank` counts the
steps that are left on the longest way, and every worker step lowers it, whatever the
environment answers. A worker that has not ended and cannot step waits for one of three things.
-/

namespace SteamInputLease
namespace Gate

open Lib Protocol Recovery

/-! ## Ranks -/

def ResolvePc.rank : ResolvePc → Nat
  | .layout => 4
  | .resolving => 3
  | .cached _ => 2
  | .scan _ => 1

def RequestPc.rank : RequestPc → Nat
  | .resolve r => r.rank + 1
  | .store _ => 1

def NotifyPc.rank : NotifyPc → Nat
  | .guard => 16
  | .refreshSdl => 15
  | .first r => r.rank + 9
  | .schedule => 9
  | .spawn => 8
  | .sleep _ => 7
  | .guardAgain => 6
  | .second r => r.rank
  | .arm => 1
  | .enumWindows => 1

/-- What is left after a section. -/
def Section.rank : Section → Nat
  | .granted _ => 34
  | .gaveBack _ => 7

/-- What is left after a response. -/
def Reply.rank : Reply → Nat
  | .initial _ _ => 29
  | .released => 2

def WorkerPc.rank : WorkerPc → Nat
  | .readRequest => 56
  | .ensureHooks => 55
  | .lockAcquire _ => 54
  | .acquire _ => 53
  | .passThroughRead _ => 52
  | .leaseAdded _ | .passThroughAdded _ => 51
  | .notify n sec => sec.rank + n.rank
  | .discover sec => sec.rank + 1
  | .unlock sec => sec.rank
  | .capabilities r => r.rank + 4
  | .spawnResolver r => r.rank + 3
  | .passState r _ => r.rank + 2
  | .counts r _ => r.rank + 1
  | .write r _ => r.rank
  | .readRelease _ => 28
  | .lockRelease _ _ => 27
  | .release _ _ => 26
  | .releaseRead _ _ _ => 25
  | .released _ _ _ => 24
  | .disconnect => 1
  | .closed => 0

/-- The worker steps that are left in a payload that accepts nobody else. -/
def State.rank (s : State) : Nat := (s.conns.map (·.pc.rank)).sum

/-! ## What a worker can wait for -/

/-- In a `ReadFile` of a pipe that is open and empty. -/
def Connection.awaitsClient (c : Connection) : Bool :=
  match c.pc with
  | .readRequest | .readRelease _ => c.nextRead.isNone
  | _ => false

/-- About to take `OWNERSHIP_TRANSITION`. -/
def WorkerPc.awaitsLock : WorkerPc → Bool
  | .lockAcquire _ | .lockRelease _ _ => true
  | _ => false

/-- How long a worker sleeps: `schedule_second_discovery` returned `false`. -/
def WorkerPc.sleepsUntil : WorkerPc → Option Nat
  | .notify (.sleep until_) _ => some until_
  | _ => none

/-- Every worker has ended or waits for its own client. -/
def State.settled (s : State) : Prop :=
  ∀ c ∈ s.conns, c.pc = .closed ∨ c.awaitsClient = true

/-- A step of the payload's own threads, or of the clock. -/
def Label.internal : Label → Bool
  | .accept _ | .client _ _ => false
  | _ => true

def Label.ofWorker : Label → Bool
  | .worker _ _ => true
  | _ => false

end Gate
end SteamInputLease
