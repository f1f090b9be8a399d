import SteamInputLease.Gate.System

/-!
# A detour that asks `blocking()`

A detour or a proxy forwarder beside the payload's threads. Its `blocking()` is two loads and
takes no lock, so whatever the others do may come between them. The observer notes whether Steam
was blocked at any instant of the call.
-/

namespace SteamInputLease
namespace Gate

open Lib

/-- Where the detour is in `blocking()`. -/
inductive BlockingPc
  | idle
  /-- About to load `LEASE_COUNT`. -/
  | entered
  /-- `LEASE_COUNT` was above zero; about to load `PASS_THROUGH_COUNT`. -/
  | loaded
  | returned (result : Bool)
  deriving DecidableEq, Repr

structure DetourState where
  gate : State
  pc : BlockingPc
  deriving DecidableEq, Repr

def DetourState.initial : DetourState := { gate := .initial, pc := .idle }

inductive DetourLabel
  | gate (e : Label)
  | call
  | loadLeaseCount
  | loadPassThroughCount
  deriving DecidableEq, Repr

/-- The call has begun and has not returned. -/
def BlockingPc.running : BlockingPc → Bool
  | .entered | .loaded => true
  | _ => false

def detourStep (s : DetourState) : DetourLabel → Option DetourState
  | .gate e => (Gate.gate.step s.gate e).map fun g => { s with gate := g }
  | .call => if s.pc.running then none else some { s with pc := .entered }
  | .loadLeaseCount =>
    if s.pc = .entered then
      some { s with
        pc := if 0 < s.gate.payload.counters.leaseCount then .loaded else .returned false }
    else none
  | .loadPassThroughCount =>
    if s.pc = .loaded then
      some { s with pc := .returned (decide (s.gate.payload.counters.passThroughCount = 0)) }
    else none

/-- The payload with one detour that calls `blocking()` again and again. -/
def detour : System DetourState DetourLabel where
  init s := s = .initial
  step := detourStep

/-- Whether Steam was blocked at an instant of the call, the first and the last included. -/
def blockObserve (seen : Bool) (s : DetourState) (e : DetourLabel) (s' : DetourState) : Bool :=
  match e with
  | .call => s'.gate.blocking
  | _ => if s.pc.running then seen || s'.gate.blocking else seen

/-- Worker `i` is about to give back the only pass-through claim. -/
def State.endsLastClaim (s : State) : Label → Bool
  | .worker i _ =>
    match s.pc i with
    | .releaseRead .passThrough _ _ => s.payload.counters.passThroughCount == 1
    | _ => false
  | _ => false

/-- The step does not end the last claim, with no lease left, between the two loads of a call
    during which Steam has not been blocked. -/
def handoffKept (p : DetourState × Bool) : DetourLabel → Bool
  | .gate e =>
    !(p.1.pc == .loaded && !p.2 && p.1.gate.endsLastClaim e &&
      p.1.gate.payload.counters.leaseCount == 0)
  | _ => true

end Gate
end SteamInputLease
