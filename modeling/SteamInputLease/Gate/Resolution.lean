import SteamInputLease.Gate.System

/-!
# Who resolves the HID thread, and with which layout

`resolve_discovery_deadline` runs on pipe workers, on the timer thread and on resolver threads, in
any number at once. These are the parts of a state that say who is in it: the layout a thread has
in hand, the request it is in, and the sweeps that `CAPABILITY_RESOLUTION_RUNNING` stands for.
-/

namespace SteamInputLease
namespace Gate

open Lib Recovery

/-! ## Who runs a resolution for `payload_capabilities` -/

/-- Between the claim of `CAPABILITY_RESOLUTION_RUNNING` and the spawn. -/
def WorkerPc.spawning : WorkerPc → Bool
  | .spawnResolver _ => true
  | _ => false

/-- A thread of `schedule_capability_resolution` that has not cleared the flag. -/
def Resolver.sweeping (r : Resolver) : Bool := r.capability && !r.ended

/-- The capability resolutions there are, a spawn in flight included. -/
def State.resolutions (s : State) : Nat :=
  s.conns.countP (·.pc.spawning) + s.payload.resolvers.countP (·.sweeping)

/-! ## The layout a thread has in hand -/

def ResolvePc.layoutInHand : ResolvePc → Option RuntimeRecoveryLayout
  | .cached rt | .scan rt => some rt
  | _ => none

def RequestPc.layoutInHand : RequestPc → Option RuntimeRecoveryLayout
  | .resolve r => r.layoutInHand
  | .store _ => none

/-- Where the next step stores `-1.0`. -/
def RequestPc.target : RequestPc → Option Nat
  | .store deadline => some deadline
  | .resolve _ => none

def NotifyPc.inRequest : NotifyPc → Option RequestPc
  | .first r | .second r => some r
  | _ => none

def WorkerPc.inRequest : WorkerPc → Option RequestPc
  | .notify n _ => n.inRequest
  | _ => none

def TimerPc.inRequest : TimerPc → Option RequestPc
  | .request r => some r
  | _ => none

/-- Some thread is at `r` of a `request_internal_discovery`. -/
inductive State.Requests (s : State) (r : RequestPc) : Prop
  | worker {i : Nat} {c : Connection} (hc : s.conns[i]? = some c) (hr : c.pc.inRequest = some r)
  | timer (hr : s.payload.timer.thread.inRequest = some r)

/-- Some thread has `rt` in hand. -/
inductive State.UsesLayout (s : State) (rt : RuntimeRecoveryLayout) : Prop
  | request {r : RequestPc} (h : s.Requests r) (hr : r.layoutInHand = some rt)
  | resolver {j : Nat} {x : Resolver} {pc : ResolvePc} (hx : s.payload.resolvers[j]? = some x)
      (hpc : x.pc = some pc) (hr : pc.layoutInHand = some rt)

/-! ## The elections of a run -/

def Choice.electedAddress : Choice → List Nat
  | .elected (some a) => [a]
  | _ => []

/-- The address an election of this step ended with. -/
def Label.electedAddress : Label → List Nat
  | .worker _ ch | .timer ch | .resolver _ ch => ch.electedAddress
  | _ => []

/-- The addresses elected so far, the last first. -/
def observeElections (found : List Nat) (_ : State) (e : Label) (_ : State) : List Nat :=
  e.electedAddress ++ found

end Gate
end SteamInputLease
