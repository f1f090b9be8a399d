import SteamInputLease.Lib.System
import SteamInputLease.Gate.ClientThread

/-!
# The payload as a system of threads

Pipe connections that come and go, their workers, the rescan timer thread and the resolver
threads, interleaved in any order. A step is labelled with the party that moves and what the
environment answers it.

A connection holds a pipe handle and a thread of Steam's process while it lives, so fewer than
2^31 of them are ever open at once; `accept` asks for that and for nothing else. Connections that
ended stay in the list, so an index names one connection for the whole run.
-/

namespace SteamInputLease
namespace Gate

open Lib Recovery

structure State where
  payload : Payload
  conns : List Connection
  deriving DecidableEq, Repr

/-- The payload as it is mapped: no lease, no claim, no hook, no thread but the server. -/
def Payload.initial : Payload where
  counters := { leaseCount := 0, passThroughCount := 0 }
  ownershipTransition := none
  hooks := none
  caches :=
    { recoveryLayout := none, recoveryLayoutAttempts := 0, hidThreadAddress := 0
      hidThreadAttempts := 0 }
  capabilityResolutionRunning := false
  resolvers := []
  timer := { started := false, armed := none, notified := false, thread := .absent }
  clock := 0

def State.initial : State := { payload := .initial, conns := [] }

/-- Where the worker of connection `i` is; before there is one, at its start. -/
def State.pc (s : State) (i : Nat) : WorkerPc := (s.conns[i]?).elim .readRequest (·.pc)

def State.blocking (s : State) : Bool := s.payload.counters.blocking

inductive Label
  /-- `server_thread` accepts a connection and starts its worker. -/
  | accept (h : HostEnd)
  | client (i : Nat) (a : ClientAct)
  | worker (i : Nat) (ch : Choice)
  | timer (ch : Choice)
  | resolver (j : Nat) (ch : Choice)
  /-- Time passes. -/
  | tick (ms : Nat)
  deriving DecidableEq, Repr

/-- A connection that has not ended. -/
def Connection.live (c : Connection) : Bool := c.pc != .closed

/-- A client end as it connects: some program, or the library before its first message. -/
def HostEnd.fresh : HostEnd → Bool
  | .raw | .idle _ _ => true
  | _ => false

/-- One step of a resolver thread; `none` in `pc` is the store that clears the running flag. -/
def resolverStep (p : Payload) (r : Resolver) (ch : Choice) : Option (Payload × Resolver) :=
  if r.ended then none
  else match r.pc, ch with
  | some pc, ch =>
    match resolveStep false p.caches pc ch with
    | some (k, .inl pc') => some ({ p with caches := k }, { r with pc := some pc' })
    | some (k, .inr _) => some ({ p with caches := k }, { r with pc := none })
    | none => none
  | none, .go =>
    some (if r.capability then { p with capabilityResolutionRunning := false } else p,
      { r with ended := true })
  | none, _ => none

def step (s : State) : Label → Option State
  | .accept h =>
    if h.fresh && decide (s.conns.countP (·.live) + 1 < 2 ^ 31) then
      some { s with conns := s.conns ++ [.accepted h] }
    else none
  | .client i a =>
    (s.conns[i]?).bind fun c => (clientStep c a).map fun c' => { s with conns := s.conns.set i c' }
  | .worker i ch =>
    (s.conns[i]?).bind fun c => (workerStep s.payload i c ch).map fun (p, c') =>
      { payload := p, conns := s.conns.set i c' }
  | .timer ch =>
    (timerStep s.payload.counters s.payload.clock s.payload.caches s.payload.timer ch).map
      fun (k, t) => { s with payload := { s.payload with caches := k, timer := t } }
  | .resolver j ch =>
    (s.payload.resolvers[j]?).bind fun r => (resolverStep s.payload r ch).map fun (p, r') =>
      { s with payload := { p with resolvers := p.resolvers.set j r' } }
  | .tick ms =>
    some { s with payload := { s.payload with clock := s.payload.clock + ms } }

/-- The payload's system. -/
def gate : System State Label where
  init s := s = .initial
  step := step

end Gate
end SteamInputLease
