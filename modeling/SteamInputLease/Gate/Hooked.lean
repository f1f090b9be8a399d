import SteamInputLease.Gate.Hooks
import SteamInputLease.Gate.Ledger

/-!
# The payload while it installs its hooks

`ensure_hooks_installed` call by call. The worker that finds no verdict holds the mutex `STATE`
and runs `install_hooks`; meanwhile the payload goes on, other workers wait for the verdict, and
Steam enters whatever is hooked.
-/

namespace SteamInputLease
namespace Gate

open Lib Protocol

structure HookedState where
  gate : State
  hooking : Hooking
  /-- The worker inside `install_hooks`, and what is left of it. -/
  installer : Option (Nat × Installing Bool)
  /-- The runs of `install_hooks`. -/
  installs : Nat
  /-- The detours Steam has entered. -/
  entered : List Detour

def HookedState.initial : HookedState :=
  { gate := .initial, hooking := .initial, installer := none, installs := 0, entered := [] }

inductive HookedLabel
  /-- A step of the payload outside `install_hooks`. -/
  | gate (l : Label)
  /-- Worker `i` finds no verdict. -/
  | start (i : Nat)
  /-- The next call of `install_hooks` is answered. -/
  | call (a : HookAnswer)
  /-- The verdict is stored, and the warm-up thread spawned or not. -/
  | finish (spawned : Bool)
  /-- Steam calls a function that is hooked. -/
  | enter (detour : Detour)
  deriving DecidableEq, Repr

/-- The step of the payload that a step is. -/
def HookedState.gateLabel (s : HookedState) : HookedLabel → Option Label
  | .gate (.worker _ (.install _ _)) => none
  | .gate l => some l
  | .finish spawned =>
    match s.installer with
    | some (i, .ret installed) => some (.worker i (.install installed spawned))
    | _ => none
  | _ => none

def hookedStep (s : HookedState) : HookedLabel → Option HookedState
  | .gate l =>
    match s.gateLabel (.gate l) with
    | none => none
    | some l => (gate.step s.gate l).map fun g => { s with gate := g }
  | .start i =>
    if s.gate.pc i = .ensureHooks ∧ s.gate.payload.hooks = none ∧ s.installer.isNone then
      some { s with installer := some (i, installHooks), installs := s.installs + 1 }
    else none
  | .call a =>
    match s.installer with
    | some (i, .call c next) =>
      (s.hooking.act c a).map fun k => { s with hooking := k, installer := some (i, next a) }
    | _ => none
  | .finish spawned =>
    match s.gateLabel (.finish spawned) with
    | none => none
    | some l => (gate.step s.gate l).map fun g => { s with gate := g, installer := none }
  | .enter detour =>
    if ∃ h ∈ s.hooking.hooks, h.detour = detour ∧ h.enabled = true then
      some { s with entered := detour :: s.entered }
    else none

/-- The payload's system with `install_hooks` in it. -/
def hooked : System HookedState HookedLabel where
  init s := s = .initial
  step := hookedStep

/-- The observer of the payload, on the steps that are steps of the payload. -/
def hookedObserve (l : Ledger) (s : HookedState) (e : HookedLabel) (s' : HookedState) : Ledger :=
  match s.gateLabel e with
  | none => l
  | some label => l.observe s.gate label s'.gate

/-- What `install_hooks` returned. -/
def HookedState.verdict (s : HookedState) : Option Bool := s.gate.payload.hooks

/-- A hook that was created, queued and applied. -/
def Hooking.Applied (s : Hooking) (detour : Detour) : Prop :=
  ∃ h ∈ s.hooks, h.detour = detour ∧ h.queued = true ∧ h.enabled = true

/-- Installation is all or nothing, and its verdict is final. -/
structure AllOrNothing (s : HookedState) (l : Ledger) : Prop where
  once : s.installs ≤ 1
  /-- Nothing takes a verdict back. -/
  final : ∀ b, s.verdict = some b → ∀ es s', hooked.exec s es = some s' → s'.verdict = some b
  complete : s.verdict = some true →
    ∀ hook ∈ requiredHooks, s.hooking.Applied hook.2.2
  undone : s.verdict = some false → s.hooking.initialized = true → s.hooking.uninitialized = 1
  uncounted : s.verdict = some false →
    s.gate.payload.counters.leaseCount = 0 ∧ s.gate.blocking = false
  /-- An acquire request that is answered is answered by the failure. -/
  refused : s.verdict = some false → ∀ i c r response, s.gate.conns[i]? = some c →
    c.pc = .write r response → l.requested i .acquireLease →
    response.result = ResultCode.hookInstallFailed.code
  published : ∀ h ∈ s.hooking.hooks, h.enabled = true → s.hooking.slots h.detour ≠ 0
  /-- A detour that was entered still finds its original. -/
  entered : ∀ detour ∈ s.entered, s.hooking.slots detour ≠ 0

end Gate
end SteamInputLease
