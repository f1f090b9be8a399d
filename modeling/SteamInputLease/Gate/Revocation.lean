import SteamInputLease.Gate.Kernel
import SteamInputLease.Gate.SectionAudit
import SteamInputLease.Gate.Sweep

/-!
# Detoured opens and the revocation sweep

The payload beside the handles of the process it runs in. A detoured open on a HID path asks
`blocking()` first and opens later; `discover_and_revoke_hid_handles` takes one snapshot of the
process's handles and goes through it, and its worker goes on when every entry was handled.
-/

namespace SteamInputLease
namespace Gate

open Lib

structure SteamState where
  gate : State
  kernel : Kernel
  table : HandleTable
  /-- The detoured opens that found `blocking()` off and have not opened yet. -/
  openings : Nat
  /-- The sweep under way: whose worker runs it, and the entries left. -/
  sweep : Option (Nat × List UInt64)

def SteamState.initial : SteamState :=
  { gate := .initial, kernel := .initial, table := .initial, openings := 0, sweep := none }

inductive SteamLabel
  | gate (e : Label)
  /-- A detoured open on a HID path asks `blocking()`. -/
  | openCheck
  /-- The original open gives `h`, and `remember_handle`. -/
  | openDone (h : UInt64)
  | openFails
  /-- Any other open, and the handles of before the hooks. -/
  | openOther (h : UInt64) (kind : ObjectKind)
  /-- `nt_close_detour`. -/
  | close (h : UInt64)
  /-- The worker of connection `i` enumerates the process's handles. -/
  | snapshot (i : Nat)
  /-- The sweep handles its next entry. -/
  | sweepEntry
  deriving DecidableEq, Repr

/-- The worker step with which `discover_and_revoke_hid_handles` returns. -/
def endsSweep (g : State) : Label → Bool
  | .worker i _ => (g.pc i).sweeping
  | _ => false

/-- The sweep at the entry `h`: an entry that is not open any more or names no file is skipped. -/
def SteamState.revoke (s : SteamState) (h : UInt64) : SteamState :=
  if s.kernel.isFileObject h then
    let (k, t) := s.kernel.settle s.table h (s.kernel.probeFileHandle h)
    { s with kernel := k, table := t }
  else s

def steamStep (s : SteamState) : SteamLabel → Option SteamState
  | .gate e =>
    if endsSweep s.gate e then
      match s.sweep with
      | some (_, []) => (gate.step s.gate e).map fun g => { s with gate := g, sweep := none }
      | _ => none
    else (gate.step s.gate e).map fun g => { s with gate := g }
  | .openCheck =>
    if s.gate.payload.hooks ≠ some true then none
    else if s.gate.blocking then some s
    else some { s with openings := s.openings + 1 }
  | .openDone h =>
    if s.openings = 0 then none
    else (s.kernel.create h .hid true).map fun k =>
      { s with kernel := k, table := s.table.rememberHandle h .hid, openings := s.openings - 1 }
  | .openFails => if s.openings = 0 then none else some { s with openings := s.openings - 1 }
  | .openOther h kind =>
    (s.kernel.create h kind false).map fun k => { s with kernel := k }
  | .close h =>
    some { s with kernel := s.kernel.close h, table := s.table.forgetHandle h }
  | .snapshot i =>
    if (s.gate.pc i).sweeping && s.sweep.isNone then
      some { s with sweep := some (i, s.kernel.handles.map (·.value)) }
    else none
  | .sweepEntry =>
    match s.sweep with
    | some (i, h :: rest) => some { s.revoke h with sweep := some (i, rest) }
    | _ => none

def steam : System SteamState SteamLabel where
  init s := s = .initial
  step := steamStep

/-- Whether the sweep of the worker that turned blocking on has ended, as long as it stays on. -/
def sweptObserve (swept : Bool) (s : SteamState) (e : SteamLabel) (s' : SteamState) : Bool :=
  match e with
  | .gate e => (swept || endsSweep s.gate e) && s'.gate.blocking
  | _ => swept

/-- A sweep takes its snapshot while no detoured open is between its check and its open. -/
def sweepUndisturbed (s : SteamState) : SteamLabel → Bool
  | .snapshot _ => s.openings == 0
  | _ => true

/-! ## The entries one after another -/

/-- Windows answers about an entry what the kernel knows: a handle that is open can be duplicated
    and closed, names its object both times, and is what it is; one that is closed cannot be
    duplicated. -/
structure SweepAttempt.Mirrors (fileIndex : UInt32) (k : Kernel) (a : SweepAttempt) : Prop where
  closed : k.find a.handle = none → a.duplicate = none
  opened : ∀ o, k.find a.handle = some o → a.object = o.kind ∧ a.duplicate.isSome = true ∧
    a.sameFirst = true ∧ a.sameSecond = true ∧ 0 ≤ a.closeStatus
  answered : a.pinned = true → a.Answered
  index : a.pinned = true → (a.objectTypeIndex = fileIndex ↔ a.object ≠ .notFile)

/-- The original that an entry of the log has closed. -/
def SweepEvent.closes : SweepEvent → Option UInt64
  | .closedOriginal handle status => if 0 ≤ status then some handle else none
  | _ => none

/-- The handles that the sweep has closed. -/
def Sweep.closes (s : Sweep) : List UInt64 := s.log.filterMap SweepEvent.closes

/-- Each entry is answered by the kernel that the entries before it left. -/
def EntriesMirror (fileIndex : UInt32) : SteamState → List SweepAttempt → Prop
  | _, [] => True
  | s, a :: rest => a.Mirrors fileIndex s.kernel ∧ EntriesMirror fileIndex (s.revoke a.handle) rest

end Gate
end SteamInputLease
