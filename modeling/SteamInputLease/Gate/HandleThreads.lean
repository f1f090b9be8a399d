import SteamInputLease.Gate.Kernel

/-!
# Detours and sweep on one handle table

The threads that classify, close and revoke handles, interleaved in any order: `classify_handle`
in an I/O detour is a lookup, a probe and a remember; `nt_close_detour` forgets and then closes
under the shared `HANDLE_CLOSE_BARRIER`; the sweep duplicates a handle, classifies the duplicate,
verifies and closes under the exclusive barrier, and closes the duplicate.
-/

namespace SteamInputLease
namespace Gate

open Lib

inductive HandlePc
  /-- `classify_handle` of `h`, after a lookup that found nothing. -/
  | probing (h : UInt64)
  | remembering (h : UInt64) (c : HandleClass)
  /-- `nt_close_detour` of `h`, after `forget_handle`; the barrier is held shared. -/
  | closing (h : UInt64)
  /-- The sweep at the entry `h`, pinned by the duplicate `d`. -/
  | pinned (h d : UInt64)
  | verifying (h d : UInt64) (c : HandleClass)
  /-- … before its `close(duplicate)`. -/
  | unpinning (d : UInt64)
  | finished
  deriving DecidableEq, Repr

structure HandleState where
  kernel : Kernel
  table : HandleTable
  blocking : Bool
  threads : List HandlePc

def HandleState.initial : HandleState :=
  { kernel := .initial, table := .initial, blocking := false, threads := [] }

inductive HandleLabel
  /-- The counters change. -/
  | setBlocking (b : Bool)
  /-- An open on a HID path, which gives a HID device, through a detour. -/
  | openHid (h : UInt64)
  /-- Any other open, and the handles of before the hooks. -/
  | openOther (h : UInt64) (kind : ObjectKind)
  /-- An I/O call on `h` asks `should_deny`. -/
  | io (h : UInt64)
  | ntClose (h : UInt64)
  /-- The sweep duplicates `h` as `d`. -/
  | pin (h d : UInt64)
  | thread (i : Nat)
  deriving DecidableEq, Repr

/-- No `nt_close_detour` holds `HANDLE_CLOSE_BARRIER`. -/
def HandleState.barrierFree (s : HandleState) : Bool :=
  s.threads.all fun
    | .closing _ => false
    | _ => true

/-- The exclusive section of the sweep at `h`. -/
def HandleState.verify (s : HandleState) (h d : UInt64) (c : HandleClass) : HandleState :=
  if s.kernel.sameObject h d then
    let (k, t) := s.kernel.settle s.table h c
    { s with kernel := k, table := t }
  else s

def HandleState.goto (s : HandleState) (i : Nat) (pc : HandlePc) : HandleState :=
  { s with threads := s.threads.set i pc }

/-- One step of thread `i`. -/
def handleThreadStep (s : HandleState) (i : Nat) : HandlePc → Option HandleState
  | .probing h => some (s.goto i (.remembering h (s.kernel.probeHandle h)))
  | .remembering h c => some ({ s with table := s.table.rememberHandle h c }.goto i .finished)
  | .closing h => some ({ s with kernel := s.kernel.close h }.goto i .finished)
  | .pinned h d =>
    if s.kernel.isFileObject d then
      some (s.goto i (.verifying h d (s.kernel.probeFileHandle d)))
    else some (s.goto i (.unpinning d))
  | .verifying h d c =>
    if s.barrierFree then some ((s.verify h d c).goto i (.unpinning d)) else none
  | .unpinning d => some ({ s with kernel := s.kernel.close d }.goto i .finished)
  | .finished => none

def handleStep (s : HandleState) : HandleLabel → Option HandleState
  | .setBlocking b => some { s with blocking := b }
  | .openHid h =>
    if s.blocking then none
    else (s.kernel.create h .hid true).map fun k =>
      { s with kernel := k, table := s.table.rememberHandle h .hid }
  | .openOther h kind =>
    (s.kernel.create h kind false).map fun k => { s with kernel := k }
  | .io h =>
    if s.blocking && s.table.lookupHandle h == .unknown then
      some { s with threads := s.threads ++ [.probing h] }
    else some s
  | .ntClose h =>
    some { s with table := s.table.forgetHandle h, threads := s.threads ++ [.closing h] }
  | .pin h d =>
    if s.barrierFree then
      (s.kernel.duplicate h d).map fun k =>
        { s with kernel := k, threads := s.threads ++ [.pinned h d] }
    else none
  | .thread i => (s.threads[i]?).bind (handleThreadStep s i)

def handleThreads : System HandleState HandleLabel where
  init s := s = .initial
  step := handleStep

/-- The I/O call a step denies: the lookup finds `Hid`, or the probe found it. -/
def denies (s : HandleState) : HandleLabel → Option UInt64
  | .io h => if s.blocking && s.table.lookupHandle h == .hid then some h else none
  | .thread i =>
    match s.threads[i]? with
    | some (.remembering h .hid) => some h
    | _ => none
  | _ => none

/-- A probed handle is remembered as `Hid` while it is open on a HID device, and no handle is
    closed while the table has it as `Hid`. -/
def handleUndisturbed (s : HandleState) : HandleLabel → Bool
  | .thread i =>
    match s.threads[i]? with
    | some (.remembering h .hid) => s.kernel.probeFileHandle h == .hid
    | some (.closing h) | some (.unpinning h) => s.table.lookupHandle h != .hid
    | _ => true
  | _ => true

end Gate
end SteamInputLease
