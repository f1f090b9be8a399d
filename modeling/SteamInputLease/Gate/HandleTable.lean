import Mathlib.Logic.Function.Basic
import SteamInputLease.Gate.Counters
import SteamInputLease.Lib.System

/-!
# The handle table

`HANDLE_TABLE`, an open-addressing table of 4096 slots that the detours search without
allocating, and `HID_HANDLE_COUNT` beside it. Each operation is one or two sections under the
table's lock, and those sections are the steps of `handleTable`: `forget_handle` looks under the
read lock and removes later under the write lock.

A `HANDLE` is a `usize` of an x64 process.
-/

namespace SteamInputLease
namespace Gate

open Lib

inductive HandleClass
  | unknown
  | hid
  | other
  deriving DecidableEq, Repr

structure HandleSlot where
  key : UInt64
  classification : HandleClass
  deriving DecidableEq, Repr

/-- `EMPTY_HANDLE_SLOT`. -/
def emptyHandleSlot : HandleSlot := { key := 0, classification := .unknown }

/-- `HANDLE_TABLE_SIZE`. -/
def handleTableSize : Nat := 4096

/-- `TOMBSTONE`. -/
def tombstone : UInt64 := 1

/-- `HANDLE_PROBE_LIMIT`. -/
def handleProbeLimit : Nat := 16

/-- `INVALID_HANDLE_VALUE`, `-1`. -/
def invalidHandleValue : UInt64 := 0xffffffffffffffff

/-- `handle_hash`. -/
def handleHash (value : UInt64) : Nat :=
  let value := value >>> 2
  let value := value ^^^ (value >>> 17)
  let value := value * 0xed5ad4bb
  let value := value ^^^ (value >>> 11)
  value.toNat % handleTableSize

/-- `(start + offset) % HANDLE_TABLE_SIZE`, with `start` the hash of `key`. -/
def probeIndex (key : UInt64) (offset : Nat) : Nat := (handleHash key + offset) % handleTableSize

structure HandleTable where
  slots : Nat → HandleSlot
  hidHandleCount : Int

/-- The table as it is mapped. -/
def HandleTable.initial : HandleTable :=
  { slots := fun _ => emptyHandleSlot, hidHandleCount := 0 }

/-- The early return of the three operations: `key <= TOMBSTONE` or `INVALID_HANDLE_VALUE`. -/
def notTracked (handle : UInt64) : Bool :=
  decide (handle ≤ tombstone) || handle == invalidHandleValue

/-! ## `lookup_handle` -/

/-- `n` rounds of its loop from `offset`. -/
def lookupLoop (slots : Nat → HandleSlot) (key : UInt64) : Nat → Nat → HandleClass
  | 0, _ => .unknown
  | n + 1, offset =>
    let slot := slots (probeIndex key offset)
    if slot.key = 0 then .unknown
    else if slot.key = key then slot.classification
    else lookupLoop slots key n (offset + 1)

def HandleTable.lookupHandle (t : HandleTable) (handle : UInt64) : HandleClass :=
  if notTracked handle then .other else lookupLoop t.slots handle handleProbeLimit 0

/-! ## `remember_handle` -/

/-- What its loop ends with: the slot of the key, or the slot for an insertion. -/
inductive Remembered
  | present (index : Nat)
  | insertion (index : Option Nat)
  deriving DecidableEq, Repr

/-- `n` rounds of its loop from `offset`, with `insertion` as found so far. -/
def rememberLoop (slots : Nat → HandleSlot) (key : UInt64) : Nat → Nat → Option Nat → Remembered
  | 0, _, insertion => .insertion insertion
  | n + 1, offset, insertion =>
    let index := probeIndex key offset
    let slot := slots index
    if slot.key = key then .present index
    else if slot.key = tombstone ∧ insertion = none then
      rememberLoop slots key n (offset + 1) (some index)
    else if slot.key = 0 then .insertion (some (insertion.getD index))
    else rememberLoop slots key n (offset + 1) insertion

def HandleTable.rememberHandle (t : HandleTable) (handle : UInt64) (classification : HandleClass) :
    HandleTable :=
  if notTracked handle then t
  else match rememberLoop t.slots handle handleProbeLimit 0 none with
    | .present index =>
      let slot := t.slots index
      if slot.classification ≠ classification then
        let removed := if slot.classification = .hid then i32 (t.hidHandleCount - 1)
          else t.hidHandleCount
        let count := if classification = .hid then i32 (removed + 1) else removed
        { slots := Function.update t.slots index { slot with classification := classification }
          hidHandleCount := count }
      else t
    | .insertion (some index) =>
      { slots := Function.update t.slots index { key := handle, classification := classification }
        hidHandleCount :=
          if classification = .hid then i32 (t.hidHandleCount + 1) else t.hidHandleCount }
    | .insertion none => t

/-! ## `forget_handle` -/

/-- `n` rounds of the read-locked loop from `offset`. -/
def presentLoop (slots : Nat → HandleSlot) (key : UInt64) : Nat → Nat → Bool
  | 0, _ => false
  | n + 1, offset =>
    let slot := slots (probeIndex key offset)
    if slot.key = 0 then false
    else if slot.key = key then true
    else presentLoop slots key n (offset + 1)

/-- The first section: whether there is anything to remove. -/
def HandleTable.forgetCheck (t : HandleTable) (handle : UInt64) : Bool :=
  !notTracked handle && presentLoop t.slots handle handleProbeLimit 0

/-- `n` rounds of the write-locked loop from `offset`: the slot to bury. -/
def removeLoop (slots : Nat → HandleSlot) (key : UInt64) : Nat → Nat → Option Nat
  | 0, _ => none
  | n + 1, offset =>
    let index := probeIndex key offset
    let slot := slots index
    if slot.key = 0 then none
    else if slot.key = key then some index
    else removeLoop slots key n (offset + 1)

/-- The second section. -/
def HandleTable.forgetRemove (t : HandleTable) (handle : UInt64) : HandleTable :=
  match removeLoop t.slots handle handleProbeLimit 0 with
  | some index =>
    { slots := Function.update t.slots index { key := tombstone, classification := .unknown }
      hidHandleCount :=
        if (t.slots index).classification = .hid then i32 (t.hidHandleCount - 1)
        else t.hidHandleCount }
  | none => t

/-- Both sections with nothing in between. -/
def HandleTable.forgetHandle (t : HandleTable) (handle : UInt64) : HandleTable :=
  if t.forgetCheck handle then t.forgetRemove handle else t

/-! ## Threads that use the table -/

/-- The table, and the handles that threads have checked and not removed yet. -/
structure TableState where
  table : HandleTable
  forgetting : List UInt64

inductive TableLabel
  | lookup (handle : UInt64)
  | remember (handle : UInt64) (classification : HandleClass)
  | forgetCheck (handle : UInt64)
  /-- The thread behind entry `i` goes on to its write-locked section. -/
  | forgetRemove (i : Nat)
  deriving DecidableEq, Repr

def tableStep (s : TableState) : TableLabel → Option TableState
  | .lookup _ => some s
  | .remember h c => some { s with table := s.table.rememberHandle h c }
  | .forgetCheck h =>
    some (if s.table.forgetCheck h then { s with forgetting := s.forgetting ++ [h] } else s)
  | .forgetRemove i =>
    (s.forgetting[i]?).map fun h =>
      { table := s.table.forgetRemove h, forgetting := s.forgetting.eraseIdx i }

/-- Any number of threads on one table. -/
def handleTable : System TableState TableLabel where
  init s := s = { table := .initial, forgetting := [] }
  step := tableStep

end Gate
end SteamInputLease
