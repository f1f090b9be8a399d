import SteamInputLease.Lib.Checked
import SteamInputLease.Gate.Hooks
import SteamInputLease.Gate.Sweep
import SteamInputLease.Recovery.Image
import SteamInputLease.Recovery.Memory

/-!
# Enumerating handles

`query_until_sized` and `handle_entries`, and the two enumerations over them, as programs that
call the allocator and Windows. The kernel answers every query as it likes: a status, a length it
says it needs, and any words in the buffer. `handle_entries` reads memory, so an entry that is not
in the buffer crashes here.
-/

namespace SteamInputLease
namespace Gate

open Lib
open Recovery (satAdd satMul slice u32Max u32TryFrom)

/-- `STATUS_INFO_LENGTH_MISMATCH`. -/
def statusInfoLengthMismatch : Int32 := (0xC0000004 : UInt32).toInt32

/-- What the closure of a caller asks, with its information class. -/
structure HandleQuery where
  native : NativeQuery
  informationClass : Nat
  deriving DecidableEq, Repr

/-- `PROCESS_HANDLE_INFORMATION`, of this process. -/
def processHandleInformation : HandleQuery := ⟨.informationProcess, 51⟩

/-- `SYSTEM_EXTENDED_HANDLE_INFORMATION`. -/
def systemExtendedHandleInformation : HandleQuery := ⟨.systemInformation, 64⟩

/-- What an enumeration calls. -/
inductive EnumerationCall
  | loadQuery (query : NativeQuery)
  /-- `try_reserve_exact`, of a `Vec` that is empty. -/
  | tryReserveExact (elements : Nat)
  /-- The query, with the buffer it may fill and the length it is told. -/
  | query (query : HandleQuery) (buffer : List UInt64) (length : Nat)
  | getCurrentProcessId
  deriving DecidableEq, Repr

/-- An answer, of which each call reads its own part. -/
structure EnumerationAnswer where
  /-- The native query, or a null pointer. -/
  address : UInt64
  /-- The elements allocated beyond those that were asked for; `none` where the allocation
      failed. -/
  spare : Option Nat
  status : Int32
  required : UInt32
  /-- The words of the buffer as the query leaves them. -/
  contents : Nat → UInt64
  processId : UInt32

/-- The buffer behind the query. -/
def EnumerationAnswer.reply (answer : EnumerationAnswer) (buffer : List UInt64) : List UInt64 :=
  (List.range buffer.length).map answer.contents

/-- A part of an enumeration. -/
abbrev Enumerating := Program EnumerationCall EnumerationAnswer

/-! ## Queries -/

/-- `try_reserve_exact` where the `Vec` is too small; `none` where it fails. -/
def reserve (elements allocated : Nat) : Enumerating (Option Nat) :=
  if allocated < elements then do
    let answer ← Program.ask (.tryReserveExact elements)
    pure (answer.spare.map (elements + ·))
  else pure (some allocated)

/-- `div_ceil`. -/
def divCeil (a b : Nat) : Nat := if a % b = 0 then a / b else a / b + 1

/-- The capacity of the next round. -/
def nextCapacity (capacity required : Nat) : Nat :=
  if capacity < required then satAdd required (2 ^ 16) else satMul capacity 2

/-- `u32::try_from(size_of_val(buffer)).unwrap_or(u32::MAX)`. -/
def queryLength (buffer : List UInt64) : Nat := (u32TryFrom (8 * buffer.length)).getD u32Max

/-- The rounds of `query_until_sized` that are left. -/
def queryRounds (query : HandleQuery) : Nat → Nat → Nat → Enumerating (Option (List UInt64))
  | 0, _, _ => pure none
  | rounds + 1, capacity, allocated =>
    if handleQueryLimit < capacity then pure none
    else do
      match ← reserve (divCeil capacity 8) allocated with
      | none => pure none
      | some allocated => do
        let buffer : List UInt64 := .replicate (divCeil capacity 8) 0
        let answer ← Program.ask (.query query buffer (queryLength buffer))
        if answer.status ≠ statusInfoLengthMismatch then
          pure (if 0 ≤ answer.status then some (answer.reply buffer) else none)
        else queryRounds query rounds (nextCapacity capacity answer.required.toNat) allocated

/-- `query_until_sized`. -/
def queryUntilSized (query : HandleQuery) (initial : Nat) : Enumerating (Option (List UInt64)) :=
  queryRounds query 6 initial 0

/-! ## Entries -/

/-- `size_of::<usize>() * 2`. -/
def entriesOffset : Nat := 16

/-- The memory of a buffer. -/
def bufferBytes (buffer : List UInt64) : List UInt8 := buffer.flatMap fun word => toLe 8 word.toNat

/-- `handle_entries`, for entries of `size` bytes. -/
def handleEntries (size : Nat) (buffer : List UInt64) : MayPanic (List (List UInt8)) :=
  let bytes := 8 * buffer.length
  if bytes < entriesOffset then pure []
  else do
    let count ← MayPanic.index buffer 0
    let maximum := (bytes - entriesOffset) / size
    (List.range (min count.toNat maximum)).mapM fun i =>
      MayPanic.slice (bufferBytes buffer) (entriesOffset + i * size)
        (entriesOffset + (i + 1) * size)

/-- What is read of a `ProcessHandleEntry`. -/
structure ProcessHandleEntry where
  handleValue : UInt64
  objectTypeIndex : UInt32
  deriving DecidableEq, Repr

def ProcessHandleEntry.read (bytes : List UInt8) : ProcessHandleEntry :=
  { handleValue := .ofNat (leNat (slice bytes 0 8))
    objectTypeIndex := .ofNat (leNat (slice bytes 28 4)) }

/-- What is read of a `SystemHandleEntryEx`. -/
structure SystemHandleEntryEx where
  processId : Nat
  handleValue : UInt64
  objectTypeIndex : UInt16
  deriving DecidableEq, Repr

def SystemHandleEntryEx.read (bytes : List UInt8) : SystemHandleEntryEx :=
  { processId := leNat (slice bytes 8 8)
    handleValue := .ofNat (leNat (slice bytes 16 8))
    objectTypeIndex := .ofNat (leNat (slice bytes 30 2)) }

/-! ## The two enumerations -/

/-- The handles with the indices of their types. -/
abbrev HandlePairs := List (UInt64 × UInt32)

/-- `entries` has room for all raw entries before it takes those it keeps; an enumeration without
    any is none. -/
def keptEntries (rawEntries : List (List UInt8)) (pairs : HandlePairs) :
    Enumerating (Option HandlePairs) := do
  match ← reserve rawEntries.length 0 with
  | none => pure none
  | some _ => pure (if pairs.isEmpty then none else some pairs)

/-- `process_handle_entries`. -/
def processHandleEntries : ExceptT Panic Enumerating (Option HandlePairs) := do
  let loaded ← Program.calling (EnumerationCall.loadQuery .informationProcess)
  if loaded.address = 0 then pure none
  else
    match ← liftM (queryUntilSized processHandleInformation (64 * 2 ^ 10)) with
    | none => pure none
    | some buffer => do
      let rawEntries ← checked (handleEntries handleEntrySize buffer)
      let pairs := rawEntries.map fun bytes =>
        let entry := ProcessHandleEntry.read bytes
        (entry.handleValue, entry.objectTypeIndex)
      liftM (keptEntries rawEntries pairs)

/-- `system_handle_entries`. -/
def systemHandleEntries : ExceptT Panic Enumerating (Option HandlePairs) := do
  let loaded ← Program.calling (EnumerationCall.loadQuery .systemInformation)
  if loaded.address = 0 then pure none
  else
    match ← liftM (queryUntilSized systemExtendedHandleInformation (2 ^ 20)) with
    | none => pure none
    | some buffer => do
      let current ← Program.calling EnumerationCall.getCurrentProcessId
      let rawEntries ← checked (handleEntries handleEntrySize buffer)
      let own := (rawEntries.map SystemHandleEntryEx.read).filter fun entry =>
        entry.processId == current.processId.toNat
      let pairs := own.map fun entry => (entry.handleValue, entry.objectTypeIndex.toUInt32)
      liftM (keptEntries rawEntries pairs)

/-! ## The whole revocation -/

/-- `process_handle_entries().or_else(system_handle_entries)`. -/
def sweptEntries : ExceptT Panic Enumerating (Option HandlePairs) := do
  match ← processHandleEntries with
  | some pairs => pure (some pairs)
  | none => systemHandleEntries

/-- The entries, each with what Windows answers about the one at its place. -/
def sweepAttempts (windows : Nat → SweepAttempt) (pairs : HandlePairs) : List SweepAttempt :=
  pairs.mapIdx fun i pair => { windows i with handle := pair.1, objectTypeIndex := pair.2 }

/-- `discover_and_revoke_hid_handles`, from its enumeration on. -/
def enumerateAndRevoke (table : HandleTable) (windows : Nat → SweepAttempt) :
    ExceptT Panic Enumerating Sweep := do
  let entries ← sweptEntries
  pure (discoverAndRevokeHidHandles table (entries.map (sweepAttempts windows)))

end Gate
end SteamInputLease
