import SteamInputLease.Recovery.Image

/-!
# Finding the scheduler

The instructions of a virtual method, the increment, load and store that give the scheduler away,
and `resolve_recovery_layout` over all of it. The x64 decoder is a parameter: from the bytes of a
method and the address of the first one to the instructions.
-/

namespace SteamInputLease
namespace Recovery

open Lib

/-! ## Instructions -/

/-- `Mnemonic`, as far as it is looked at. -/
inductive Mnemonic
  | inc
  | add
  | movsd
  | ret
  | other
  deriving DecidableEq, Repr

/-- `OpKind`, as far as it is looked at. -/
inductive OpKind
  | register
  | memory
  /-- `Immediate8` to `Immediate32to64`. -/
  | immediate
  | other
  deriving DecidableEq, Repr

/-- `Register`. -/
inductive Register
  | none
  | register (number : Nat)
  deriving DecidableEq, Repr

/-- What is asked of an `Instruction`. -/
structure Instruction where
  mnemonic : Mnemonic
  opCount : Nat
  op0Kind : OpKind
  op1Kind : OpKind
  /-- `immediate(1)`. -/
  immediate1 : Nat
  memoryBase : Register
  memoryIndex : Register
  memoryDisplacement64 : Nat
  isIpRelMemoryOperand : Bool
  deriving DecidableEq, Repr

/-- `Decoder::with_ip(64, ..)` and `decode` until `can_decode` fails. -/
abbrev Decoder := List UInt8 → Nat → List Instruction

/-- `simple_memory`. -/
def simpleMemory (i : Instruction) : Option (Register × Nat) :=
  if i.memoryIndex = .none ∧ i.isIpRelMemoryOperand = false then
    some (i.memoryBase, i.memoryDisplacement64)
  else none

/-- `incremented_memory`. -/
def incrementedMemory (i : Instruction) : Option (Register × Nat) :=
  let isIncrement := i.mnemonic = .inc ∨
    (i.mnemonic = .add ∧ 2 ≤ i.opCount ∧ i.op1Kind = .immediate ∧ i.immediate1 = 1)
  if ¬isIncrement ∨ i.op0Kind ≠ .memory then none else simpleMemory i

/-- `movsd_load`. -/
def movsdLoad (i : Instruction) : Option (Register × Nat) :=
  if i.mnemonic = .movsd ∧ i.op0Kind = .register ∧ i.op1Kind = .memory then simpleMemory i
  else none

/-- `movsd_store`. -/
def movsdStore (i : Instruction) : Option (Register × Nat) :=
  if i.mnemonic = .movsd ∧ i.op0Kind = .memory ∧ i.op1Kind = .register then simpleMemory i
  else none

/-! ## One method -/

/-- `SchedulerFields`. -/
structure SchedulerFields where
  deadlineFromSecondary : Nat
  counterFromSecondary : Nat
  deriving DecidableEq, Repr

/-- The decoding loop ends with the first `ret`. -/
def untilRet : List Instruction → List Instruction
  | [] => []
  | i :: rest => if i.mnemonic = .ret then [i] else i :: untilRet rest

/-- The instruction at `index` as the increment, and the one at `following` as the store. -/
def fieldsAt (instructions : List Instruction) : Nat × Nat → Option SchedulerFields
  | (index, following) => do
    let (base, counter) ← (instructions[index]?).bind incrementedMemory
    if base = .none ∨ maxFieldOffset < counter then none
    else
      let (storeBase, deadline) ← (instructions[following]?).bind movsdStore
      if storeBase ≠ base ∨ maxFieldOffset < deadline ∨ deadline % 8 ≠ 0 then none
      else
        let previous := (instructions.take index).drop (index - 48)
        if previous.any fun candidate => movsdLoad candidate = some (base, deadline) then do
          let deadline ← u32TryFrom deadline
          let counter ← u32TryFrom counter
          pure ⟨deadline, counter⟩
        else none

/-- The pairs of an index and one of the eight indices behind it, in the order of the loops. -/
def storePairs (count : Nat) : List (Nat × Nat) :=
  (List.range count).flatMap fun index =>
    (List.range' (index + 1) (min (index + 9) count - (index + 1))).map (index, ·)

/-- `matches`, when the loops are done. -/
def schedulerFields (instructions : List Instruction) : List SchedulerFields :=
  collect (fieldsAt instructions) (storePairs instructions.length) []

section

variable (decode : Decoder) (moduleBase : Nat) (image : List UInt8) (sections : List PeSection)

/-- The instructions of a method. -/
def methodInstructions (methodRva : Nat) : Option (List Instruction) := do
  let sectionEnd ← executableEnd sections methodRva
  let limit ← checkedAdd usizeMax methodRva maxMethodBytes
  let stop := min (min sectionEnd limit) image.length
  if stop ≤ methodRva then none
  else
    let ip ← checkedAdd usizeMax moduleBase methodRva
    pure (untilRet (decode (slice image methodRva (stop - methodRva)) ip))

/-- `analyze_scheduler_method`. -/
def analyzeSchedulerMethod (methodRva : Nat) : Option SchedulerFields := do
  let instructions ← methodInstructions decode moduleBase image sections methodRva
  match schedulerFields instructions with
  | [fields] => some fields
  | _ => none

/-! ## The layout -/

/-- The executable method in a slot of a vtable. -/
def slotMethod (vtableRva index : Nat) : Option Nat := do
  let pointerRva ← checkedAdd usizeMax vtableRva (index * 8)
  let method ← readU64 image pointerRva
  let methodRva ← checkedSub method moduleBase
  let methodRva ← u32TryFrom methodRva
  if rvaIsExecutable sections methodRva then some methodRva else none

/-- One round of the loops over the secondary vtables and their slots. -/
def schedulerLayout (primary : VtableCandidate) : VtableCandidate × Nat → Option RecoveryLayout
  | (secondary, index) => do
    let methodRva ← slotMethod moduleBase image sections secondary.vtableRva index
    let fields ← analyzeSchedulerMethod decode moduleBase image sections methodRva
    let deadline ← checkedAdd u32Max secondary.objectOffset fields.deadlineFromSecondary
    let counter ← checkedAdd u32Max secondary.objectOffset fields.counterFromSecondary
    pure
      { primaryVtableRva := primary.vtableRva
        secondaryVtableRva := secondary.vtableRva
        secondaryObjectOffset := secondary.objectOffset
        workerMethodRva := methodRva
        discoveryDeadlineOffset := deadline
        discoveryCounterOffset := counter }

/-- `find_scheduler_layouts`. -/
def findSchedulerLayouts (vtables : List VtableCandidate) (primary : VtableCandidate) :
    List RecoveryLayout :=
  let secondaries := vtables.filter fun value => value.objectOffset ≠ 0
  collect (schedulerLayout decode moduleBase image sections primary)
    (secondaries ×ˢ List.range maxVtableMethods) []

end

section

variable (moduleBase : Nat) (image : List UInt8)

/-- The RVA of the type descriptor. -/
def typeDescriptor : Resolved Nat := do
  let name ← (findUnique image hidThreadRttiName).mapError .rttiNameCount
  let rva ← okOr (.invalidPe "RTTI type descriptor underflow")
    (checkedSub name typeDescriptorNameOffset)
  okOr (.invalidPe "RTTI RVA exceeds 32 bits") (u32TryFrom rva)

/-- What `resolve_recovery_layout` has before it looks for the scheduler: the sections, the
    vtables of the class and the primary one. -/
def classVtables : Resolved (List PeSection × List VtableCandidate × VtableCandidate) := do
  let sections ← parsePeSections image
  let typeDescriptorRva ← typeDescriptor image
  let locators := findCompleteObjectLocators image typeDescriptorRva
  require (locators ≠ []) .completeObjectLocatorNotFound
  let vtables ← vtableLoop moduleBase image sections locators []
  let primary ← uniqueVtable vtables 0 "primary"
  pure (sections, vtables, primary)

/-- `resolve_recovery_layout`. -/
def resolveRecoveryLayout (decode : Decoder) : Resolved RecoveryLayout := do
  let (sections, vtables, primary) ← classVtables moduleBase image
  match findSchedulerLayouts decode moduleBase image sections vtables primary with
  | [layout] => .ok layout
  | layouts => .error (.schedulerNotUnique layouts.length)

end

end Recovery
end SteamInputLease
