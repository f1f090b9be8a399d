import SteamInputLease.Lib.Checked
import SteamInputLease.Recovery.Scheduler

/-!
# Image analysis, with everything that can crash

The functions of `ByteSearch`, `Image` and `Scheduler` once more, under the same names and branch
for branch, in a monad in which unchecked arithmetic, slices and indices crash. Checked and
saturating arithmetic, `get` and the iterators of the standard library do not crash, and stand
here as they stand there.
-/

namespace SteamInputLease
namespace Recovery

open Lib

/-- `isize::MAX`. -/
def isizeMax : Nat := 2 ^ 63 - 1

/-- A slice or a `Vec`, which takes up at most `isize::MAX` bytes. -/
def Slice (α : Type) : Type := { l : List α // l.length ≤ isizeMax }

namespace Checked

/-- `+` and `*` of `usize`. -/
def usizeAdd (a b : Nat) : MayPanic Nat := MayPanic.add usizeMax a b
def usizeMul (a b : Nat) : MayPanic Nat := MayPanic.mul usizeMax a b

/-! ## Searching -/

section

variable {σ : Type} (needle : UInt8) (onHit : σ → Nat → MayPanic σ)

/-- `if byte == needle { on_hit(base + offset) }`. -/
def visit (byte : UInt8) (base offset : Nat) (s : σ) : MayPanic σ :=
  if byte = needle then do
    let position ← usizeAdd base offset
    onHit s position
  else pure s

/-- `while mask != 0`. -/
def maskLoop (chunk : List UInt8) (base : Nat) : Nat → BitVec 64 → σ → MayPanic σ
  | 0, mask, s => if mask = 0#64 then pure s else .error .endless
  | n + 1, mask, s =>
    if mask = 0#64 then pure s
    else do
      let lane := mask.ctz.toNat / 8
      let byte ← MayPanic.index chunk lane
      let s ← visit needle onHit byte base lane s
      let below ← MayPanic.sub mask.toNat 1
      maskLoop chunk base n (mask &&& BitVec.ofNat 64 below) s

def chunkHits (chunk : List UInt8) (base : Nat) (s : σ) : MayPanic σ :=
  let word := u64FromLe chunk ^^^ u64FromLe (.replicate 8 needle)
  maskLoop needle onHit chunk base 64 (zeroLanes word) s

/-- `chunks.remainder().iter().enumerate()`, from `index`. -/
def tailHits (base : Nat) : List UInt8 → Nat → σ → MayPanic σ
  | [], _, s => pure s
  | byte :: rest, index, s => do
    let s ← visit needle onHit byte base index s
    tailHits base rest (index + 1) s

def chunkLoop : Nat → List UInt8 → Nat → σ → MayPanic σ
  | 0, haystack, base, s => tailHits needle onHit base haystack 0 s
  | n + 1, haystack, base, s => do
    let s ← chunkHits needle onHit (haystack.take 8) base s
    let base ← usizeAdd base 8
    chunkLoop n (haystack.drop 8) base s

/-- `for_each_byte`. -/
def forEachByte (haystack : List UInt8) (s : σ) : MayPanic σ :=
  chunkLoop needle onHit (haystack.length / 8) haystack 0 s

end

/-- The closure of `find_unique`. -/
def hit (haystack rest : List UInt8) (limit : Nat) (o : Occurrences) (offset : Nat) :
    MayPanic Occurrences :=
  if offset ≤ limit then do
    let start ← usizeAdd offset 1
    let stop ← usizeAdd offset (rest.length + 1)
    let found ← MayPanic.slice haystack start stop
    if found = rest then do
      let count ← usizeAdd o.count 1
      pure { count := count, found := if o.count = 0 then offset else o.found }
    else pure o
  else pure o

/-- `find_unique`. -/
def findUnique (haystack : List UInt8) : List UInt8 → MayPanic (Except Nat Nat)
  | [] => pure (.error 0)
  | first :: rest =>
    if haystack.length < (first :: rest).length then pure (.error 0)
    else do
      let limit ← MayPanic.sub haystack.length (first :: rest).length
      let o ← forEachByte first (hit haystack rest limit) haystack ⟨0, 0⟩
      pure (if o.count = 1 then .ok o.found else .error o.count)

/-- `read_u16`, `read_u32` and `read_u64`: the end of the range is a sum, and `get` does the
    rest. -/
def readLe (width : Nat) (bytes : List UInt8) (offset : Nat) : MayPanic (Option Nat) := do
  let stop ← usizeAdd offset width
  pure (if stop ≤ bytes.length then some (leNat (slice bytes offset width)) else none)

def readU16 (bytes : List UInt8) (offset : Nat) : MayPanic (Option Nat) := readLe 2 bytes offset
def readU32 (bytes : List UInt8) (offset : Nat) : MayPanic (Option Nat) := readLe 4 bytes offset
def readU64 (bytes : List UInt8) (offset : Nat) : MayPanic (Option Nat) := readLe 8 bytes offset

/-- `find_u64`. -/
def findU64 (haystack : List UInt8) (value : Nat) : MayPanic (List Nat) :=
  (List.range' 0 ((haystack.length - 7 + 7) / 8) 8) |> MayPanic.filter fun offset => do
    let stop ← usizeAdd offset 8
    let word ← MayPanic.slice haystack offset stop
    pure (decide (word = toLe 8 value))

/-! ## Sections -/

/-- A computation that returns early with a `ResolveError`, or crashes. -/
abbrev Resolving (α : Type) := ExceptT ResolveError MayPanic α

/-- `read_u32(image, offset + delta).ok_or(error)`, and the same for `read_u16`. -/
def fieldAt (error : ResolveError) (read : List UInt8 → Nat → MayPanic (Option Nat))
    (image : List UInt8) (offset delta : Nat) : Resolving Nat := do
  let position ← usizeAdd offset delta
  let value ← read image position
  given (okOr error value)

def sectionHeader (image : List UInt8) (sectionTable declaredSize index : Nat) :
    Resolving (Option PeSection) := do
  let step ← usizeMul index 40
  let offset ← given (okOr (.invalidPe "section offset overflow")
    (checkedAdd usizeMax sectionTable step))
  let truncated := .invalidPe "section table is truncated"
  let virtualSize ← fieldAt truncated readU32 image offset 8
  let start ← fieldAt truncated readU32 image offset 12
  let rawSize ← fieldAt truncated readU32 image offset 16
  let characteristics ← fieldAt truncated readU32 image offset 36
  let stop := min (start + max virtualSize rawSize) u32Max
  let executable := characteristics.testBit 29
  pure (if start < stop ∧ stop ≤ declaredSize then some ⟨start, stop, executable⟩ else none)

def sectionLoop (image : List UInt8) (sectionTable declaredSize : Nat) :
    Nat → Nat → Resolving (List PeSection)
  | 0, _ => pure []
  | n + 1, index => do
    let header ← sectionHeader image sectionTable declaredSize index
    let rest ← sectionLoop image sectionTable declaredSize n (index + 1)
    pure (header.toList ++ rest)

/-- `parse_pe_sections`. -/
def parsePeSections (image : List UInt8) : Resolving (List PeSection) := do
  let dos ← readU16 image 0
  given (require (dos = some 0x5a4d) (.invalidPe "DOS signature is missing"))
  let ntOffset ← readU32 image 0x3c
  let ntOffset ← given (okOr (.invalidPe "DOS header is truncated") ntOffset)
  let nt ← readU32 image ntOffset
  given (require (nt = some 0x4550) (.invalidPe "NT signature is missing"))
  let sectionCount ← fieldAt (.invalidPe "COFF header is truncated") readU16 image ntOffset 6
  let optionalSize ← fieldAt (.invalidPe "COFF header is truncated") readU16 image ntOffset 20
  let optional ← usizeAdd ntOffset 24
  let magic ← readU16 image optional
  given (require (magic = some 0x20b) (.invalidPe "image is not PE32+"))
  let declaredSize ← fieldAt (.invalidPe "optional header is truncated") readU32 image optional 56
  given (require (declaredSize ≤ image.length) (.invalidPe "snapshot is shorter than SizeOfImage"))
  let sectionTable ← given (okOr (.invalidPe "section table overflow")
    (checkedAdd usizeMax optional optionalSize))
  let sections ← sectionLoop image sectionTable declaredSize sectionCount 0
  given (require (sections.any (·.executable) = true)
    (.invalidPe "image has no executable section"))
  pure sections

/-! ## Locators -/

/-- One round of `find_complete_object_locators`, on the chunk of four bytes with this index. -/
def locatorAt (image : List UInt8) (typeDescriptorRva index : Nat) : MayPanic Step := do
  let limit := image.length - completeObjectLocatorSize
  if leNat (slice image (index * 4) 4) ≠ typeDescriptorRva then return .skip
  let field ← usizeMul index 4
  if field < 12 then return .skip
  let offset ← MayPanic.sub field 12
  if limit ≤ offset then return .skip
  match u32TryFrom offset with
  | none => return .stop
  | some locatorRva =>
    if (← readU32 image offset) ≠ some 1 then return .skip
    if (← usizeAdd offset 8 >>= readU32 image) ≠ some 0 then return .skip
    if (← usizeAdd offset 20 >>= readU32 image) ≠ some locatorRva then return .skip
    match ← usizeAdd offset 4 >>= readU32 image with
    | none => return .skip
    | some objectOffset =>
      match ← usizeAdd offset 16 >>= readU32 image with
      | none => return .skip
      | some classDescriptor =>
        if objectOffset ≤ maxSecondaryOffset ∧ classDescriptor < image.length then
          return .found (locatorRva, objectOffset)
        return .skip

def locatorLoop (image : List UInt8) (typeDescriptorRva : Nat) :
    Nat → Nat → List (Nat × Nat) → MayPanic (List (Nat × Nat))
  | 0, _, result => pure result
  | n + 1, index, result => do
    match ← locatorAt image typeDescriptorRva index with
    | .skip => locatorLoop image typeDescriptorRva n (index + 1) result
    | .stop => pure result
    | .found locator =>
      locatorLoop image typeDescriptorRva n (index + 1) (pushNew result locator)

/-- `find_complete_object_locators`. -/
def findCompleteObjectLocators (image : List UInt8) (typeDescriptorRva : Nat) :
    MayPanic (List (Nat × Nat)) :=
  locatorLoop image typeDescriptorRva (image.length / 4) 0 []

/-! ## Vtables -/

/-- `vtable_has_executable_entry`. -/
def vtableHasExecutableEntry (moduleBase : Nat) (image : List UInt8) (sections : List PeSection)
    (vtableRva : Nat) : MayPanic Bool := do
  let pointer ← readU64 image vtableRva
  pure (((pointer.bind fun pointer => checkedSub pointer moduleBase).bind u32TryFrom).any
    (rvaIsExecutable sections))

def vtableAt (moduleBase : Nat) (image : List UInt8) (sections : List PeSection)
    (objectOffset reference : Nat) : OptionT MayPanic VtableCandidate := do
  let vtableRva ← givenSome (checkedAdd usizeMax reference 8)
  let vtableRva ← givenSome (u32TryFrom vtableRva)
  let executable ← vtableHasExecutableEntry moduleBase image sections vtableRva
  givenSome (if executable then some ⟨objectOffset, vtableRva⟩ else none)

def vtableLoop (moduleBase : Nat) (image : List UInt8) (sections : List PeSection) :
    List (Nat × Nat) → List VtableCandidate → Resolving (List VtableCandidate)
  | [], vtables => pure vtables
  | (locatorRva, objectOffset) :: rest, vtables => do
    let absolute ← given (okOr (.invalidPe "module address overflow")
      (checkedAdd usizeMax moduleBase locatorRva))
    let references ← findU64 image absolute
    let vtables ← MayPanic.collect (vtableAt moduleBase image sections objectOffset) references
      vtables
    vtableLoop moduleBase image sections rest vtables

/-- `unique_vtable`. -/
def uniqueVtable (candidates : List VtableCandidate) (objectOffset : Nat) (kind : String) :
    Resolving VtableCandidate :=
  let found := candidates.filter fun candidate => candidate.objectOffset == objectOffset
  if found.length = 1 then liftM (MayPanic.index found 0)
  else given (.error (.vtableNotUnique kind))

/-! ## One method -/

section

variable (instructions : List Instruction)

/-- One `store` behind the increment at `index`, which goes through `base` and `counter`. -/
def fieldsOf (index : Nat) (base : Register) (counter : Nat) (store : Instruction) :
    OptionT MayPanic SchedulerFields := do
  let (storeBase, deadline) ← givenSome (movsdStore store)
  if storeBase ≠ base ∨ maxFieldOffset < deadline ∨ deadline % 8 ≠ 0 then givenSome none
  else do
    let previous ← MayPanic.slice instructions (index - 48) index
    if previous.any fun candidate => movsdLoad candidate = some (base, deadline) then do
      let deadline ← givenSome (u32TryFrom deadline)
      let counter ← givenSome (u32TryFrom counter)
      pure ⟨deadline, counter⟩
    else givenSome none

/-- One round of the loop over the instructions. -/
def fieldsFrom (found : List SchedulerFields) (index : Nat) : MayPanic (List SchedulerFields) :=
  match (instructions[index]?).bind incrementedMemory with
  | none => pure found
  | some (base, counter) =>
    if base = .none ∨ maxFieldOffset < counter then pure found
    else do
      let following ← usizeAdd index 9
      let first ← usizeAdd index 1
      let stores ← MayPanic.slice instructions first (min following instructions.length)
      MayPanic.collect (fieldsOf instructions index base counter) stores found

/-- `matches`, when the loops are done. -/
def schedulerFields : MayPanic (List SchedulerFields) :=
  (List.range instructions.length).foldlM (fieldsFrom instructions) []

end

section

variable (decode : Decoder) (moduleBase : Nat) (image : List UInt8) (sections : List PeSection)

def methodInstructions (methodRva : Nat) : OptionT MayPanic (List Instruction) := do
  let sectionEnd ← givenSome (executableEnd sections methodRva)
  let limit ← givenSome (checkedAdd usizeMax methodRva maxMethodBytes)
  let stop := min (min sectionEnd limit) image.length
  if stop ≤ methodRva then givenSome none
  else do
    let code ← MayPanic.slice image methodRva stop
    let ip ← givenSome (checkedAdd usizeMax moduleBase methodRva)
    pure (untilRet (decode code ip))

/-- `analyze_scheduler_method`. -/
def analyzeSchedulerMethod (methodRva : Nat) : OptionT MayPanic SchedulerFields := do
  let instructions ← methodInstructions decode moduleBase image sections methodRva
  let found ← schedulerFields instructions
  givenSome (if found.length = 1 then found.head? else none)

/-! ## The layout -/

def slotMethod (vtableRva index : Nat) : OptionT MayPanic Nat := do
  let step ← usizeMul index 8
  let pointerRva ← givenSome (checkedAdd usizeMax vtableRva step)
  let method ← OptionT.mk (readU64 image pointerRva)
  let methodRva ← givenSome (checkedSub method moduleBase)
  let methodRva ← givenSome (u32TryFrom methodRva)
  givenSome (if rvaIsExecutable sections methodRva then some methodRva else none)

def schedulerLayout (primary : VtableCandidate) :
    VtableCandidate × Nat → OptionT MayPanic RecoveryLayout
  | (secondary, index) => do
    let methodRva ← slotMethod moduleBase image sections secondary.vtableRva index
    let fields ← analyzeSchedulerMethod decode moduleBase image sections methodRva
    let deadline ← givenSome
      (checkedAdd u32Max secondary.objectOffset fields.deadlineFromSecondary)
    let counter ← givenSome
      (checkedAdd u32Max secondary.objectOffset fields.counterFromSecondary)
    pure
      { primaryVtableRva := primary.vtableRva
        secondaryVtableRva := secondary.vtableRva
        secondaryObjectOffset := secondary.objectOffset
        workerMethodRva := methodRva
        discoveryDeadlineOffset := deadline
        discoveryCounterOffset := counter }

/-- `find_scheduler_layouts`. -/
def findSchedulerLayouts (vtables : List VtableCandidate) (primary : VtableCandidate) :
    MayPanic (List RecoveryLayout) :=
  let secondaries := vtables.filter fun value => value.objectOffset ≠ 0
  MayPanic.collect (schedulerLayout decode moduleBase image sections primary)
    (secondaries ×ˢ List.range maxVtableMethods) []

end

section

variable (moduleBase : Nat) (image : List UInt8)

def typeDescriptor : Resolving Nat := do
  let name ← findUnique image hidThreadRttiName
  let name ← given (name.mapError .rttiNameCount)
  let rva ← given (okOr (.invalidPe "RTTI type descriptor underflow")
    (checkedSub name typeDescriptorNameOffset))
  given (okOr (.invalidPe "RTTI RVA exceeds 32 bits") (u32TryFrom rva))

def classVtables : Resolving (List PeSection × List VtableCandidate × VtableCandidate) := do
  let sections ← parsePeSections image
  let typeDescriptorRva ← typeDescriptor image
  let locators ← findCompleteObjectLocators image typeDescriptorRva
  given (require (locators ≠ []) .completeObjectLocatorNotFound)
  let vtables ← vtableLoop moduleBase image sections locators []
  let primary ← uniqueVtable vtables 0 "primary"
  pure (sections, vtables, primary)

/-- `resolve_recovery_layout`. -/
def resolveRecoveryLayout (decode : Decoder) : Resolving RecoveryLayout := do
  let (sections, vtables, primary) ← classVtables moduleBase image
  let layouts ← findSchedulerLayouts decode moduleBase image sections vtables primary
  if layouts.length ≠ 1 then given (.error (.schedulerNotUnique layouts.length))
  else liftM (MayPanic.index layouts 0)

end

end Checked
end Recovery
end SteamInputLease
