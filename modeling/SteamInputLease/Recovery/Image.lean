import Mathlib.Data.List.ProdSigma
import SteamInputLease.Lib.Collect
import SteamInputLease.Recovery.ByteSearch
import SteamInputLease.Recovery.Layout
import SteamInputLease.Recovery.Memory

/-!
# Reading a loaded image

The PE header and its sections, the complete-object locators of the class, and the vtables that
refer to them. The snapshot is a byte list indexed by RVA. A `u32` is a number below `2 ^ 32`, and
`usize` is `u64`.
-/

namespace SteamInputLease
namespace Recovery

open Lib

/-- `ResolveError`. -/
inductive ResolveError
  | invalidPe (reason : String)
  | rttiNameCount (count : Nat)
  | completeObjectLocatorNotFound
  | vtableNotUnique (kind : String)
  | schedulerNotUnique (count : Nat)
  deriving DecidableEq, Repr

/-- `Result<T, ResolveError>`. -/
abbrev Resolved (α : Type) := Except ResolveError α

/-- `HID_THREAD_RTTI_NAME`: `.?AVCHIDIOThread@CSteamController@@` and a zero byte. -/
def hidThreadRttiName : List UInt8 :=
  [0x2e, 0x3f, 0x41, 0x56, 0x43, 0x48, 0x49, 0x44, 0x49, 0x4f, 0x54, 0x68, 0x72, 0x65, 0x61, 0x64,
    0x40, 0x43, 0x53, 0x74, 0x65, 0x61, 0x6d, 0x43, 0x6f, 0x6e, 0x74, 0x72, 0x6f, 0x6c, 0x6c, 0x65,
    0x72, 0x40, 0x40, 0]

def typeDescriptorNameOffset : Nat := 16
def completeObjectLocatorSize : Nat := 24
def maxSecondaryOffset : Nat := 0x100
def maxVtableMethods : Nat := 8
def maxMethodBytes : Nat := 0x20000
def maxFieldOffset : Nat := 0x20000

/-- `PeSection`. -/
structure PeSection where
  start : Nat
  stop : Nat
  executable : Bool
  deriving DecidableEq, Repr

/-- `VtableCandidate`. -/
structure VtableCandidate where
  objectOffset : Nat
  vtableRva : Nat
  deriving DecidableEq, Repr

/-! ## Numbers -/

/-- `u32::try_from`. -/
def u32TryFrom (n : Nat) : Option Nat := if n < 2 ^ 32 then some n else none

/-- `checked_add`, at the width whose largest value is given. -/
def checkedAdd (largest a b : Nat) : Option Nat := if a + b ≤ largest then some (a + b) else none

/-- `checked_sub`. -/
def checkedSub (a b : Nat) : Option Nat := if b ≤ a then some (a - b) else none

/-- `u32::MAX`. -/
def u32Max : Nat := 2 ^ 32 - 1

/-- `read_u16`, `read_u32` and `read_u64`. -/
def readLe (width : Nat) (bytes : List UInt8) (offset : Nat) : Option Nat :=
  if offset + width ≤ bytes.length then some (leNat (slice bytes offset width)) else none

def readU16 (bytes : List UInt8) (offset : Nat) : Option Nat := readLe 2 bytes offset
def readU32 (bytes : List UInt8) (offset : Nat) : Option Nat := readLe 4 bytes offset
def readU64 (bytes : List UInt8) (offset : Nat) : Option Nat := readLe 8 bytes offset

/-! ## Sections -/

/-- One round of the loop over the section table. -/
def sectionHeader (image : List UInt8) (sectionTable declaredSize index : Nat) :
    Resolved (Option PeSection) := do
  let offset ← okOr (.invalidPe "section offset overflow")
    (checkedAdd usizeMax sectionTable (index * 40))
  let truncated := .invalidPe "section table is truncated"
  let virtualSize ← okOr truncated (readU32 image (offset + 8))
  let start ← okOr truncated (readU32 image (offset + 12))
  let rawSize ← okOr truncated (readU32 image (offset + 16))
  let characteristics ← okOr truncated (readU32 image (offset + 36))
  -- `start.saturating_add(virtual_size.max(raw_size))`
  let stop := min (start + max virtualSize rawSize) u32Max
  -- `characteristics & 0x2000_0000 != 0`
  let executable := characteristics.testBit 29
  pure (if start < stop ∧ stop ≤ declaredSize then some ⟨start, stop, executable⟩ else none)

/-- `n` rounds of that loop, from `index`. -/
def sectionLoop (image : List UInt8) (sectionTable declaredSize : Nat) :
    Nat → Nat → Resolved (List PeSection)
  | 0, _ => pure []
  | n + 1, index => do
    let header ← sectionHeader image sectionTable declaredSize index
    let rest ← sectionLoop image sectionTable declaredSize n (index + 1)
    pure (header.toList ++ rest)

/-- `parse_pe_sections`. -/
def parsePeSections (image : List UInt8) : Resolved (List PeSection) := do
  require (readU16 image 0 = some 0x5a4d) (.invalidPe "DOS signature is missing")
  let ntOffset ← okOr (.invalidPe "DOS header is truncated") (readU32 image 0x3c)
  require (readU32 image ntOffset = some 0x4550) (.invalidPe "NT signature is missing")
  let sectionCount ← okOr (.invalidPe "COFF header is truncated") (readU16 image (ntOffset + 6))
  let optionalSize ← okOr (.invalidPe "COFF header is truncated") (readU16 image (ntOffset + 20))
  let optional := ntOffset + 24
  require (readU16 image optional = some 0x20b) (.invalidPe "image is not PE32+")
  let declaredSize ← okOr (.invalidPe "optional header is truncated")
    (readU32 image (optional + 56))
  require (declaredSize ≤ image.length) (.invalidPe "snapshot is shorter than SizeOfImage")
  let sectionTable ← okOr (.invalidPe "section table overflow")
    (checkedAdd usizeMax optional optionalSize)
  let sections ← sectionLoop image sectionTable declaredSize sectionCount 0
  require (sections.any (·.executable) = true) (.invalidPe "image has no executable section")
  pure sections

/-- `rva_is_executable`. -/
def rvaIsExecutable (sections : List PeSection) (rva : Nat) : Bool :=
  sections.any fun s => s.executable && decide (s.start ≤ rva) && decide (rva < s.stop)

/-- `executable_end`. -/
def executableEnd (sections : List PeSection) (rva : Nat) : Option Nat :=
  (sections.find? fun s => s.executable && decide (s.start ≤ rva) && decide (rva < s.stop)).map
    (·.stop)

/-! ## Locators -/

/-- What the scan makes of the type descriptor in the word at `field`. -/
inductive Step
  | skip
  | stop
  | found (locator : Nat × Nat)
  deriving DecidableEq, Repr

/-- One round of the scan. -/
def locatorAt (image : List UInt8) (typeDescriptorRva index : Nat) : Step :=
  let limit := image.length - completeObjectLocatorSize
  let field := index * 4
  let offset := field - 12
  if leNat (slice image field 4) ≠ typeDescriptorRva then .skip
  else if field < 12 then .skip
  else if limit ≤ offset then .skip
  else
    match u32TryFrom offset with
    | none => .stop
    | some locatorRva =>
      if readU32 image offset ≠ some 1 ∨ readU32 image (offset + 8) ≠ some 0 ∨
          readU32 image (offset + 20) ≠ some locatorRva then .skip
      else
        match readU32 image (offset + 4), readU32 image (offset + 16) with
        | some objectOffset, some classDescriptor =>
          if objectOffset ≤ maxSecondaryOffset ∧ classDescriptor < image.length then
            .found (locatorRva, objectOffset)
          else .skip
        | _, _ => .skip

/-- `n` rounds of the scan, from `index`. -/
def locatorLoop (image : List UInt8) (typeDescriptorRva : Nat) :
    Nat → Nat → List (Nat × Nat) → List (Nat × Nat)
  | 0, _, result => result
  | n + 1, index, result =>
    match locatorAt image typeDescriptorRva index with
    | .skip => locatorLoop image typeDescriptorRva n (index + 1) result
    | .stop => result
    | .found locator =>
      locatorLoop image typeDescriptorRva n (index + 1) (pushNew result locator)

/-- `find_complete_object_locators`. -/
def findCompleteObjectLocators (image : List UInt8) (typeDescriptorRva : Nat) : List (Nat × Nat) :=
  locatorLoop image typeDescriptorRva (image.length / 4) 0 []

/-! ## Vtables -/

/-- `find_u64`. -/
def findU64 (haystack : List UInt8) (value : Nat) : List Nat :=
  -- the multiples of eight below `haystack.len().saturating_sub(7)`
  (List.range' 0 ((haystack.length - 7 + 7) / 8) 8).filter fun offset =>
    decide (slice haystack offset 8 = toLe 8 value)

/-- `vtable_has_executable_entry`. -/
def vtableHasExecutableEntry (moduleBase : Nat) (image : List UInt8) (sections : List PeSection)
    (vtableRva : Nat) : Bool :=
  (((readU64 image vtableRva).bind fun pointer => checkedSub pointer moduleBase).bind
    u32TryFrom).any (rvaIsExecutable sections)

/-- One round of the loop over the references to a locator. -/
def vtableAt (moduleBase : Nat) (image : List UInt8) (sections : List PeSection)
    (objectOffset reference : Nat) : Option VtableCandidate :=
  ((checkedAdd usizeMax reference 8).bind u32TryFrom).bind fun vtableRva =>
    if vtableHasExecutableEntry moduleBase image sections vtableRva then
      some ⟨objectOffset, vtableRva⟩
    else none

/-- The loop over the locators. -/
def vtableLoop (moduleBase : Nat) (image : List UInt8) (sections : List PeSection) :
    List (Nat × Nat) → List VtableCandidate → Resolved (List VtableCandidate)
  | [], vtables => pure vtables
  | (locatorRva, objectOffset) :: rest, vtables => do
    let absolute ← okOr (.invalidPe "module address overflow")
      (checkedAdd usizeMax moduleBase locatorRva)
    vtableLoop moduleBase image sections rest
      (collect (vtableAt moduleBase image sections objectOffset) (findU64 image absolute) vtables)

/-- `unique_vtable`. -/
def uniqueVtable (candidates : List VtableCandidate) (objectOffset : Nat) (kind : String) :
    Resolved VtableCandidate :=
  match candidates.filter fun candidate => candidate.objectOffset == objectOffset with
  | [candidate] => .ok candidate
  | _ => .error (.vtableNotUnique kind)

end Recovery
end SteamInputLease
