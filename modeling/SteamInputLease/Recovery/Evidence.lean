import SteamInputLease.Recovery.Scheduler

/-!
# What an image shows

The evidence that the resolver looks for, each piece stated on the bytes of the image: a PE32+
header and its sections, a complete-object locator of the class, a vtable that refers to one, and
the load, the increment and the store of a scheduler.
-/

namespace SteamInputLease
namespace Recovery

open Lib

/-! ## Sections -/

/-- The image has a PE32+ header, with its section table at `table`. -/
structure PeHeader (image : List UInt8) (table count declaredSize : Nat) : Prop where
  dos : readU16 image 0 = some 0x5a4d
  nt : ∃ nt optionalSize, readU32 image 0x3c = some nt ∧ readU32 image nt = some 0x4550 ∧
    readU16 image (nt + 6) = some count ∧ readU16 image (nt + 20) = some optionalSize ∧
    readU16 image (nt + 24) = some 0x20b ∧ readU32 image (nt + 24 + 56) = some declaredSize ∧
    table = nt + 24 + optionalSize
  size : declaredSize ≤ image.length

/-- One of the headers describes the section, and it lies inside the declared size. -/
structure SectionOf (image : List UInt8) (table count declaredSize : Nat) (s : PeSection) : Prop where
  header : ∃ index, index < count ∧ ∃ virtualSize rawSize characteristics,
    readU32 image (table + index * 40 + 8) = some virtualSize ∧
    readU32 image (table + index * 40 + 12) = some s.start ∧
    readU32 image (table + index * 40 + 16) = some rawSize ∧
    readU32 image (table + index * 40 + 36) = some characteristics ∧
    s.stop = min (s.start + max virtualSize rawSize) u32Max ∧
    s.executable = characteristics.testBit 29
  nonempty : s.start < s.stop
  inside : s.stop ≤ declaredSize

/-- The address is in an executable section. -/
def Executable (sections : List PeSection) (rva : Nat) : Prop :=
  ∃ s ∈ sections, s.executable = true ∧ s.start ≤ rva ∧ rva < s.stop

/-! ## Locators and vtables -/

/-- A well-formed locator of the class at `o`. -/
structure Locator (image : List UInt8) (typeDescriptorRva o objectOffset : Nat) : Prop where
  aligned : 4 ∣ o
  inside : o + completeObjectLocatorSize ≤ image.length
  signature : readU32 image o = some 1
  offset : readU32 image (o + 4) = some objectOffset
  displacement : readU32 image (o + 8) = some 0
  descriptor : readU32 image (o + 12) = some typeDescriptorRva
  hierarchy : ∃ rva, readU32 image (o + 16) = some rva ∧ rva < image.length
  self : readU32 image (o + 20) = some o
  bounded : objectOffset ≤ maxSecondaryOffset

/-- The word before the vtable refers to the locator at `o`, and its first entry is in an
    executable section. -/
structure VtableOf (moduleBase : Nat) (image : List UInt8) (sections : List PeSection)
    (o vtableRva : Nat) : Prop where
  small : vtableRva < 2 ^ 32
  reference : ∃ r, 8 ∣ r ∧ vtableRva = r + 8 ∧ readU64 image r = some (moduleBase + o)
  entry : ∃ rva, readU64 image vtableRva = some (moduleBase + rva) ∧ rva < 2 ^ 32 ∧
    Executable sections rva

/-! ## Instructions -/

/-- The memory operand is `[base + displacement]`, with no index and not relative to `rip`. -/
structure Accesses (i : Instruction) (base : Register) (displacement : Nat) : Prop where
  base : i.memoryBase = base
  noIndex : i.memoryIndex = .none
  notIpRelative : i.isIpRelMemoryOperand = false
  displacement : i.memoryDisplacement64 = displacement

/-- `inc [base + d]`, or `add [base + d], 1`. -/
def Increments (i : Instruction) (base : Register) (d : Nat) : Prop :=
  (i.mnemonic = .inc ∨
    (i.mnemonic = .add ∧ 2 ≤ i.opCount ∧ i.op1Kind = .immediate ∧ i.immediate1 = 1)) ∧
  i.op0Kind = .memory ∧ Accesses i base d

/-- `movsd xmm, [base + d]`. -/
def LoadsDouble (i : Instruction) (base : Register) (d : Nat) : Prop :=
  i.mnemonic = .movsd ∧ i.op0Kind = .register ∧ i.op1Kind = .memory ∧ Accesses i base d

/-- `movsd [base + d], xmm`. -/
def StoresDouble (i : Instruction) (base : Register) (d : Nat) : Prop :=
  i.mnemonic = .movsd ∧ i.op0Kind = .memory ∧ i.op1Kind = .register ∧ Accesses i base d

/-- The instructions at these indices satisfy the guards of `analyze_scheduler_method`. -/
structure TripleAt (instructions : List Instruction) (fields : SchedulerFields) (base : Register)
    (load increment store : Nat) : Prop where
  named : base ≠ .none
  loadBefore : load < increment ∧ increment ≤ load + 48
  storeAfter : increment < store ∧ store ≤ increment + 8
  loads : ∃ i, instructions[load]? = some i ∧ LoadsDouble i base fields.deadlineFromSecondary
  increments : ∃ i, instructions[increment]? = some i ∧
    Increments i base fields.counterFromSecondary
  stores : ∃ i, instructions[store]? = some i ∧ StoresDouble i base fields.deadlineFromSecondary
  deadline : fields.deadlineFromSecondary ≤ maxFieldOffset ∧ 8 ∣ fields.deadlineFromSecondary
  counter : fields.counterFromSecondary ≤ maxFieldOffset

/-- The instructions read, count and write back these fields. -/
def Schedules (instructions : List Instruction) (fields : SchedulerFields) : Prop :=
  ∃ base load increment store, TripleAt instructions fields base load increment store

/-! ## Matches -/

/-- A secondary vtable, a method in one of its slots, and fields that the method schedules. -/
structure SchedulerMatch where
  secondary : VtableCandidate
  methodRva : Nat
  fields : SchedulerFields
  deriving DecidableEq, Repr

/-- The secondary vtable, the method, and the deadline and counter offsets. -/
def SchedulerMatch.value (m : SchedulerMatch) : Nat × Nat × Nat × Nat :=
  (m.secondary.vtableRva, m.methodRva, m.secondary.objectOffset + m.fields.deadlineFromSecondary,
    m.secondary.objectOffset + m.fields.counterFromSecondary)

/-- The match is one of the image. -/
structure MatchIn (decode : Decoder) (moduleBase : Nat) (image : List UInt8)
    (sections : List PeSection) (td : Nat) (m : SchedulerMatch) : Prop where
  parsed : parsePeSections image = .ok sections
  named : typeDescriptor image = .ok td
  candidate : ∃ o, (o, m.secondary.objectOffset) ∈ findCompleteObjectLocators image td ∧
    VtableOf moduleBase image sections o m.secondary.vtableRva
  secondary : m.secondary.objectOffset ≠ 0
  slot : ∃ index, index < maxVtableMethods ∧
    slotMethod moduleBase image sections m.secondary.vtableRva index = some m.methodRva
  triple : ∃ instructions, methodInstructions decode moduleBase image sections m.methodRva =
    some instructions ∧ Schedules instructions m.fields

end Recovery
end SteamInputLease
