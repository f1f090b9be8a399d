import SteamInputLease.Gate.Kernel

/-!
# One revocation sweep, call by call

`discover_and_revoke_hid_handles` with everything Windows answers to it: for each entry of the
enumerated handle table, whether it could be duplicated, what the two comparisons and the queries
about the pinned duplicate said, and the status of closing the original.
-/

namespace SteamInputLease
namespace Gate

/-! ## Classifying the duplicate -/

/-- `u8::to_ascii_lowercase`. -/
def toAsciiLowercase (b : UInt8) : UInt8 := if 0x41 ≤ b && b ≤ 0x5a then b + 32 else b

/-- `wide_ascii_eq`: each unit is cut to its low byte. -/
def wideAsciiEq (left right : List UInt16) : Bool :=
  left.length == right.length &&
    (left.zip right).all fun p =>
      toAsciiLowercase p.1.toUInt8 == toAsciiLowercase p.2.toUInt8

/-- `OBJECT_TYPE_INFORMATION` as `NtQueryObject` leaves it: its name, with the length in bytes.
    `none` is a null buffer. -/
structure TypeReply where
  status : Int
  length : Nat
  buffer : Option (List UInt16)
  deriving DecidableEq, Repr

/-- `"File"`. -/
def fileTypeName : List UInt16 := [0x46, 0x69, 0x6c, 0x65]

/-- `is_file_object`, from the reply; `none` where `NT_QUERY_OBJECT` is null. -/
def isFileObject : Option TypeReply → Bool
  | none => false
  | some reply =>
    if reply.status < 0 then false
    else
      match reply.buffer with
      | none => false
      | some units =>
        if reply.length ≠ 8 then false else wideAsciiEq (units.take 4) fileTypeName

/-- `FILE_TYPE_UNKNOWN`. -/
def fileTypeUnknown : UInt32 := 0

/-- `FILE_TYPE_DISK`. -/
def fileTypeDisk : UInt32 := 1

/-- `FILE_TYPE_PIPE`. -/
def fileTypePipe : UInt32 := 3

/-- `ERROR_SUCCESS`. -/
def errorSuccess : UInt32 := 0

/-- `probe_file_handle`, from the answers of `GetFileType`, `GetLastError` and
    `HidD_GetAttributes`. -/
def probeFileHandle (fileType lastError : UInt32) (isHid : Bool) : HandleClass :=
  if fileType = fileTypeDisk ∨ fileType = fileTypePipe ∨
      (fileType = fileTypeUnknown ∧ lastError ≠ errorSuccess) then .other
  else if isHid then .hid
  else .other

/-! ## The sweep -/

/-- One entry of the handle table, and the answers about it. -/
structure SweepAttempt where
  handle : UInt64
  objectTypeIndex : UInt32
  /-- `DuplicateHandle` did not fail, and the value it gave. -/
  duplicated : Bool
  duplicateValue : UInt64
  /-- `CompareObjectHandles`, right after the duplicate was made. -/
  sameFirst : Bool
  typeReply : Option TypeReply
  fileType : UInt32
  lastError : UInt32
  hidAttributes : Bool
  /-- `CompareObjectHandles`, after the classification. -/
  sameSecond : Bool
  /-- What `NtClose` of the original returns. -/
  closeStatus : Int
  /-- What the pinned object is, which the sweep can only ask about. -/
  object : ObjectKind
  deriving DecidableEq, Repr

/-- The duplicate, if there is one. -/
def SweepAttempt.duplicate (a : SweepAttempt) : Option UInt64 :=
  if !a.duplicated || a.duplicateValue == 0 || a.duplicateValue == invalidHandleValue then none
  else some a.duplicateValue

/-- What the sweep does to handles. -/
inductive SweepEvent
  | duplicated (handle duplicate : UInt64)
  /-- `probe_file_handle`. -/
  | probed (duplicate : UInt64)
  /-- `CancelIoEx`. -/
  | cancelled (handle : UInt64)
  | closedOriginal (handle : UInt64) (status : Int)
  | closedDuplicate (duplicate : UInt64)
  deriving DecidableEq, Repr

structure Sweep where
  fileTypeIndex : Option UInt32
  table : HandleTable
  /-- `LAST_REVOKED_HANDLE_COUNT`. -/
  lastRevoked : Int
  log : List SweepEvent

def Sweep.tell (s : Sweep) (e : SweepEvent) : Sweep := { s with log := s.log ++ [e] }

/-- The type check: the index of File to go on with, or `none` where the entry is skipped. -/
def Sweep.fileCheck (s : Sweep) (a : SweepAttempt) : Option UInt32 :=
  match s.fileTypeIndex with
  | some index => if a.objectTypeIndex ≠ index then none else some index
  | none => if isFileObject a.typeReply then some a.objectTypeIndex else none

/-- The section in which a HID handle is revoked. -/
def Sweep.revoke (s : Sweep) (a : SweepAttempt) : Sweep :=
  let s := s.tell (.cancelled a.handle)
  let s := { s with table := s.table.forgetHandle a.handle }
  let s := s.tell (.closedOriginal a.handle a.closeStatus)
  if 0 ≤ a.closeStatus then { s with lastRevoked := i32 (s.lastRevoked + 1) } else s

/-- The second section under the close barrier. -/
def Sweep.settle (s : Sweep) (a : SweepAttempt) (classification : HandleClass) : Sweep :=
  if a.sameSecond then
    let s := { s with table := s.table.rememberHandle a.handle classification }
    if classification = .hid then s.revoke a else s
  else s

/-- What is done to a pinned object while its duplicate is open. -/
def Sweep.examine (s : Sweep) (a : SweepAttempt) (duplicate : UInt64) : Sweep :=
  match s.fileCheck a with
  | none => s
  | some index =>
    let s := { s with fileTypeIndex := some index }
    let s := s.tell (.probed duplicate)
    s.settle a (probeFileHandle a.fileType a.lastError a.hidAttributes)

/-- One round of the loop. -/
def sweepEntry (s : Sweep) (a : SweepAttempt) : Sweep :=
  match a.duplicate with
  | none => s
  | some duplicate =>
    let s := s.tell (.duplicated a.handle duplicate)
    let s := if a.sameFirst then s.examine a duplicate else s
    s.tell (.closedDuplicate duplicate)

/-- The loop. -/
def sweepLoop : List SweepAttempt → Sweep → Sweep
  | [], s => s
  | a :: rest, s => sweepLoop rest (sweepEntry s a)

/-- Before the loop: the count of the sweep before is cleared. -/
def Sweep.start (table : HandleTable) : Sweep :=
  { fileTypeIndex := none, table := table, lastRevoked := 0, log := [] }

/-- `discover_and_revoke_hid_handles`; `none` where neither enumeration succeeds. -/
def discoverAndRevokeHidHandles (table : HandleTable) : Option (List SweepAttempt) → Sweep
  | none => .start table
  | some entries => sweepLoop entries (.start table)

/-! ## What the sweep relies on -/

/-- `HANDLE_QUERY_LIMIT`. -/
def handleQueryLimit : Nat := 256 * 1024 * 1024

/-- `size_of::<ProcessHandleEntry>()` and `size_of::<SystemHandleEntryEx>()`. -/
def handleEntrySize : Nat := 40

/-- The object is pinned: it was duplicated, and the handle still named it then. -/
def SweepAttempt.pinned (a : SweepAttempt) : Bool := a.duplicate.isSome && a.sameFirst

/-- An ASCII letter in lower case. -/
def lowercaseUnit (u : UInt16) : UInt16 := if 0x41 ≤ u && u ≤ 0x5a then u + 32 else u

/-- Windows tells what the pinned object is. `NtQueryObject` names a file `File`; it has ASCII
    names for all types, and none of the others is called so in either case. A HID device answers
    the probe, and `GetFileType` takes it for what it is: no disk file, no pipe. -/
structure SweepAttempt.Answered (a : SweepAttempt) : Prop where
  file : a.object ≠ .notFile →
    ∃ status, 0 ≤ status ∧ a.typeReply = some ⟨status, 8, some fileTypeName⟩
  notFile : a.object = .notFile → ∀ reply units, a.typeReply = some reply →
    reply.buffer = some units → reply.length = 8 →
      (∀ u ∈ units.take 4, u < 0x80) ∧
        (units.take 4).map lowercaseUnit ≠ fileTypeName.map lowercaseUnit
  hid : a.hidAttributes = true ↔ a.object = .hid
  fileType : a.object = .hid → a.fileType ≠ fileTypeDisk ∧ a.fileType ≠ fileTypePipe ∧
    (a.fileType = fileTypeUnknown → a.lastError = errorSuccess)

/-! ## What the sweep shows -/

def SweepEvent.isDuplicated : SweepEvent → Bool
  | .duplicated _ _ => true
  | _ => false

def SweepEvent.isClosedDuplicate : SweepEvent → Bool
  | .closedDuplicate _ => true
  | _ => false

/-- An original handle that was closed. -/
def SweepEvent.isRevoked : SweepEvent → Bool
  | .closedOriginal _ status => decide (0 ≤ status)
  | _ => false

/-- No slot of the table holds the handle. -/
def HandleTable.Gone (t : HandleTable) (handle : UInt64) : Prop :=
  ∀ i, i < handleTableSize → tombstone < (t.slots i).key → (t.slots i).key ≠ handle

/-- What one round enters into the log, and the table it leaves. -/
structure EntryShows (a : SweepAttempt) (new : List SweepEvent) (table : HandleTable) : Prop where
  /-- A duplicate is closed once, as the last thing. -/
  balanced : (a.duplicate = none ∧ new = []) ∨ ∃ d middle, a.duplicate = some d ∧
    new = .duplicated a.handle d :: middle ++ [.closedDuplicate d] ∧
      ∀ e ∈ middle, e.isDuplicated = false ∧ e.isClosedDuplicate = false
  probed : ∀ d, .probed d ∈ new → a.duplicate = some d ∧ a.object ≠ .notFile
  closed : ∀ h status, .closedOriginal h status ∈ new →
    h = a.handle ∧ a.sameFirst = true ∧ a.sameSecond = true ∧ a.object = .hid ∧ table.Gone h
  /-- No HID handle is passed over. -/
  revoked : a.duplicate.isSome = true → a.sameFirst = true → a.sameSecond = true →
    a.object = .hid → .closedOriginal a.handle a.closeStatus ∈ new

/-- The log of a sweep is one round for each entry, in the order of the entries. A round shows
    what it should, with the table that the sweep leaves behind its entry. -/
def SweepShows (table : HandleTable) (entries : List SweepAttempt) : Prop :=
  ∃ rounds : List (List SweepEvent),
    (discoverAndRevokeHidHandles table (some entries)).log = rounds.flatten ∧
    rounds.length = entries.length ∧
    ∀ i a new, entries[i]? = some a → rounds[i]? = some new →
      EntryShows a new (discoverAndRevokeHidHandles table (some (entries.take (i + 1)))).table

end Gate
end SteamInputLease
