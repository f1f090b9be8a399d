import SteamInputLease.Lib.Bytes

/-!
# The wire protocol (`steam-input-lease-core`)

Fixed-width requests and responses, and what one `ReadFile` on the message-mode pipe makes of a
message of any length. The command and the result travel as numbers, so a malformed message is
a value the handler has to reject and not one that cannot be built.
-/

namespace SteamInputLease
namespace Protocol

open Lib

/-- `PROTOCOL_MAGIC`, "SIGT". -/
def protocolMagic : UInt32 := 0x53494754

/-- `PROTOCOL_VERSION`. -/
def protocolVersion : UInt16 := 1

/-- `CAPABILITY_INTERNAL_RECOVERY`, `1 << 0`. -/
def capabilityInternalRecovery : UInt16 := 1

/-- `CAPABILITY_PASS_THROUGH`, `1 << 1`. -/
def capabilityPassThrough : UInt16 := 2

/-- `STATE_PASS_THROUGH_ACTIVE`, `1 << 2`. -/
def statePassThroughActive : UInt16 := 4

/-- The commands of the pipe server. -/
inductive Command
  | acquireLease
  | queryStatus
  | releaseLease
  | acquirePassThrough
  | releasePassThrough
  deriving DecidableEq, Repr

/-- `command as u16`. -/
def Command.code : Command → UInt16
  | .acquireLease => 1
  | .queryStatus => 2
  | .releaseLease => 3
  | .acquirePassThrough => 4
  | .releasePassThrough => 5

/-- The results a response can carry. -/
inductive ResultCode
  | ok
  | invalidRequest
  | hookInstallFailed
  deriving DecidableEq, Repr

/-- `result as u32`. -/
def ResultCode.code : ResultCode → UInt32
  | .ok => 0
  | .invalidRequest => 1
  | .hookInstallFailed => 2

/-- The eight-byte request header. -/
structure Request where
  magic : UInt32
  version : UInt16
  command : UInt16
  deriving DecidableEq, Repr

/-- `Request::new`. -/
def Request.new (c : Command) : Request :=
  { magic := protocolMagic, version := protocolVersion, command := c.code }

/-- `size_of::<Request>()`. -/
def requestSize : Nat := 8

/-- The `#[repr(C)]` bytes of a request. -/
def Request.toBytes (r : Request) : List UInt8 :=
  toLe 4 r.magic.toNat ++ toLe 2 r.version.toNat ++ toLe 2 r.command.toNat

/-- The request that eight bytes are, read in place. -/
def Request.ofBytes (b : List UInt8) : Request where
  magic := UInt32.ofNat (leNat (b.take 4))
  version := UInt16.ofNat (leNat ((b.drop 4).take 2))
  command := UInt16.ofNat (leNat ((b.drop 6).take 2))

/-- A request survives the wire. -/
theorem Request.ofBytes_toBytes (r : Request) : Request.ofBytes r.toBytes = r := by
  obtain ⟨m, v, c⟩ := r
  have hm : leNat (toLe 4 m.toNat) = m.toNat := leNat_toLe_of_lt m.toNat_lt
  have hv : leNat (toLe 2 v.toNat) = v.toNat := leNat_toLe_of_lt v.toNat_lt
  have hc : leNat (toLe 2 c.toNat) = c.toNat := leNat_toLe_of_lt c.toNat_lt
  simp [Request.ofBytes, Request.toBytes, List.drop_append, hm, hv, hc,
    List.take_of_length_le, List.drop_of_length_le]

/-- The 24-byte response. -/
structure Response where
  magic : UInt32
  version : UInt16
  capabilities : UInt16
  result : UInt32
  leaseCount : UInt32
  hidHandleCount : UInt32
  lastRevokedHandleCount : UInt32
  deriving DecidableEq, Repr

/-- `Response::is_valid`. -/
def Response.isValid (r : Response) : Bool :=
  r.magic == protocolMagic && r.version == protocolVersion && r.result == ResultCode.ok.code

/-- `Response::has_internal_recovery`. -/
def Response.hasInternalRecovery (r : Response) : Bool :=
  r.capabilities &&& capabilityInternalRecovery != 0

/-! ## One read of the server end -/

/-- What `ReadFile` into a zeroed `Request` reports: its return value, the transferred count
    and the buffer. -/
structure ReadFile where
  read : Bool
  transferred : Nat
  request : Request
  deriving DecidableEq, Repr

/-- One `ReadFile` on the message-mode pipe. `none` is a broken pipe. A message longer than the
    buffer fills it and fails with `ERROR_MORE_DATA`; a shorter one leaves the rest zero. -/
def readFile : Option (List UInt8) → ReadFile
  | none => { read := false, transferred := 0, request := Request.ofBytes [] }
  | some m =>
    { read := m.length ≤ requestSize
      transferred := min m.length requestSize
      request := Request.ofBytes (m.take requestSize) }

/-- The header check of the first read: `transferred >= size_of::<Request>()`. -/
def ReadFile.valid (r : ReadFile) : Bool :=
  r.read && decide (requestSize ≤ r.transferred) && r.request.magic == protocolMagic
    && r.request.version == protocolVersion

/-- The check of the second read, an explicit release with `command`. -/
def ReadFile.explicit (r : ReadFile) (command : Command) : Bool :=
  r.read && r.transferred == requestSize && r.request.magic == protocolMagic
    && r.request.version == protocolVersion && r.request.command == command.code

/-- What the server reads when a client sends `Request::new`. -/
theorem readFile_new (c : Command) :
    readFile (some (Request.new c).toBytes) =
      { read := true, transferred := requestSize, request := Request.new c } := by
  have hl : (Request.new c).toBytes.length = requestSize := by
    simp [Request.toBytes, requestSize]
  have ht : (Request.new c).toBytes.take requestSize = (Request.new c).toBytes :=
    List.take_of_length_le hl.le
  simp [readFile, hl, ht, Request.ofBytes_toBytes]

end Protocol
end SteamInputLease
