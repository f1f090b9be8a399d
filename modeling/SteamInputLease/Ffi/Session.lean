import Mathlib.Data.List.Nodup
import SteamInputLease.Ffi.Handles
import SteamInputLease.Launch.Run
import SteamInputLease.Lib.System

/-!
# Sessions over the C ABI

All exports that take or give a handle, over the boxes the library has handed out, and a caller
that uses them in any order. To follow a handle that is not a live box of its kind is undefined
behaviour, and `none`. The caller keeps to the documented contract, of which it knows only what it
can see: the codes that came back, and the handles in its outputs.
-/

namespace SteamInputLease
namespace Ffi

open Lib
open Launch (ReleaseOutcome Status)
open Recovery (RescanResult)

/-- What a box holds: `SilClient`, `SilLease` or `SilPassThrough`. -/
inductive Kind
  | client
  | lease
  | passThrough
  deriving DecidableEq, Repr

/-- `SilReleaseOutcome`. -/
structure SilReleaseOutcome where
  status : SilStatus
  recovery : UInt32
  reserved : UInt32
  rescan : RescanResult
  recoveryMessage : List UInt8
  deriving DecidableEq, Repr

/-- `SIL_RECOVERY_MESSAGE_CAPACITY`. -/
def recoveryMessageCapacity : Nat := 256

/-- `SilReleaseOutcome::default()`. -/
def SilReleaseOutcome.default : SilReleaseOutcome where
  status := ⟨0, 0, 0, 0, 0⟩
  recovery := 0
  reserved := 0
  rescan := ⟨0, 0, 0⟩
  recoveryMessage := List.replicate recoveryMessageCapacity 0

/-- `WrappedRun`, with the text of the error for a failed handshake. -/
structure WrappedRun where
  exitCode : UInt32
  release : Except String ReleaseOutcome

/-- `SIL_RECOVERY_UNAVAILABLE` and its reason. -/
def SilReleaseOutcome.unavailable (outcome : SilReleaseOutcome) (reason : String) :
    MayPanic SilReleaseOutcome := do
  let message ← writeFixedUtf8 outcome.recoveryMessage reason.toList
  pure { outcome with recovery := 3, recoveryMessage := message }

/-- `From<ReleaseOutcome> for SilReleaseOutcome`. -/
def SilReleaseOutcome.ofOutcome (value : ReleaseOutcome) : MayPanic SilReleaseOutcome :=
  let outcome := { SilReleaseOutcome.default with status := .ofStatus value.status }
  match value.recovery with
  | .notRequired => pure outcome
  | .scheduled => pure { outcome with recovery := 1 }
  | .completed result => pure { outcome with recovery := 2, rescan := result }
  | .unavailable error => outcome.unavailable error.display

/-- What `sil_client_run_wrapped` makes of the handshake. -/
def SilReleaseOutcome.ofRelease : Except String ReleaseOutcome → MayPanic SilReleaseOutcome
  | .ok value => SilReleaseOutcome.ofOutcome value
  | .error error => SilReleaseOutcome.default.unavailable error

/-! ## The library behind the ABI -/

/-- What the exports call in `steam-input-lease`, by the handle they were given. -/
structure Library extends Wrapped where
  ensurePayload : Nat → Except Failure Status
  status : Nat → Except Failure Status
  rescan : Nat → Except Failure RescanResult
  checkRecovery : Nat → Except Failure Unit
  /-- `Client::run_wrapped`, of the units of the command. -/
  runWrapped : Nat → List (List UInt16) → Except Failure WrappedRun
  /-- `Lease::release` and `PassThrough::release`. -/
  release : Nat → Except Failure ReleaseOutcome
  releasePassThrough : Nat → Except Failure Status

/-- What the exports read and write. -/
structure Abi where
  memory : Memory
  /-- What was boxed at an address that was given out. -/
  kindOf : Nat → Kind
  outcomeAt : Nat → SilReleaseOutcome
  rescanAt : Nat → RescanResult
  exitCodeAt : Nat → UInt32

/-- The live boxes and what they hold. -/
def Abi.boxes (abi : Abi) : List (Nat × Kind) :=
  abi.memory.handles.live.map fun handle => (handle, abi.kindOf handle)

/-- `Box::from_raw`, and the drop of the box. -/
def Handles.fromRaw (h : Handles) (handle : Nat) : Handles where
  next := h.next
  live := h.live.erase handle
  positive := h.positive
  below p hp := h.below p (List.mem_of_mem_erase hp)

/-- A part of an export. -/
abbrev AbiState := StateT Abi Option

/-- The closures that `ffi_call` is given. -/
abbrev AbiOperation (α : Type) := ExceptT Failure AbiState α

/-- A closure over the memory that `Ffi.Operation` knows. -/
def onMemory {α : Type} (x : Operation α) : AbiOperation α := ExceptT.mk fun abi =>
  some (((x.run).run abi.memory).1, { abi with memory := ((x.run).run abi.memory).2 })

/-- The handle is followed. -/
def follow (handle : Nat) (kind : Kind) : AbiState Unit := fun abi =>
  if (handle, kind) ∈ abi.boxes then some ((), abi) else none

/-- The box is taken back. -/
def fromRaw (handle : Nat) (kind : Kind) : AbiState Unit := fun abi =>
  if (handle, kind) ∈ abi.boxes then
    some ((), { abi with memory := { abi.memory with
      handles := abi.memory.handles.fromRaw handle } })
  else none

/-- `ffi_call`. -/
def abiCall (operation : AbiOperation Unit) : AbiState Int := do
  let result ← operation.run
  modify fun abi => { abi with memory := ((setLastError (outcome result).2).run abi.memory).2 }
  pure (outcome result).1

/-- `client_ref`. -/
def clientOf (client : Nat) : AbiOperation Unit := do
  onMemory (clientRef client)
  liftM (follow client .client)

/-- A step of Rust that may panic. -/
def mayPanic {α : Type} : MayPanic α → AbiOperation α
  | .ok a => pure a
  | .error _ => throw .panicked

def setOutcome (output : Nat) (value : SilReleaseOutcome) : AbiOperation Unit :=
  modify fun abi => { abi with outcomeAt := Function.update abi.outcomeAt output value }

def setRescan (output : Nat) (value : RescanResult) : AbiOperation Unit :=
  modify fun abi => { abi with rescanAt := Function.update abi.rescanAt output value }

def setExitCode (output : Nat) (value : UInt32) : AbiOperation Unit :=
  modify fun abi => { abi with exitCodeAt := Function.update abi.exitCodeAt output value }

/-! ## Exports -/

/-- An export of `Ffi.Handles`, whose handle is boxed as `kind`. -/
def granting (kind : Kind) (x : StateM Memory Int) : AbiState Int := fun abi =>
  some ((x.run abi.memory).1, { abi with
    memory := (x.run abi.memory).2
    kindOf := Function.update abi.kindOf abi.memory.handles.next kind })

/-- The client is followed, unless it is null. -/
def followUnlessNull (client : Nat) : AbiState Unit :=
  if client = 0 then pure () else follow client .client

/-- A client is named by the call. Where another argument is null the export returns before it
    follows the client; the contract asks for a live one there too. -/
def naming (client : Nat) (x : AbiState Int) : AbiState Int := do
  followUnlessNull client
  x

/-- `sil_client_ensure_payload` and `sil_client_status`. -/
def statusCall (client status : Nat) (result : Except Failure Status) : AbiState Int :=
  abiCall do
    onMemory (failIf (status = 0) "status output pointer was null")
    clientOf client
    let value ← onMemory (wrapped result)
    onMemory (setStatus status value)

/-- `read_utf16` of an argument. -/
def readArgument : Option (Nat → UInt16) → Operation (List UInt16)
  | none => throw (.failed "required UTF-16 string pointer was null")
  | some pointer => readUtf16 pointer

/-- The write of the optional `release` output. -/
def reportRelease (output : Nat) (release : Except String ReleaseOutcome) : AbiOperation Unit :=
  if output = 0 then pure ()
  else do
    let value ← mayPanic (SilReleaseOutcome.ofRelease release)
    setOutcome output value

section

variable (l : Library)

/-- `sil_client_destroy`, `sil_lease_destroy` and `sil_pass_through_destroy`. -/
def silDestroy (handle : Nat) (kind : Kind) : AbiState Unit :=
  if handle = 0 then pure () else fromRaw handle kind

/-- `sil_client_rescan`. -/
def silClientRescan (client result : Nat) : AbiState Int :=
  abiCall do
    onMemory (failIf (result = 0) "rescan output pointer was null")
    clientOf client
    let value ← onMemory (wrapped (l.rescan client))
    setRescan result value

/-- `sil_client_check_recovery`. -/
def silClientCheckRecovery (client : Nat) : AbiState Int :=
  abiCall do
    clientOf client
    onMemory (wrapped (l.checkRecovery client))

/-- `sil_client_run_wrapped`. `none` is a null `argv`. -/
def silClientRunWrapped (client : Nat) (argv : Option (List (Option (Nat → UInt16))))
    (exitCode release : Nat) : AbiState Int :=
  abiCall do
    onMemory (failIf (argv.getD [] = [] ∨ exitCode = 0)
      "wrapped argv or exit-code output was invalid")
    let arguments ← onMemory ((argv.getD []).mapM readArgument)
    clientOf client
    let value ← onMemory (wrapped (l.runWrapped client arguments))
    setExitCode exitCode value.exitCode
    reportRelease release value.release

/-- `sil_lease_release`. -/
def silLeaseRelease (lease output : Nat) : AbiState Int :=
  abiCall do
    onMemory (failIf (lease = 0) "lease handle was null")
    liftM (fromRaw lease .lease)
    onMemory (failIf (output = 0)
      "outcome output pointer was null; the lease was closed without a report")
    let value ← onMemory (wrapped (l.release lease))
    let value ← mayPanic (SilReleaseOutcome.ofOutcome value)
    setOutcome output value

/-- `sil_pass_through_release`. -/
def silPassThroughRelease (claim status : Nat) : AbiState Int :=
  abiCall do
    onMemory (failIf (claim = 0) "claim pointer was null")
    liftM (fromRaw claim .passThrough)
    onMemory (failIf (status = 0) "status output pointer was null")
    let value ← onMemory (wrapped (l.releasePassThrough claim))
    onMemory (setStatus status value)

end

/-! ## The caller -/

/-- A call of an export. -/
inductive AbiCall
  | create (options : Option SilClientOptions) (output : Nat)
  | acquire (client lease status : Nat)
  | acquirePassThrough (client claim status : Nat)
  | ensurePayload (client status : Nat)
  | status (client status : Nat)
  | rescan (client result : Nat)
  | checkRecovery (client : Nat)
  | runWrapped (client : Nat) (argv : Option (List (Option (Nat → UInt16))))
      (exitCode release : Nat)
  | leaseRelease (lease outcome : Nat)
  | passThroughRelease (claim status : Nat)
  | destroy (handle : Nat) (kind : Kind)

/-- The call, and its code; `none` for an export that returns nothing. -/
def AbiCall.run (l : Library) : AbiCall → AbiState (Option Int)
  | .create options output => some <$> granting .client (silClientCreate l.toWrapped options output)
  | .acquire client lease output =>
    some <$> naming client (granting .lease (silClientAcquire l.toWrapped client lease output))
  | .acquirePassThrough client claim output =>
    some <$> naming client
      (granting .passThrough (silClientAcquirePassThrough l.toWrapped client claim output))
  | .ensurePayload client output => some <$> statusCall client output (l.ensurePayload client)
  | .status client output => some <$> statusCall client output (l.status client)
  | .rescan client result => some <$> silClientRescan l client result
  | .checkRecovery client => some <$> silClientCheckRecovery l client
  | .runWrapped client argv exitCode release =>
    some <$> silClientRunWrapped l client argv exitCode release
  | .leaseRelease lease outcome => some <$> silLeaseRelease l lease outcome
  | .passThroughRelease claim output => some <$> silPassThroughRelease l claim output
  | .destroy handle kind => do
    silDestroy handle kind
    pure none

/-- The client a call names. -/
def AbiCall.client : AbiCall → Option Nat
  | .acquire client _ _ | .acquirePassThrough client _ _ | .ensurePayload client _
  | .status client _ | .rescan client _ | .checkRecovery client | .runWrapped client _ _ _ =>
    some client
  | _ => none

/-- The handle a call consumes, whatever it returns. -/
def AbiCall.consumes : AbiCall → Option (Nat × Kind)
  | .leaseRelease lease _ => some (lease, .lease)
  | .passThroughRelease claim _ => some (claim, .passThrough)
  | .destroy handle kind => some (handle, kind)
  | _ => none

/-- The output in which a call that succeeds leaves a handle. -/
def AbiCall.produces : AbiCall → Option (Nat × Kind)
  | .create _ output => some (output, .client)
  | .acquire _ lease _ => some (lease, .lease)
  | .acquirePassThrough _ claim _ => some (claim, .passThrough)
  | _ => none

/-- The contract: a handle is null or one that is owned. -/
def AbiCall.allowed (owned : List (Nat × Kind)) (call : AbiCall) : Bool :=
  call.client.all (fun client => client == 0 || owned.contains (client, .client)) &&
    call.consumes.all fun handle => handle.1 == 0 || owned.contains handle

/-- What the caller owns behind a call that returned `code`, as far as it can see. -/
def AbiCall.owns (call : AbiCall) (owned : List (Nat × Kind)) (code : Option Int)
    (abi : Abi) : List (Nat × Kind) :=
  match call.consumes with
  | some handle => owned.erase handle
  | none =>
    match call.produces with
    | some (output, kind) =>
      if code = some silOk then (abi.memory.handleAt output, kind) :: owned else owned
    | none => owned

/-- The library and its caller, or undefined behaviour. -/
inductive Session
  | defined (abi : Abi) (owned : List (Nat × Kind))
  | undefined

/-- A caller that keeps to the contract. The label is its call, and how the library behind the
    export behaves. -/
def abiSystem : System Session (AbiCall × Library) where
  init s := ∃ abi, s = .defined abi [] ∧ abi.memory.handles.live = []
  step
    | .undefined, _ => none
    | .defined abi owned, (call, l) =>
      if call.allowed owned then
        match call.run l abi with
        | none => some .undefined
        | some (code, abi') => some (.defined abi' (call.owns owned code abi'))
      else none

/-! ## What a failed call writes -/

/-- Nothing is written but null into the handle output. -/
structure Cleared (output : Option Nat) (before after : Memory) : Prop where
  status : after.statusAt = before.statusAt
  handle : ∀ p, after.handleAt p = before.handleAt p ∨ output = some p ∧ after.handleAt p = 0

structure Unwritten (output : Option Nat) (before after : Abi) : Prop where
  memory : Cleared output before.memory after.memory
  outcome : after.outcomeAt = before.outcomeAt
  rescan : after.rescanAt = before.rescanAt
  exitCode : after.exitCodeAt = before.exitCodeAt

/-- What a call with a code leaves behind: its outputs only where it succeeded, and a message that
    is a C string, and empty where it succeeded. -/
structure Reports (output : Option Nat) (before : Abi) (code : Int) (after : Abi) : Prop where
  failed : code ≠ silOk → Unwritten output before after
  terminated : '\x00' ∉ after.memory.lastError
  succeeded : code = silOk → after.memory.lastError = []

end Ffi
end SteamInputLease
