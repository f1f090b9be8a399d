import SteamInputLease.Ffi.Message
import SteamInputLease.Launch.Run

/-!
# Exports that hand out a handle

`sil_client_create`, `sil_client_acquire` and `sil_client_acquire_pass_through`, over the memory
they write to. A pointer is its address, and null is `0`. What they call in `steam-input-lease`
returns, fails or panics, and nothing more is assumed of it.
-/

namespace SteamInputLease
namespace Ffi

open Lib
open Launch (Status fromUtf16Lossy)

def silOk : Int := 0
def silError : Int := 1
def silPanic : Int := 2

/-- `SilStatus`. -/
structure SilStatus where
  capabilities : UInt16
  reserved : UInt16
  leaseCount : UInt32
  hidHandleCount : UInt32
  lastRevokedHandleCount : UInt32
  deriving DecidableEq, Repr

/-- `From<Status>`. -/
def SilStatus.ofStatus (value : Status) : SilStatus where
  capabilities := value.capabilities
  reserved := 0
  leaseCount := value.leaseCount
  hidHandleCount := value.hidHandleCount
  lastRevokedHandleCount := value.lastRevokedHandleCount

/-! ## Memory -/

/-- The boxes that were made into handles. The allocator gives out no address twice. -/
structure Handles where
  next : Nat
  live : List Nat
  positive : 0 < next
  below : ∀ p ∈ live, p < next

/-- `Box::into_raw(Box::new(..))`. -/
def Handles.intoRaw (h : Handles) : Handles where
  next := h.next + 1
  live := h.next :: h.live
  positive := Nat.succ_pos _
  below := by
    intro p hp
    rcases List.mem_cons.mp hp with rfl | hp
    · exact Nat.lt_succ_self _
    · exact Nat.lt_succ_of_lt (h.below p hp)

/-- What the exports write to. -/
structure Memory where
  handles : Handles
  /-- The handle behind an output pointer. -/
  handleAt : Nat → Nat
  statusAt : Nat → SilStatus
  /-- `LAST_ERROR`. -/
  lastError : List Char

/-- How an operation ends that does not return. -/
inductive Failure
  | failed (message : String)
  | panicked
  deriving DecidableEq, Repr

/-- The closures that `ffi_call` is given. -/
abbrev Operation (α : Type) := ExceptT Failure (StateM Memory) α

/-- `unsafe { *output = handle }`. -/
def setHandle (output handle : Nat) : Operation Unit :=
  modify fun m => { m with handleAt := Function.update m.handleAt output handle }

/-- `unsafe { *status = value.into() }`. -/
def setStatus (status : Nat) (value : Status) : Operation Unit :=
  modify fun m => { m with statusAt := Function.update m.statusAt status (.ofStatus value) }

/-- `*output = Box::into_raw(Box::new(value))`. -/
def giveHandle (output : Nat) : Operation Unit := do
  let m ← get
  set { m with handles := m.handles.intoRaw }
  setHandle output m.handles.next

/-- `set_last_error`. -/
def setLastError (message : String) : StateM Memory Unit :=
  modify fun m => { m with lastError := replaceNul message.toList }

/-- What `ffi_call` returns and what it says, by how the closure ended. -/
def outcome : Except Failure Unit → Int × String
  | .ok () => (silOk, "")
  | .error (.failed message) => (silError, message)
  | .error .panicked => (silPanic, "Rust panic crossed the Steam Input Lease ABI boundary")

/-- `ffi_call`. -/
def ffiCall (operation : Operation Unit) : StateM Memory Int := do
  let result ← operation.run
  setLastError (outcome result).2
  pure (outcome result).1

/-! ## Arguments -/

/-- The rounds of `read_utf16` from `length`, with `n` to go. -/
def utf16Length (pointer : Nat → UInt16) : Nat → Nat → Nat
  | 0, length => length
  | n + 1, length => if pointer length = 0 then length else utf16Length pointer n (length + 1)

/-- `read_utf16`, of a pointer that is not null. -/
def readUtf16 (pointer : Nat → UInt16) : Operation (List UInt16) :=
  let length := utf16Length pointer 32768 0
  if length = 32768 then throw (.failed "UTF-16 string exceeds 32767 code units")
  else pure ((List.range length).map pointer)

/-- `SilClientOptions`. `none` is a null pointer. -/
structure SilClientOptions where
  targetName : Option (Nat → UInt16)
  payloadPath : Option (Nat → UInt16)
  connectTimeoutMs : Nat
  allowInjection : Nat

/-- `ClientOptions`. -/
structure ClientOptions where
  targetName : List Char
  payloadPath : List UInt16
  /-- In milliseconds. -/
  connectTimeout : Nat
  allowInjection : Bool

/-- What the exports call: `Err` and its text, or a panic. -/
structure Wrapped where
  /-- `ClientOptions::default()`. -/
  defaultOptions : Except Failure ClientOptions
  /-- `Client::new`. -/
  newClient : ClientOptions → Except Failure Unit
  /-- `Client::acquire`: the status of the lease. -/
  acquire : Nat → Except Failure Status
  /-- `Client::acquire_pass_through`: the status of the claim. -/
  acquirePassThrough : Nat → Except Failure Status

/-- A call into `steam-input-lease`. -/
def wrapped {α : Type} (result : Except Failure α) : Operation α := ExceptT.mk (pure result)

/-- `if condition { return Err(message.into()) }`. -/
def failIf (condition : Prop) [Decidable condition] (message : String) : Operation Unit :=
  if condition then throw (.failed message) else pure ()

/-- `client_ref`. -/
def clientRef (client : Nat) : Operation Unit := failIf (client = 0) "client handle was null"

/-- `if !pointer.is_null() { .. read_utf16(pointer)? .. }`. -/
def readUnlessNull : Option (Nat → UInt16) → Operation (Option (List UInt16))
  | none => pure none
  | some pointer => do
    let units ← readUtf16 pointer
    pure (some units)

/-- `resolved`, after the options of the caller. `none` is a null `options`. -/
def resolveOptions (resolved : ClientOptions) : Option SilClientOptions → Operation ClientOptions
  | none => pure resolved
  | some options => do
    let targetName ← readUnlessNull options.targetName
    let payloadPath ← readUnlessNull options.payloadPath
    pure
      { targetName := (targetName.map fromUtf16Lossy).getD resolved.targetName
        payloadPath := payloadPath.getD resolved.payloadPath
        connectTimeout :=
          if options.connectTimeoutMs ≠ 0 then options.connectTimeoutMs else resolved.connectTimeout
        allowInjection := options.allowInjection ≠ 0 }

/-! ## Exports -/

section

variable (w : Wrapped)

/-- `sil_client_create`. -/
def silClientCreate (options : Option SilClientOptions) (output : Nat) : StateM Memory Int :=
  ffiCall do
    failIf (output = 0) "client output pointer was null"
    setHandle output 0
    let resolved ← wrapped w.defaultOptions
    let resolved ← resolveOptions resolved options
    wrapped (w.newClient resolved)
    giveHandle output

/-- `sil_client_acquire`. -/
def silClientAcquire (client lease status : Nat) : StateM Memory Int :=
  ffiCall do
    failIf (lease = 0 ∨ status = 0) "lease or status output pointer was null"
    setHandle lease 0
    clientRef client
    let value ← wrapped (w.acquire client)
    setStatus status value
    giveHandle lease

/-- `sil_client_acquire_pass_through`. -/
def silClientAcquirePassThrough (client claim status : Nat) : StateM Memory Int :=
  ffiCall do
    failIf (claim = 0) "claim output pointer was null"
    setHandle claim 0
    failIf (status = 0) "status output pointer was null"
    clientRef client
    let value ← wrapped (w.acquirePassThrough client)
    setStatus status value
    giveHandle claim

/-- A call of one of the three, but for its handle output. -/
inductive HandleCall
  | create (options : Option SilClientOptions)
  | acquire (client status : Nat)
  | acquirePassThrough (client status : Nat)

def HandleCall.run (output : Nat) : HandleCall → StateM Memory Int
  | .create options => silClientCreate w options output
  | .acquire client status => silClientAcquire w client output status
  | .acquirePassThrough client status => silClientAcquirePassThrough w client output status

end

end Ffi
end SteamInputLease
