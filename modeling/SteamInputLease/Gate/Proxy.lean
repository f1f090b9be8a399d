import SteamInputLease.Gate.Hooks
import SteamInputLease.Lib.System

/-!
# The bootstrap block of the proxy

`initialize_forwarding`, call by call, and the calls of the proxy's exports by Steam, in any
order. The table has one slot for each export.
-/

namespace SteamInputLease
namespace Gate

open Lib

/-- `Vector`. -/
inductive ProxyVector
  | injected
  | xinput14
  | dinput8
  | unknown
  deriving DecidableEq, Repr

/-- The exports, each with the static its target is cached in. -/
inductive ProxyExport
  | xinputGetState
  | xinputGetCapabilities
  | xinputSetState
  | xinputBattery
  | xinputKeystroke
  | xinputAudio
  | xinputEnable
  | xinputStateEx
  | xinputWaitGuide
  | xinputCancelGuide
  | xinputPowerOff
  | xinputCapsEx
  | dinput8Create
  | dinput8CanUnload
  | dinput8GetClass
  | dinput8Register
  | dinput8Unregister
  | dinput8JoystickFormat
  deriving DecidableEq, Repr

/-- `$gate`. -/
def ProxyExport.gated : ProxyExport → Bool
  | .xinputGetState | .xinputGetCapabilities | .xinputStateEx | .xinputCapsEx => true
  | _ => false

/-- What an export returns instead of calling its target. -/
inductive Fallback
  /-- `ERROR_DEVICE_NOT_CONNECTED`. -/
  | deviceNotConnected
  /-- `E_FAIL`. -/
  | fail
  | null
  | nothing
  deriving DecidableEq, Repr

/-- `$fallback`. -/
def ProxyExport.fallback : ProxyExport → Fallback
  | .dinput8Create | .dinput8CanUnload | .dinput8GetClass | .dinput8Register
  | .dinput8Unregister => .fail
  | .dinput8JoystickFormat => .null
  | .xinputEnable => .nothing
  | _ => .deviceNotConnected

/-- What the exports and the worker share. -/
structure Forwarding where
  /-- `FORWARDING_READY`. -/
  ready : Bool
  /-- The stores of `true` into it. -/
  releases : Nat
  slots : ProxyExport → UInt64
  /-- `REAL_XINPUT` and `REAL_DINPUT8`, by the vector that uses them. -/
  realModule : ProxyVector → UInt64
  /-- `SELF_MODULE`. -/
  selfModule : UInt64
  /-- The paths given to `LoadLibraryExW`. -/
  loaded : List (List UInt16)
  /-- The questions to `GetProcAddress` and what it answered. -/
  resolved : List (UInt64 × Export × UInt64)
  /-- `mark_exports_resolved`. -/
  missing : Nat × Nat

/-- Before the worker starts; `DllMain` has recorded the image, or not. -/
def Forwarding.initial (selfModule : UInt64) : Forwarding :=
  { ready := false, releases := 0, slots := fun _ => 0, realModule := fun _ => 0
    selfModule := selfModule, loaded := [], resolved := [], missing := (0, 0) }

/-- What `initialize_forwarding` calls. -/
inductive ProxyCall
  | getSystemDirectory (size : Nat)
  | loadLibraryEx (path : List UInt16)
  | freeLibrary (module : UInt64)
  | loadSelfModule
  | getProcAddress (module : UInt64) (name : Export)
  | storeModule (vector : ProxyVector) (module : UInt64)
  | store (slot : ProxyExport) (address : UInt64)
  | markExportsResolved (required optional : Nat)
  | storeReady
  deriving DecidableEq, Repr

/-- An address, or a length with what is in the buffer. -/
structure ProxyAnswer where
  address : UInt64
  length : Nat
  buffer : List UInt16
  deriving DecidableEq, Repr

/-- What a call does when it is answered. -/
def Forwarding.act (s : Forwarding) : ProxyCall → ProxyAnswer → Option Forwarding
  | .getSystemDirectory _, _ => some s
  | .freeLibrary _, _ => some s
  | .loadLibraryEx path, _ => some { s with loaded := s.loaded ++ [path] }
  | .loadSelfModule, a => if a.address = s.selfModule then some s else none
  | .getProcAddress module name, a =>
    some { s with resolved := s.resolved ++ [(module, name, a.address)] }
  | .storeModule vector module, _ =>
    some { s with
      realModule := fun other => if other = vector then module else s.realModule other }
  | .store slot address, _ =>
    some { s with slots := fun other => if other = slot then address else s.slots other }
  | .markExportsResolved required optional, _ => some { s with missing := (required, optional) }
  | .storeReady, _ => some { s with ready := true, releases := s.releases + 1 }

/-- A part of `initialize_forwarding`. -/
abbrev Initializing := Program ProxyCall ProxyAnswer

/-! ## The worker -/

/-- `is_self`. -/
def isSelf (module : UInt64) : Initializing Bool := do
  let recorded ← Program.ask .loadSelfModule
  pure (recorded.address == 0 || recorded.address == module)

/-- `name.encode_utf16()`, of a name in ASCII. -/
def encodeAscii (name : String) : List UInt16 := name.toList.map fun c => UInt16.ofNat c.toNat

/-- `load_system32_module`; 0 is null. -/
def loadSystem32Module (name : String) : Initializing UInt64 := do
  let directory ← Program.ask (.getSystemDirectory 260)
  if directory.length = 0 ∨ 260 ≤ directory.length then pure 0
  else do
    let module ← Program.ask (.loadLibraryEx
      (directory.buffer.take directory.length ++ [0x5c] ++ encodeAscii name ++ [0]))
    if module.address = 0 then pure 0
    else do
      let itself ← isSelf module.address
      if itself then do
        let _ ← Program.ask (.freeLibrary module.address)
        pure 0
      else pure module.address

/-- `cache_export`. -/
def cacheExport (slot : ProxyExport) (module : UInt64) (name : Export) : Initializing Bool := do
  let function ← Program.ask (.getProcAddress module name)
  if function.address = 0 then pure false
  else do
    let _ ← Program.ask (.store slot function.address)
    pure true

/-- `cache_exports`: how many entries failed. -/
def cacheExports (module : UInt64) : List (ProxyExport × Export) → Initializing Nat
  | [] => pure 0
  | (slot, name) :: rest => do
    let cached ← cacheExport slot module name
    let missing ← cacheExports module rest
    pure (if cached then missing else missing + 1)

/-- `cache_required`. -/
def cacheRequired (module : UInt64) (required optional : List (ProxyExport × Export)) :
    Initializing Bool := do
  let missingRequired ← cacheExports module required
  let missingOptional ← cacheExports module optional
  let _ ← Program.ask (.markExportsResolved missingRequired missingOptional)
  pure (missingRequired == 0)

/-- The entries a vector cannot do without. -/
def ProxyVector.required : ProxyVector → List (ProxyExport × Export)
  | .xinput14 =>
    [(.xinputGetState, .name "XInputGetState"),
      (.xinputGetCapabilities, .name "XInputGetCapabilities"),
      (.xinputSetState, .name "XInputSetState")]
  | .dinput8 => [(.dinput8Create, .name "DirectInput8Create")]
  | .injected | .unknown => []

/-- The entries that may stay null. -/
def ProxyVector.optional : ProxyVector → List (ProxyExport × Export)
  | .xinput14 =>
    [(.xinputBattery, .name "XInputGetBatteryInformation"),
      (.xinputKeystroke, .name "XInputGetKeystroke"),
      (.xinputAudio, .name "XInputGetAudioDeviceIds"), (.xinputEnable, .name "XInputEnable"),
      (.xinputStateEx, .ordinal 100), (.xinputWaitGuide, .ordinal 101),
      (.xinputCancelGuide, .ordinal 102), (.xinputPowerOff, .ordinal 103),
      (.xinputCapsEx, .ordinal 108)]
  | .dinput8 =>
    [(.dinput8CanUnload, .name "DllCanUnloadNow"), (.dinput8GetClass, .name "DllGetClassObject"),
      (.dinput8Register, .name "DllRegisterServer"),
      (.dinput8Unregister, .name "DllUnregisterServer"),
      (.dinput8JoystickFormat, .name "GetdfDIJoystick")]
  | .injected | .unknown => []

/-- The table of a vector. -/
def ProxyVector.table (vector : ProxyVector) : List (ProxyExport × Export) :=
  vector.required ++ vector.optional

/-- The branch of a proxy vector, with the name of its real module. -/
def resolveVector (vector : ProxyVector) (name : String) : Initializing Bool := do
  let module ← loadSystem32Module name
  if module = 0 then pure false
  else do
    let _ ← Program.ask (.storeModule vector module)
    cacheRequired module vector.required vector.optional

/-- The branches by vector. -/
def resolveTargets : ProxyVector → Initializing Bool
  | .xinput14 => resolveVector .xinput14 "XInput1_4.dll"
  | .dinput8 => resolveVector .dinput8 "dinput8.dll"
  | .injected | .unknown => pure false

/-- The closure of `initialize_forwarding`. -/
def initializeForwarding (vector : ProxyVector) : Initializing Bool := do
  let initialized ← resolveTargets vector
  if !initialized then pure false
  else do
    let _ ← Program.ask .storeReady
    pure true

/-! ## The exports -/

/-- What a call of an export does next, or how it ended. -/
inductive ExportPc
  | readReady
  | readBlocking
  | readSlot
  | call (target : UInt64)
  /-- It has called its target. -/
  | forwarded (target : UInt64)
  /-- It has returned its fallback. -/
  | fellBack (value : Fallback)
  deriving DecidableEq, Repr

/-- A call of an export by Steam. -/
structure ExportCall where
  slot : ProxyExport
  pc : ExportPc
  /-- What it read of `FORWARDING_READY`. -/
  ready : Option Bool
  /-- What `blocking()` returned to it. -/
  blocked : Option Bool
  deriving DecidableEq, Repr

def ExportCall.start (slot : ProxyExport) : ExportCall :=
  { slot := slot, pc := .readReady, ready := none, blocked := none }

/-- The body of `proxy_export!`, and of `XInputEnable`; `blocking` is what the check returns. -/
def exportStep (f : Forwarding) (c : ExportCall) (blocking : Bool) : Option ExportCall :=
  match c.pc with
  | .readReady =>
    if !f.ready then some { c with ready := some false, pc := .fellBack c.slot.fallback }
    else some { c with
      ready := some true
      pc := if c.slot.gated then .readBlocking else .readSlot }
  | .readBlocking =>
    some { c with
      blocked := some blocking
      pc := if blocking then .fellBack c.slot.fallback else .readSlot }
  | .readSlot =>
    if f.slots c.slot = 0 then some { c with pc := .fellBack c.slot.fallback }
    else some { c with pc := .call (f.slots c.slot) }
  | .call target => some { c with pc := .forwarded target }
  | .forwarded _ | .fellBack _ => none

/-! ## The system -/

structure ProxyState where
  forwarding : Forwarding
  /-- `FORWARDING_INITIALIZATION`. -/
  initialization : Option Bool
  /-- What is left of the closure that fills it. -/
  initializer : Option (Initializing Bool)
  /-- The runs of that closure. -/
  initializations : Nat
  calls : List ExportCall
  /-- `BOOTSTRAP_FALLBACK_CALLS`. -/
  bootstrapFallbackCalls : Nat

inductive ProxyLabel
  /-- `initialize_forwarding` is called. -/
  | request
  /-- The closure's next call is answered. -/
  | answer (a : ProxyAnswer)
  /-- The closure has returned. -/
  | finish
  /-- Steam calls an export. -/
  | enter (slot : ProxyExport)
  /-- The next step of a call. -/
  | advance (i : Nat) (blocking : Bool)
  deriving DecidableEq, Repr

def proxyStep (vector : ProxyVector) (s : ProxyState) : ProxyLabel → Option ProxyState
  | .request =>
    match s.initialization, s.initializer with
    -- another caller waits for the closure, or gets what it returned
    | some _, _ => some s
    | none, some _ => none
    | none, none =>
      some { s with
        initializer := some (initializeForwarding vector)
        initializations := s.initializations + 1 }
  | .answer a =>
    match s.initializer with
    | some (.call c next) =>
      (s.forwarding.act c a).map fun f => { s with forwarding := f, initializer := some (next a) }
    | _ => none
  | .finish =>
    match s.initializer with
    | some (.ret initialized) =>
      some { s with initialization := some initialized, initializer := none }
    | _ => none
  | .enter slot => some { s with calls := s.calls ++ [.start slot] }
  | .advance i blocking =>
    (s.calls[i]?).bind fun c => (exportStep s.forwarding c blocking).map fun c' =>
      { s with
        calls := s.calls.set i c'
        bootstrapFallbackCalls := s.bootstrapFallbackCalls +
          if c.pc = .readReady ∧ s.forwarding.ready = false then 1 else 0 }

/-- The proxy of a vector, in the image at an address. -/
def proxy (vector : ProxyVector) (image : UInt64) : System ProxyState ProxyLabel where
  init s := ∃ selfModule, (selfModule = 0 ∨ selfModule = image) ∧
    s = { forwarding := .initial selfModule, initialization := none, initializer := none
          initializations := 0, calls := [], bootstrapFallbackCalls := 0 }
  step := proxyStep vector

/-- A step of Steam's. -/
def ProxyLabel.bySteam : ProxyLabel → Bool
  | .enter _ | .advance _ _ => true
  | _ => false

/-- An address `GetProcAddress` answered for this name in a module that is not this image. -/
def Forwarding.Resolved (s : Forwarding) (image : UInt64) (name : Export) (address : UInt64) :
    Prop := ∃ module, module ≠ image ∧ (module, name, address) ∈ s.resolved

/-- The bootstrap block is safe. -/
structure BootstrapSafe (vector : ProxyVector) (image : UInt64) (s : ProxyState) : Prop where
  /-- Before the release every call is at its start or has fallen back. -/
  blocked : s.forwarding.ready = false → ∀ c ∈ s.calls,
    c.pc = .readReady ∨ c.pc = .fellBack c.slot.fallback
  early : ∀ c ∈ s.calls, c.ready = some false → c.pc = .fellBack c.slot.fallback
  /-- Steam's threads load nothing, resolve nothing and store nothing. -/
  bystander : ∀ e s', e.bySteam = true → (proxy vector image).step s e = some s' →
    s'.forwarding = s.forwarding
  once : s.forwarding.releases ≤ 1
  complete : s.forwarding.ready = true →
    ∀ entry ∈ vector.required, s.forwarding.slots entry.1 ≠ 0
  /-- Each slot has what was answered for its own export. -/
  own : s.forwarding.ready = true →
    ∀ entry ∈ vector.table, s.forwarding.Resolved image entry.2 (s.forwarding.slots entry.1)
  frozen : s.forwarding.ready = true → ∀ es s', (proxy vector image).exec s es = some s' →
    s'.forwarding = s.forwarding
  /-- The closure runs once, and what it returned stays. -/
  unrepeated : s.initializations ≤ 1
  cached : ∀ b, s.initialization = some b → ∀ es s', (proxy vector image).exec s es = some s' →
    s'.initialization = some b ∧ s'.forwarding = s.forwarding
  /-- A call goes to the slot's target, which is not of this image. -/
  target : ∀ c ∈ s.calls, ∀ target, c.pc = .call target ∨ c.pc = .forwarded target →
    target ≠ 0 ∧ target = s.forwarding.slots c.slot ∧
      ∃ name, (c.slot, name) ∈ vector.table ∧ s.forwarding.Resolved image name target
  gated : ∀ c ∈ s.calls, c.slot.gated = true → c.blocked = some true →
    c.pc = .fellBack c.slot.fallback

end Gate
end SteamInputLease
