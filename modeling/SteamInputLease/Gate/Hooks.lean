import SteamInputLease.Lib.Program
import Mathlib.Data.List.FinRange

/-!
# Installing the hooks

`queue_hook`, `install_xinput_module` and `install_hooks` as a program that calls the loader,
MinHook and the atomics. Each detour has one slot its original is published in. Windows and
MinHook answer as they like; a created hook has a trampoline, and only `MH_ApplyQueued` enables
hooks, of those that are queued.
-/

namespace SteamInputLease
namespace Gate

open Lib

/-- The detours, each with the static its original is published in. -/
inductive Detour
  | createFileW
  | createFileA
  | createFile2
  | ntReadFile
  | ntWriteFile
  | ntDeviceIoControlFile
  | ntClose
  | ntCreateFile
  | ntOpenFile
  | xinputGetState (index : Fin 5)
  | xinputGetStateEx (index : Fin 5)
  | xinputGetCapabilities (index : Fin 5)
  | xinputGetCapabilitiesEx (index : Fin 5)
  deriving DecidableEq, Repr

/-- The statics of the native queries. -/
inductive NativeQuery
  | systemInformation
  | object
  | informationProcess
  deriving DecidableEq, Repr

/-- What `GetProcAddress` is asked for. -/
inductive Export
  | name (text : String)
  | ordinal (number : Nat)
  deriving DecidableEq, Repr

/-- What `install_hooks` calls. -/
inductive HookCall
  | initializeMinHook
  | uninitializeMinHook
  | getModuleHandle (name : String)
  | getProcAddress (module : UInt64) (procedure : Export)
  | loadSystem32Module (name : String)
  | createHook (target : UInt64) (detour : Detour)
  | queueEnableHook (target : UInt64)
  | applyQueued
  | store (slot : Detour) (address : UInt64)
  | storeQuery (query : NativeQuery) (address : UInt64)
  | loadQuery (query : NativeQuery)
  deriving DecidableEq, Repr

/-- An answer: whether the status is `MH_OK`, an address or a null pointer, and the targets that
    are enabled behind a call that failed on its way. -/
structure HookAnswer where
  ok : Bool
  address : UInt64
  enabled : List UInt64
  deriving DecidableEq, Repr

/-- A hook MinHook knows. -/
structure Hook where
  target : UInt64
  detour : Detour
  queued : Bool
  enabled : Bool
  deriving DecidableEq, Repr

/-- What the calls act on. -/
structure Hooking where
  /-- `MH_Initialize` has succeeded. -/
  initialized : Bool
  /-- The calls of `MH_Uninitialize`. -/
  uninitialized : Nat
  hooks : List Hook
  slots : Detour → UInt64
  queries : NativeQuery → UInt64

def Hooking.initial : Hooking :=
  { initialized := false, uninitialized := 0, hooks := [], slots := fun _ => 0
    queries := fun _ => 0 }

/-- What a call does when it is answered. -/
def Hooking.act (s : Hooking) : HookCall → HookAnswer → Option Hooking
  | .initializeMinHook, a => some { s with initialized := s.initialized || a.ok }
  | .uninitializeMinHook, a =>
    let left := s.hooks.map fun h => { h with enabled := h.enabled && a.enabled.contains h.target }
    some { s with
      uninitialized := s.uninitialized + 1
      hooks := if a.ok then [] else left }
  | .createHook target detour, a =>
    if !a.ok then some s
    else if a.address = 0 then none
    else some { s with
      hooks := s.hooks ++ [{ target := target, detour := detour, queued := false, enabled := false }] }
  | .queueEnableHook target, a =>
    if !a.ok then some s
    else some { s with
      hooks := s.hooks.map fun h => { h with queued := h.queued || h.target == target } }
  | .applyQueued, a =>
    some { s with
      hooks := s.hooks.map fun h =>
        { h with enabled := h.enabled || (h.queued && (a.ok || a.enabled.contains h.target)) } }
  | .store slot address, _ =>
    some { s with slots := fun other => if other = slot then address else s.slots other }
  | .storeQuery query address, _ =>
    some { s with queries := fun other => if other = query then address else s.queries other }
  | .loadQuery query, a => if a.address = s.queries query then some s else none
  | .getModuleHandle _, _ => some s
  | .getProcAddress _ _, _ => some s
  | .loadSystem32Module _, _ => some s

/-- A part of `install_hooks`. -/
abbrev Installing := Program HookCall HookAnswer

/-! ## The source -/

/-- `procedure`. -/
def procedure (module : UInt64) (name : Export) : Installing UInt64 := do
  let function ← Program.ask (.getProcAddress module name)
  pure function.address

/-- `queue_hook`, for a detour and its slot. -/
def queueHook (target : UInt64) (detour : Detour) (required : Bool) : Installing Bool :=
  if target = 0 then pure (!required)
  else do
    let created ← Program.ask (.createHook target detour)
    if !created.ok then pure (!required)
    else do
      let _ ← Program.ask (.store detour created.address)
      let queued ← Program.ask (.queueEnableHook target)
      pure queued.ok

/-- The hooks of one XInput module. -/
def xinputHooks (index : Fin 5) : List (Export × Detour) :=
  [(.name "XInputGetState", .xinputGetState index), (.ordinal 100, .xinputGetStateEx index),
    (.name "XInputGetCapabilities", .xinputGetCapabilities index),
    (.ordinal 108, .xinputGetCapabilitiesEx index)]

/-- The optional hooks of a module, one after the other. -/
def queueOptional (module : UInt64) : List (Export × Detour) → Installing Unit
  | [] => pure ()
  | (name, detour) :: rest => do
    let target ← procedure module name
    let _ ← queueHook target detour false
    queueOptional module rest

/-- `install_xinput_module`. -/
def installXinputModule (index : Fin 5) (name : String) : Installing Unit := do
  let module ← Program.ask (.loadSystem32Module name)
  if module.address = 0 then pure ()
  else queueOptional module.address (xinputHooks index)

/-- The XInput modules, in their order. -/
def xinputModules : List (Fin 5 × String) :=
  [(0, "xinput1_4.dll"), (1, "xinput1_3.dll"), (2, "xinput1_2.dll"), (3, "xinput1_1.dll"),
    (4, "xinput9_1_0.dll")]

/-- The loop over the XInput modules. -/
def installXinputModules : List (Fin 5 × String) → Installing Unit
  | [] => pure ()
  | (index, name) :: rest => do
    installXinputModule index name
    installXinputModules rest

/-- The two modules of the required hooks. -/
inductive Library
  | kernel32
  | ntdll
  deriving DecidableEq, Repr

/-- The required hooks, in their order. -/
def requiredHooks : List (Library × String × Detour) :=
  [(.kernel32, "CreateFileW", .createFileW), (.kernel32, "CreateFileA", .createFileA),
    (.kernel32, "CreateFile2", .createFile2), (.ntdll, "NtReadFile", .ntReadFile),
    (.ntdll, "NtWriteFile", .ntWriteFile),
    (.ntdll, "NtDeviceIoControlFile", .ntDeviceIoControlFile), (.ntdll, "NtClose", .ntClose),
    (.ntdll, "NtCreateFile", .ntCreateFile), (.ntdll, "NtOpenFile", .ntOpenFile)]

/-- The required hooks, each with `success &= queue_hook(…)`. -/
def queueRequired (module : Library → UInt64) :
    List (Library × String × Detour) → Bool → Installing Bool
  | [], success => pure success
  | (library, name, detour) :: rest, success => do
    let target ← procedure (module library) (.name name)
    let queued ← queueHook target detour true
    queueRequired module rest (success && queued)

/-- `MH_Uninitialize(); return false`. -/
def abandon : Installing Bool := do
  let _ ← Program.ask .uninitializeMinHook
  pure false

/-- The native queries are resolved; `false` where a needed one is missing. -/
def resolveQueries (ntdll : UInt64) : Installing Bool := do
  let information ← procedure ntdll (.name "NtQuerySystemInformation")
  let _ ← Program.ask (.storeQuery .systemInformation information)
  let object ← procedure ntdll (.name "NtQueryObject")
  let _ ← Program.ask (.storeQuery .object object)
  let process ← procedure ntdll (.name "NtQueryInformationProcess")
  let _ ← Program.ask (.storeQuery .informationProcess process)
  let stored ← Program.ask (.loadQuery .systemInformation)
  if stored.address = 0 then pure false
  else do
    let stored ← Program.ask (.loadQuery .object)
    pure (decide (stored.address ≠ 0))

/-- The XInput hooks, and `MH_ApplyQueued`. -/
def applyHooks : Installing Bool := do
  installXinputModules xinputModules
  let applied ← Program.ask .applyQueued
  if !applied.ok then abandon else pure true

/-- `install_hooks`. -/
def installHooks : Installing Bool := do
  let initialized ← Program.ask .initializeMinHook
  if !initialized.ok then pure false
  else do
    let kernel32 ← Program.ask (.getModuleHandle "kernel32.dll")
    let ntdll ← Program.ask (.getModuleHandle "ntdll.dll")
    if kernel32.address = 0 ∨ ntdll.address = 0 then abandon
    else do
      let resolved ← resolveQueries ntdll.address
      if !resolved then abandon
      else do
        let module := fun library => match library with
          | Library.kernel32 => kernel32.address
          | Library.ntdll => ntdll.address
        let success ← queueRequired module requiredHooks true
        if !success then abandon else applyHooks

end Gate
end SteamInputLease
