import SteamInputLease.Gate.HidPrefix
import SteamInputLease.Lib.Program

/-!
# A thread of Steam among the detours

All detours, as one thread meets them. What a detour calls runs on the same thread and may call
detoured functions in its turn: `HidD_GetAttributes` of the payload's own probe does, and so does an
original `CreateFileW`. So behind each call of such code the environment either calls a detour or
returns. Only the thread-local `INTERNAL_HID_PROBE` is state; the counters, the handle table and
Windows answer as they like. Calls are nested no deeper than `n`, and a thread that would go on is
cut off there, as one is that reads a path past its end.
-/

namespace SteamInputLease
namespace Gate

open Lib

/-- `ERROR_NO_SUCH_DEVICE`. -/
def errorNoSuchDevice : UInt32 := 433

/-- `ERROR_DEVICE_NOT_CONNECTED`. -/
def errorDeviceNotConnected : Int := 1167

/-- `STATUS_DEVICE_NOT_CONNECTED`. -/
def statusDeviceNotConnected : Int := -1073741667

/-- `NtReadFile`, `NtWriteFile` and `NtDeviceIoControlFile`. -/
inductive IoFunction
  | readFile
  | writeFile
  | deviceIoControlFile
  deriving DecidableEq, Repr

/-- `NtCreateFile` and `NtOpenFile`. -/
inductive NtOpenFunction
  | createFile
  | openFile
  deriving DecidableEq, Repr

inductive XInputFunction
  | getState
  | getStateEx
  | getCapabilities
  | getCapabilitiesEx
  deriving DecidableEq, Repr

/-- A call of a detoured function, with the arguments the detour looks at. A pointer is its address,
    and null is `0`. -/
inductive Intercepted
  | createFileW (path : Option (List UInt16))
  | createFileA (path : Option (List UInt8))
  | createFile2 (path : Option (List UInt16))
  | ntOpen (function : NtOpenFunction) (file status : UInt64)
      (attributes : Option (Option UnicodeString))
  | io (function : IoFunction) (file event status : UInt64)
  | ntClose (handle : UInt64)
  | xInput (index : Fin 5) (function : XInputFunction)
  deriving DecidableEq, Repr

/-- What a function returns: a handle, which `NtCreateFile` and `NtOpenFile` leave in `*file`, and a
    status. -/
structure Returned where
  handle : UInt64
  status : Int
  deriving DecidableEq, Repr

inductive DetourCall
  /-- The thread is in Steam's code. -/
  | steam
  /-- It is back in the code that called the detour. -/
  | resumed (request : Intercepted) (result : Returned)
  /-- It is in the original function. -/
  | original (request : Intercepted)
  | hidDGetAttributes (handle : UInt64)
  /-- `blocking()`. -/
  | blocking
  | lookupHandle (handle : UInt64)
  | rememberHandle (handle : UInt64) (classification : HandleClass)
  | forgetHandle (handle : UInt64)
  /-- `HANDLE_CLOSE_BARRIER.read()`, and the drop of the guard. -/
  | enterClose
  | leaveClose
  | ntQueryObject (handle : UInt64)
  | setLastError (code : UInt32)
  | getFileType (handle : UInt64)
  | getLastError
  /-- `status.status` and `status.information`. -/
  | writeIoStatus (block : UInt64) (status : Int) (information : UInt64)
  | writeHandle (file handle : UInt64)
  | setEvent (event : UInt64)
  deriving DecidableEq, Repr

/-- What the code that the thread is in does next, and the answers to the other calls. -/
structure DetourAnswer where
  /-- It calls a detoured function; `none` where it returns. -/
  calls : Option Intercepted
  returned : Returned
  isHid : Bool
  blocking : Bool
  classification : HandleClass
  typeReply : Option TypeReply
  fileType : UInt32
  lastError : UInt32
  deriving DecidableEq, Repr

/-- A part of a detour, with `INTERNAL_HID_PROBE`; it fails where the thread is cut off. -/
abbrev Detouring := OptionT (StateT Bool (Program DetourCall DetourAnswer))

def issue (c : DetourCall) : Detouring DetourAnswer :=
  liftM (Program.ask c : Program DetourCall DetourAnswer DetourAnswer)

/-- Code that is not the payload's has the thread, until it returns. -/
def serve (detour : Intercepted → Detouring Returned) :
    Nat → DetourCall → Detouring DetourAnswer
  | 0, _ => failure
  | n + 1, c => do
    let a ← issue c
    match a.calls with
    | none => pure a
    | some request => do
      let result ← detour request
      serve detour n (.resumed request result)

/-- `ProbeGuard::enter`, and the drop of the guard behind `body`. -/
def probeGuard {α : Type} (body : Detouring α) : Detouring α := do
  let previous ← get
  set true
  let a ← body
  set previous
  pure a

section

variable (control : DetourCall → Detouring DetourAnswer)

/-! ## Classifying a handle -/

/-- The file types to which `HidD_GetAttributes` is not sent. -/
def probeRefuses (handle : UInt64) : Detouring Bool := do
  let _ ← issue (.setLastError errorSuccess)
  let a ← issue (.getFileType handle)
  if a.fileType = fileTypeDisk ∨ a.fileType = fileTypePipe then pure true
  else if a.fileType = fileTypeUnknown then do
    let last ← issue .getLastError
    pure (last.lastError != errorSuccess)
  else pure false

/-- `probe_file_handle`. -/
def probeFile (handle : UInt64) : Detouring HandleClass := do
  let refused ← probeRefuses handle
  if refused then pure .other
  else do
    let a ← probeGuard (control (.hidDGetAttributes handle))
    pure (if a.isHid then .hid else .other)

/-- `probe_handle`. -/
def probeHandle (handle : UInt64) : Detouring HandleClass := do
  let a ← issue (.ntQueryObject handle)
  if !isFileObject a.typeReply then pure .other else probeFile control handle

/-- `classify_handle`. -/
def classifyHandle (handle : UInt64) : Detouring HandleClass := do
  let a ← issue (.lookupHandle handle)
  if a.classification ≠ .unknown then pure a.classification
  else do
    let classification ← probeHandle control handle
    let _ ← issue (.rememberHandle handle classification)
    pure classification

/-- `should_deny`. -/
def shouldDeny (handle : UInt64) : Detouring Bool := do
  let a ← issue .blocking
  if !a.blocking then pure false
  else do
    let probing ← get
    if probing then pure false
    else do
      let classification ← classifyHandle control handle
      pure (classification == .hid)

/-! ## The detours -/

/-- The status block of a denied call. -/
def writeStatus (status : UInt64) : Detouring Unit :=
  if status ≠ 0 then do
    let _ ← issue (.writeIoStatus status statusDeviceNotConnected 0)
  else pure ()

/-- `denied_io`. -/
def deniedIo (status event : UInt64) : Detouring Returned := do
  writeStatus status
  if event ≠ 0 then do
    let _ ← issue (.setEvent event)
    pure ⟨0, statusDeviceNotConnected⟩
  else pure ⟨0, statusDeviceNotConnected⟩

/-- `nt_read_file_detour`, `nt_write_file_detour` and `nt_device_io_control_file_detour`. -/
def ioDetour (function : IoFunction) (file event status : UInt64) : Detouring Returned := do
  let deny ← shouldDeny control file
  if deny then deniedIo status event
  else do
    let a ← control (.original (.io function file event status))
    pure a.returned

/-- `hid && blocking()`. -/
def deniesOpen (hid : Bool) : Detouring Bool :=
  if hid then do
    let a ← issue .blocking
    pure a.blocking
  else pure false

/-- `if hid && opened { remember_handle(handle, HandleClass::Hid) }`. -/
def rememberOpened (hid opened : Bool) (handle : UInt64) : Detouring Unit :=
  if hid && opened then do
    let _ ← issue (.rememberHandle handle .hid)
  else pure ()

/-- What `create_file_w_detour`, `create_file_a_detour` and `create_file_2_detour` do, each with its
    recogniser. -/
def createDetour (request : Intercepted) (recognised : MayPanic Bool) : Detouring Returned :=
  match recognised with
  | .error _ => failure
  | .ok hid => do
    let deny ← deniesOpen hid
    if deny then do
      let _ ← issue (.setLastError errorNoSuchDevice)
      pure ⟨invalidHandleValue, 0⟩
    else do
      let a ← control (.original request)
      rememberOpened hid (a.returned.handle != invalidHandleValue) a.returned.handle
      pure a.returned

/-- `create_file_w_detour`. -/
def createFileWDetour (path : Option (List UInt16)) : Detouring Returned :=
  createDetour control (.createFileW path) (wideHasHidPrefix path)

/-- `create_file_a_detour`. -/
def createFileADetour (path : Option (List UInt8)) : Detouring Returned :=
  createDetour control (.createFileA path) (narrowHasHidPrefix path)

/-- `create_file_2_detour`. -/
def createFile2Detour (path : Option (List UInt16)) : Detouring Returned :=
  createDetour control (.createFile2 path) (wideHasHidPrefix path)

/-- `denied_open`. -/
def deniedOpen (file status : UInt64) : Detouring Returned :=
  if file ≠ 0 then do
    let _ ← issue (.writeHandle file invalidHandleValue)
    writeStatus status
    pure ⟨invalidHandleValue, statusDeviceNotConnected⟩
  else do
    writeStatus status
    pure ⟨0, statusDeviceNotConnected⟩

/-- `nt_create_file_detour` and `nt_open_file_detour`. -/
def ntOpenDetour (function : NtOpenFunction) (file status : UInt64)
    (attributes : Option (Option UnicodeString)) : Detouring Returned :=
  match nativeHasHidPrefix attributes with
  | .error _ => failure
  | .ok hid => do
    let deny ← deniesOpen hid
    if deny then deniedOpen file status
    else do
      let a ← control (.original (.ntOpen function file status attributes))
      rememberOpened hid (decide (0 ≤ a.returned.status) && file != 0) a.returned.handle
      pure a.returned

/-- `nt_close_detour`. -/
def ntCloseDetour (handle : UInt64) : Detouring Returned := do
  let _ ← issue .enterClose
  let _ ← issue (.forgetHandle handle)
  let a ← control (.original (.ntClose handle))
  let _ ← issue .leaveClose
  pure a.returned

/-- The detours of `xinput_detours!`. -/
def xInputDetour (index : Fin 5) (function : XInputFunction) : Detouring Returned := do
  let a ← issue .blocking
  if a.blocking then pure ⟨0, errorDeviceNotConnected⟩
  else do
    let a ← control (.original (.xInput index function))
    pure a.returned

/-- The detour of the function that is called. -/
def detourOf : Intercepted → Detouring Returned
  | .createFileW path => createFileWDetour control path
  | .createFileA path => createFileADetour control path
  | .createFile2 path => createFile2Detour control path
  | .ntOpen function file status attributes => ntOpenDetour control function file status attributes
  | .io function file event status => ioDetour control function file event status
  | .ntClose handle => ntCloseDetour control handle
  | .xInput index function => xInputDetour control index function

end

/-- A detoured function is called; `n` bounds what is nested in it. -/
def detourAt : Nat → Intercepted → Detouring Returned
  | 0, _ => failure
  | n + 1, request => detourOf (serve (detourAt n) n) request

/-- What a thread of Steam does with the detours in the way. -/
def steamThread (n : Nat) : Detouring DetourAnswer := serve (detourAt n) n .steam

/-! ## What a run shows -/

/-- A call of a detour: whether the thread was in a probe then, and the calls that were made for it,
    each with its last answer. -/
structure Frame where
  request : Intercepted
  probing : Bool
  own : List (DetourCall × DetourAnswer)
  deriving DecidableEq, Repr

/-- What a thread is in: a detour, or code that a detour called. -/
inductive Activity
  | detour (frame : Frame)
  | foreign (call : DetourCall)
  deriving DecidableEq, Repr

/-- Code that is not the payload's has the thread behind the call. -/
def DetourCall.foreign : DetourCall → Bool
  | .steam | .resumed _ _ | .original _ | .hidDGetAttributes _ => true
  | _ => false

def DetourCall.isProbe : DetourCall → Bool
  | .hidDGetAttributes _ => true
  | _ => false

def Activity.isProbe : Activity → Bool
  | .foreign call => call.isProbe
  | .detour _ => false

/-- A thread that is watched: what it is in, the innermost first, and the calls of detours that
    have returned. -/
structure Watch where
  stack : List Activity
  done : List (Frame × Returned)
  deriving DecidableEq, Repr

/-- A call is made. -/
def Watch.call (w : Watch) : DetourCall → Watch
  | .resumed _ result =>
    match w.stack with
    | .detour frame :: rest => { stack := rest, done := (frame, result) :: w.done }
    | _ => w
  | c => { w with stack := .foreign c :: w.stack }

/-- A call that was made for the detour the thread is in has its answer. -/
def Watch.note (w : Watch) (e : DetourCall × DetourAnswer) : Watch :=
  match w.stack with
  | .detour frame :: rest =>
    { w with stack := .detour { frame with own := frame.own ++ [e] } :: rest }
  | _ => w

/-- Foreign code returns. -/
def Watch.leave (w : Watch) (a : DetourAnswer) : Watch :=
  match w.stack with
  | .foreign c :: rest => { w with stack := rest }.note (c, a)
  | _ => w

/-- Foreign code calls a detour or returns. -/
def Watch.move (w : Watch) (a : DetourAnswer) : Watch :=
  match a.calls with
  | some request =>
    { w with stack := .detour ⟨request, w.stack.any Activity.isProbe, []⟩ :: w.stack }
  | none => w.leave a

def Watch.next (w : Watch) (e : DetourCall × DetourAnswer) : Watch :=
  if e.1.foreign then (w.call e.1).move e.2 else w.note e

/-- What a log shows of a thread that begins in Steam's code. -/
def watch (log : List (DetourCall × DetourAnswer)) : Watch := log.foldl Watch.next ⟨[], []⟩

/-! ## What a gated call is -/

def DetourCall.isOriginal : DetourCall → Bool
  | .original _ => true
  | _ => false

/-- What the code that called the detour can find of it besides its result. -/
def DetourCall.tells : DetourCall → Bool
  | .setLastError code => code != errorSuccess
  | .writeIoStatus _ _ _ | .writeHandle _ _ | .setEvent _ => true
  | _ => false

/-- The answer is one about a handle of a HID device, or about one of anything else. -/
def DetourCall.Fits (hid : Bool) : DetourCall → DetourAnswer → Prop
  | .lookupHandle _, a =>
    a.classification = .unknown ∨ a.classification = if hid then .hid else .other
  | .ntQueryObject _, a => hid = true → isFileObject a.typeReply = true
  | .getFileType _, a => hid = true → a.fileType ≠ fileTypeDisk ∧ a.fileType ≠ fileTypePipe
  | .getLastError, a => hid = true → a.lastError = errorSuccess
  | .hidDGetAttributes _, a => a.isHid = hid
  | _, _ => True

def Intercepted.isIo : Intercepted → Bool
  | .io _ _ _ _ => true
  | _ => false

/-- What a denied call returns. -/
def Intercepted.denial : Intercepted → Returned
  | .createFileW _ | .createFileA _ | .createFile2 _ => ⟨invalidHandleValue, 0⟩
  | .ntOpen _ file _ _ => ⟨if file = 0 then 0 else invalidHandleValue, statusDeviceNotConnected⟩
  | .io _ _ _ _ | .ntClose _ => ⟨0, statusDeviceNotConnected⟩
  | .xInput _ _ => ⟨0, errorDeviceNotConnected⟩

/-- What a denied call tells. -/
def Intercepted.told : Intercepted → List DetourCall
  | .createFileW _ | .createFileA _ | .createFile2 _ => [.setLastError errorNoSuchDevice]
  | .ntOpen _ file status _ =>
    (if file = 0 then [] else [.writeHandle file invalidHandleValue]) ++
      if status = 0 then [] else [.writeIoStatus status statusDeviceNotConnected 0]
  | .io _ _ event status =>
    (if status = 0 then [] else [.writeIoStatus status statusDeviceNotConnected 0]) ++
      if event = 0 then [] else [.setEvent event]
  | .ntClose _ | .xInput _ _ => []

/-- The handle an open call has opened. -/
def Intercepted.opened (r : Returned) : Intercepted → Option UInt64
  | .createFileW _ | .createFileA _ | .createFile2 _ =>
    if r.handle = invalidHandleValue then none else some r.handle
  | .ntOpen _ file _ _ => if 0 ≤ r.status ∧ file ≠ 0 then some r.handle else none
  | _ => none

/-- The call is about a HID device: an open by its path, an I/O call by what is found of its
    handle. XInput is about nothing else, and `NtClose` is not judged. -/
def Frame.About (f : Frame) (hid : Bool) : Prop :=
  match f.request with
  | .createFileW path | .createFile2 path => wideHasHidPrefix path = .ok hid
  | .createFileA path => narrowHasHidPrefix path = .ok hid
  | .ntOpen _ _ _ attributes => nativeHasHidPrefix attributes = .ok hid
  | .io _ _ _ _ => ∀ e ∈ f.own, e.1.Fits hid e.2
  | .ntClose _ => hid = false
  | .xInput _ _ => hid = true

/-- The calls of originals. -/
def Frame.originals (f : Frame) : List (DetourCall × DetourAnswer) :=
  f.own.filter (·.1.isOriginal)

/-- `blocking()` was found true. -/
def Frame.sawBlock (f : Frame) : Bool := f.own.any fun e => e.1 == .blocking && e.2.blocking

/-- The call was let through or denied as it should be. -/
structure Gated (f : Frame) (r : Returned) : Prop where
  /-- Let through once, as it came, and with what came back; or not at all. -/
  through : f.originals = [] ∨ ∃ a, f.originals = [(.original f.request, a)] ∧ r = a.returned
  denial : f.originals = [] → r = f.request.denial
  told : (f.own.map Prod.fst).filter DetourCall.tells =
    if f.originals = [] then f.request.told else []
  decided : ∀ hid, f.About hid → (f.originals = [] ↔
    hid = true ∧ f.sawBlock = true ∧ (f.request.isIo = true → f.probing = false))
  /-- I/O of a probe is not looked into. -/
  apart : f.request.isIo = true → f.probing = true →
    ∀ e ∈ f.own, e.1 = .blocking ∨ e.1 = .original f.request
  /-- An opened device is remembered, and nothing is remembered as what it is not. -/
  remembered : ∀ hid, f.About hid →
    (hid = true → f.originals ≠ [] → ∀ handle, f.request.opened r = some handle →
      .rememberHandle handle .hid ∈ f.own.map Prod.fst) ∧
    ∀ handle c, .rememberHandle handle c ∈ f.own.map Prod.fst →
      c = if hid then .hid else .other
  /-- A closed handle is forgotten before it is closed, both under the barrier. -/
  closed : ∀ handle, f.request = .ntClose handle → f.own.map Prod.fst =
    [.enterClose, .forgetHandle handle, .original f.request, .leaveClose]

/-- The calls that have returned were gated, and the thread is in one probe at most. -/
structure ThreadGated (w : Watch) : Prop where
  gated : ∀ e ∈ w.done, Gated e.1 e.2
  oneProbe : w.stack.countP Activity.isProbe ≤ 1

end Gate
end SteamInputLease
