import SteamInputLease.Gate.HandleTable
import SteamInputLease.Launch.Environment
import SteamInputLease.Lib.Bytes
import SteamInputLease.Lib.Custody

/-!
# `server_thread`: the control pipe's descriptor and its accept loop

From `build_control_pipe_descriptor` on, as a program that calls Windows, which answers as it
likes. The loop has no end of its own, so it is run for a number of rounds, and `none` is a server
that still listens then. What the thread must give back is in `serverCustody`: the token, the
string of a SID, the descriptor, the pipes and the handles of the workers.
-/

namespace SteamInputLease
namespace Gate

open Lib
open Launch (fromUtf16Lossy)

/-- `SID_STRING_MAX_CHARS`. -/
def sidStringMaxChars : Nat := 512

/-- `TOKEN_INFORMATION_MAX_BYTES`. -/
def tokenInformationMaxBytes : Nat := 4096

/-- `PIPE_CREATE_MAX_FAILURES`. -/
def pipeCreateMaxFailures : Nat := 30

/-- `ERROR_INSUFFICIENT_BUFFER`. -/
def errorInsufficientBuffer : UInt32 := 122

/-- `ERROR_PIPE_CONNECTED`. -/
def errorPipeConnected : UInt32 := 535

/-- The classes `read_token_information` is asked for. -/
inductive TokenClass
  | owner
  | user
  deriving DecidableEq, Repr

/-- `size_of::<TOKEN_OWNER>()` and `size_of::<TOKEN_USER>()`. -/
def TokenClass.headerSize : TokenClass → Nat
  | .owner => 8
  | .user => 16

/-- What the thread calls. -/
inductive ServerCall
  | openProcessToken
  /-- `GetTokenInformation`, with the length of its buffer; `0` is the probe. -/
  | getTokenInformation (token : UInt64) (cls : TokenClass) (length : Nat)
  | getLastError
  | convertSidToStringSid (sid : Nat)
  /-- `LocalFree` of a string, and of a descriptor. -/
  | freeString (text : UInt64)
  | freeDescriptor (descriptor : UInt64)
  | convertStringSecurityDescriptor (sddl : List Char)
  /-- `CreateNamedPipeW`, with the descriptor of its attributes; `none` are the default ones. -/
  | createNamedPipe (descriptor : Option UInt64)
  | sleep
  | connectNamedPipe (pipe : UInt64)
  | disconnectNamedPipe (pipe : UInt64)
  | createThread (pipe : UInt64)
  | closeToken (token : UInt64)
  | closePipe (pipe : UInt64)
  | closeThread (worker : UInt64)
  deriving DecidableEq, Repr

/-- An answer, of which each call reads its own part. -/
structure ServerAnswer where
  /-- Not `FALSE`. -/
  ok : Bool
  /-- The handle or the pointer that comes back. -/
  handle : UInt64
  /-- The length `GetTokenInformation` reports. -/
  length : Nat
  bytes : Nat → UInt8
  units : Nat → UInt16
  error : UInt32

/-- A part of the thread. -/
abbrev Serving := Program ServerCall ServerAnswer

/-! ## What has to be given back -/

inductive ServerHandle
  | token (handle : UInt64)
  | text (pointer : UInt64)
  | descriptor (pointer : UInt64)
  | pipe (handle : UInt64)
  | worker (handle : UInt64)
  deriving DecidableEq, Repr

/-- What a call opens, when it says so. -/
def ServerCall.opens (a : ServerAnswer) : ServerCall → Multiset ServerHandle
  | .openProcessToken => if a.ok then {.token a.handle} else 0
  | .convertSidToStringSid _ => if !a.ok || a.handle == 0 then 0 else {.text a.handle}
  | .convertStringSecurityDescriptor _ =>
    if !a.ok || a.handle == 0 then 0 else {.descriptor a.handle}
  | .createNamedPipe _ => if a.handle = invalidHandleValue then 0 else {.pipe a.handle}
  | .createThread _ => if a.handle = 0 then 0 else {.worker a.handle}
  | _ => 0

/-- A pipe is the worker's from the moment its thread exists. -/
def serverCustody : Custody ServerCall ServerAnswer ServerHandle where
  uses
    | .getTokenInformation token _ _ => {.token token}
    | .createNamedPipe (some descriptor) => {.descriptor descriptor}
    | .connectNamedPipe pipe | .disconnectNamedPipe pipe | .createThread pipe => {.pipe pipe}
    | _ => 0
  takes
    | .freeString text, _ => {.text text}
    | .freeDescriptor descriptor, _ => {.descriptor descriptor}
    | .closeToken token, _ => {.token token}
    | .closePipe pipe, _ => {.pipe pipe}
    | .closeThread worker, _ => {.worker worker}
    | .createThread pipe, a => if a.handle = 0 then 0 else {.pipe pipe}
    | _, _ => 0
  gives c a := c.opens a

/-! ## The descriptor -/

/-- `control_pipe_sddl`. -/
def controlPipeSddl (ownerSid : List Char) (userSid : Option (List Char)) : List Char :=
  let sddl := "D:(A;;FA;;;SY)(A;;FA;;;BA)(A;;FA;;;".toList ++ ownerSid ++ ")".toList
  match userSid.filter (!Launch.eqIgnoreAsciiCase · ownerSid) with
  | some userSid => sddl ++ "(A;;FA;;;".toList ++ userSid ++ ")".toList
  | none => sddl

/-- The probe failed, and not for want of a buffer. -/
def probeRefused (probe : ServerAnswer) : Serving Bool :=
  if probe.ok then pure false
  else do
    let last ← Program.ask .getLastError
    pure (last.error != errorInsufficientBuffer)

/-- `read_token_information`. -/
def readTokenInformation (token : UInt64) (cls : TokenClass) (minimum : Nat) :
    Serving (Option (List UInt8)) := do
  let probe ← Program.ask (.getTokenInformation token cls 0)
  let refused ← probeRefused probe
  if refused then pure none
  else if probe.length < minimum ∨ tokenInformationMaxBytes < probe.length then pure none
  else do
    let read ← Program.ask (.getTokenInformation token cls probe.length)
    if !read.ok || decide (read.length < minimum) then pure none
    else pure (some ((List.range probe.length).map read.bytes))

/-- The scan of `sid_to_string`, from `length`, with `n` units to go. -/
def sidLength (units : Nat → UInt16) : Nat → Nat → Nat
  | 0, length => length
  | n + 1, length => if units length = 0 then length else sidLength units n (length + 1)

/-- `sid_to_string`. -/
def sidToString (sid : Nat) : Serving (Option (List Char)) := do
  let text ← Program.ask (.convertSidToStringSid sid)
  if !text.ok || text.handle == 0 then pure none
  else do
    let length := sidLength text.units sidStringMaxChars 0
    let value := fromUtf16Lossy ((List.range length).map text.units)
    let _ ← Program.ask (.freeString text.handle)
    if length = 0 ∨ length = sidStringMaxChars then pure none
    else pure (some value)

/-- `read_token_owner_sid` and `read_token_user_sid`: both structures begin with the pointer. -/
def readTokenSid (token : UInt64) (cls : TokenClass) : Serving (Option (List Char)) := do
  match ← readTokenInformation token cls cls.headerSize with
  | none => pure none
  | some buffer =>
    let sid := leNat (buffer.take 8)
    if sid = 0 then pure none else sidToString sid

/-- `current_token_sids`. -/
def currentTokenSids : Serving (Option (List Char × Option (List Char))) := do
  let token ← Program.ask .openProcessToken
  if !token.ok then pure none
  else do
    let owner ← readTokenSid token.handle .owner
    let user ← readTokenSid token.handle .user
    let _ ← Program.ask (.closeToken token.handle)
    pure (owner.map fun owner => (owner, user))

/-- `build_security_descriptor`. -/
def buildSecurityDescriptor (sddl : List Char) : Serving (Option UInt64) := do
  let converted ← Program.ask (.convertStringSecurityDescriptor sddl)
  if !converted.ok || converted.handle == 0 then pure none else pure (some converted.handle)

/-- `build_control_pipe_descriptor`, without the SIDs it reports. -/
def buildControlPipeDescriptor : Serving (Option UInt64) := do
  match ← currentTokenSids with
  | none => pure none
  | some (owner, user) => buildSecurityDescriptor (controlPipeSddl owner user)

/-! ## The accept loop -/

/-- A connection is waited for; `ERROR_PIPE_CONNECTED` is one that came before. -/
def connectPipeInstance (pipe : UInt64) : Serving Bool := do
  let connected ← Program.ask (.connectNamedPipe pipe)
  if connected.ok then pure true
  else do
    let last ← Program.ask .getLastError
    pure (last.error == errorPipeConnected)

/-- What one round does with the pipe it created: it is closed or it is a worker's. -/
def handOver (pipe : UInt64) : Serving Unit := do
  let connected ← connectPipeInstance pipe
  if !connected then do
    let _ ← Program.ask (.closePipe pipe)
    pure ()
  else do
    let worker ← Program.ask (.createThread pipe)
    if worker.handle = 0 then do
      let _ ← Program.ask (.disconnectNamedPipe pipe)
      let _ ← Program.ask (.closePipe pipe)
      pure ()
    else do
      let _ ← Program.ask (.closeThread worker.handle)
      pure ()

/-- The loop, with the failures to create a pipe since the last one that was created. -/
def acceptLoop (descriptor : Option UInt64) : Nat → Nat → Serving (Option UInt32)
  | 0, _ => pure none
  | rounds + 1, pipeFailures => do
    let pipe ← Program.ask (.createNamedPipe descriptor)
    if pipe.handle = invalidHandleValue then
      if pipeCreateMaxFailures ≤ pipeFailures + 1 then pure (some 2)
      else do
        let _ ← Program.ask .sleep
        acceptLoop descriptor rounds (pipeFailures + 1)
    else do
      handOver pipe.handle
      acceptLoop descriptor rounds 0

/-- `server_thread`, from the descriptor on. The descriptor is freed when the thread returns. -/
def serverThread (rounds : Nat) : Serving (Option UInt32) := do
  let built ← buildControlPipeDescriptor
  match ← acceptLoop built rounds 0 with
  | none => pure none
  | some code =>
    match built with
    | none => pure (some code)
    | some descriptor => do
      let _ ← Program.ask (.freeDescriptor descriptor)
      pure (some code)

/-! ## What a run shows -/

/-- What is in hand of a descriptor that may have been built. -/
def descriptorHeld : Option UInt64 → Multiset ServerHandle
  | none => 0
  | some descriptor => {.descriptor descriptor}

/-- A call that creates an instance of the pipe failed. -/
def creationFailed (e : ServerCall × ServerAnswer) : Option Bool :=
  match e.1 with
  | .createNamedPipe _ => some (e.2.handle == invalidHandleValue)
  | _ => none

/-- The attempts to create an instance, in order: which of them failed. -/
def creations (log : List (ServerCall × ServerAnswer)) : List Bool := log.filterMap creationFailed

/-- The descriptors that instances were created with. -/
def creationDescriptor (e : ServerCall × ServerAnswer) : Option (Option UInt64) :=
  match e.1 with
  | .createNamedPipe descriptor => some descriptor
  | _ => none

def usedDescriptors (log : List (ServerCall × ServerAnswer)) : List (Option UInt64) :=
  log.filterMap creationDescriptor

/-- Failures in a row, behind one more attempt. -/
def failStreak (streak : Nat) (failed : Bool) : Nat := if failed then streak + 1 else 0

/-- The pointer that the token's information begins with, of the `n` bytes that were read. -/
def sidPointer (n : Nat) (read : ServerAnswer) : Nat :=
  leNat (((List.range n).map read.bytes).take 8)

/-- The string of a SID up to its terminator; `none` where there is no string, or none that is
    neither empty nor too long. -/
def sidText (text : ServerAnswer) : Option (List Char) :=
  let units := ((List.range sidStringMaxChars).map text.units).takeWhile (· != 0)
  if !text.ok || text.handle == 0 || units.length == 0 || units.length == sidStringMaxChars then none
  else some (fromUtf16Lossy units)

/-- What the calls of the log tell of a SID of the token: its string, or why there is none. -/
inductive SidOf (token : UInt64) (cls : TokenClass) (log : List (ServerCall × ServerAnswer)) :
    Option (List Char) → Prop
  | refused {probe last : ServerAnswer}
      (hcalls : [(.getTokenInformation token cls 0, probe), (.getLastError, last)] <:+: log)
      (hprobe : probe.ok = false) (hlast : last.error ≠ errorInsufficientBuffer) :
      SidOf token cls log none
  | unfit {probe : ServerAnswer} (hcalls : [(.getTokenInformation token cls 0, probe)] <:+: log)
      (hlength : probe.length < cls.headerSize ∨ tokenInformationMaxBytes < probe.length) :
      SidOf token cls log none
  | unread {n : Nat} {read : ServerAnswer}
      (hcalls : [(.getTokenInformation token cls n, read)] <:+: log) (hn : cls.headerSize ≤ n)
      (hread : read.ok = false ∨ read.length < cls.headerSize) : SidOf token cls log none
  | null {n : Nat} {read : ServerAnswer}
      (hcalls : [(.getTokenInformation token cls n, read)] <:+: log) (hn : cls.headerSize ≤ n)
      (hsid : sidPointer n read = 0) : SidOf token cls log none
  | converted {n : Nat} {read text : ServerAnswer}
      (hcalls : [(.getTokenInformation token cls n, read),
        (.convertSidToStringSid (sidPointer n read), text)] <:+: log)
      (hn : cls.headerSize ≤ n) (hread : read.ok = true) : SidOf token cls log (sidText text)

/-- The descriptor is Windows's for the SDDL of the SIDs of the process's token. -/
def DescriptorBuilt (log : List (ServerCall × ServerAnswer)) (descriptor : UInt64) : Prop :=
  ∃ opened owner user answer, (.openProcessToken, opened) ∈ log ∧ opened.ok = true ∧
    SidOf opened.handle .owner log (some owner) ∧ SidOf opened.handle .user log user ∧
    (.convertStringSecurityDescriptor (controlPipeSddl owner user), answer) ∈ log ∧
    answer.ok = true ∧ answer.handle = descriptor ∧ descriptor ≠ 0

/-- Why there is no descriptor: no token, no owner, or an SDDL that was not accepted. -/
inductive DescriptorMissing (log : List (ServerCall × ServerAnswer)) : Prop
  | token {opened : ServerAnswer} (hcall : (.openProcessToken, opened) ∈ log)
      (hopened : opened.ok = false)
  | owner {opened : ServerAnswer} (hcall : (.openProcessToken, opened) ∈ log)
      (howner : SidOf opened.handle .owner log none)
  | sddl {sddl : List Char} {answer : ServerAnswer}
      (hcall : (.convertStringSecurityDescriptor sddl, answer) ∈ log)
      (hanswer : answer.ok = false ∨ answer.handle = 0)

/-- How a run of the loop that began behind `streak` failures in a row ended. -/
structure LoopEnd (descriptor : Option UInt64) (rounds streak : Nat)
    (log : List (ServerCall × ServerAnswer)) (r : Option UInt32) : Prop where
  descriptors : ∀ d ∈ usedDescriptors log, d = descriptor
  /-- No earlier attempt was the thirtieth failure in a row. -/
  running : ∀ before after, creations log = before ++ after → after ≠ [] →
    before.foldl failStreak streak < pipeCreateMaxFailures
  stopped : ∀ code, r = some code →
    code = 2 ∧ (creations log).foldl failStreak streak = pipeCreateMaxFailures
  listening : r = none → (creations log).length = rounds ∧
    (creations log).foldl failStreak streak < pipeCreateMaxFailures

/-- Before the entries of a DACL, and before the SID of an allowing full-access entry. -/
def daclHead : List Char := "D:".toList
def aceHead : List Char := "(A;;FA;;;".toList

/-- The SID of an allowing full-access entry, without its closing bracket. -/
def aceTrustee (entry : List Char) : Option (List Char) :=
  if aceHead.isPrefixOf entry then some (entry.drop aceHead.length) else none

/-- Whom an SDDL text with a DACL of such entries grants; `none` for any other text. -/
def daclGrants (sddl : List Char) : Option (List (List Char)) :=
  let entries := (sddl.drop daclHead.length).splitOn ')'
  if daclHead.isPrefixOf sddl ∧ entries.getLast? = some [] then entries.dropLast.mapM aceTrustee
  else none

/-- System, the administrators, the owner, and the user where it is another account. -/
def controlPipeTrustees (owner : List Char) (user : Option (List Char)) : List (List Char) :=
  ["SY".toList, "BA".toList, owner] ++ (user.filter (!Launch.eqIgnoreAsciiCase · owner)).toList

end Gate
end SteamInputLease
