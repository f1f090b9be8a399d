import SteamInputLease.Lib.Program
import SteamInputLease.Launch.Connect
import SteamInputLease.Recovery.Checked
import SteamInputLease.Recovery.Memory

/-!
# Snapshots of a module

`snapshot_remote_module` of the host and `snapshot_current_range` of the payload, each as its own
source has it. Windows answers each query about a region, and fills of the window it is given to
read into whatever bytes it likes. The source ignores how many it says it has read. The loops end
by `address`, so they are given `rounds` and crash when these are used up.
-/

namespace SteamInputLease
namespace Recovery

open Lib
open Launch (Error RemoteModule)

/-- `MODULE_SNAPSHOT_LIMIT`, of both. -/
def moduleSnapshotLimit : Nat := 512 * 1024 * 1024

/-- `GetCurrentProcess()`. -/
def currentProcess : UInt64 := .ofNat (2 ^ 64 - 1)

/-- What a snapshot calls. -/
inductive SnapshotCall
  | virtualQueryEx (process : UInt64) (address : Nat)
  | virtualQuery (address : Nat)
  | readProcessMemory (process : UInt64) (address length : Nat)
  deriving DecidableEq, Repr

/-- An answer, of which a query and a read each take their part. -/
structure SnapshotAnswer where
  /-- `MEMORY_BASIC_INFORMATION`, `none` where the query returned 0. -/
  region : Option MemoryRegion
  /-- The bytes that are delivered, by their offset in what is read. -/
  delivered : Nat → Option UInt8

/-- The window behind the read. -/
def SnapshotAnswer.fill (answer : SnapshotAnswer) (window : List UInt8) : List UInt8 :=
  window.mapIdx fun offset old => (answer.delivered offset).getD old

/-- A part of a snapshot, which may crash. -/
abbrev Snapshotting := ExceptT Panic (Program SnapshotCall SnapshotAnswer)

/-! ## The host -/

/-- The loop of `snapshot_remote_module`. -/
def remoteRounds (process : UInt64) (module : RemoteModule) (stop : Nat) :
    Nat → Nat → List UInt8 → Snapshotting (List UInt8)
  | 0, address, image => if address < stop then checked (.error .endless) else pure image
  | rounds + 1, address, image =>
    if address < stop then do
      let query ← Program.calling (.virtualQueryEx process address)
      match query.region with
      | none => remoteRounds process module stop rounds (satAdd address 0x1000) image
      | some memory =>
        let regionStart := max memory.base address
        let regionEnd := min (satAdd memory.base memory.size) stop
        if regionEnd ≤ regionStart then
          remoteRounds process module stop rounds (satAdd address 0x1000) image
        else if memoryIsReadable memory.state memory.protect then do
          let destination ← checked (MayPanic.sub regionStart module.base)
          let length ← checked (MayPanic.sub regionEnd regionStart)
          let past ← checked (Checked.usizeAdd destination length)
          let window ← checked (MayPanic.slice image destination past)
          let read ← Program.calling (.readProcessMemory process regionStart length)
          remoteRounds process module stop rounds regionEnd
            (image.take destination ++ read.fill window ++ image.drop past)
        else remoteRounds process module stop rounds regionEnd image
    else pure image

/-- `snapshot_remote_module`. -/
def snapshotRemoteModule (process : UInt64) (module : RemoteModule) (rounds : Nat) :
    Snapshotting (Except Error (List UInt8)) :=
  if module.size = 0 ∨ moduleSnapshotLimit < module.size then
    pure (.error (.unsupportedSteamBuild "steamclient64.dll reported an implausible image size"))
  else do
    let stop := satAdd module.base module.size
    let image ← remoteRounds process module stop rounds module.base (.replicate module.size 0)
    pure (.ok image)

/-! ## The payload -/

/-- The loop of `snapshot_current_range`. -/
def currentRounds (base stop : Nat) : Nat → Nat → List UInt8 → Snapshotting (List UInt8)
  | 0, address, snapshot => if address < stop then checked (.error .endless) else pure snapshot
  | rounds + 1, address, snapshot =>
    if address < stop then do
      let query ← Program.calling (.virtualQuery address)
      match query.region with
      | none => currentRounds base stop rounds (satAdd address 0x1000) snapshot
      | some memory =>
        let regionStart := max memory.base address
        let regionEnd := min (satAdd memory.base memory.size) stop
        if regionEnd ≤ regionStart then
          currentRounds base stop rounds (satAdd address 0x1000) snapshot
        else if memoryIsReadable memory.state memory.protect then do
          let destination ← checked (MayPanic.sub regionStart base)
          let length ← checked (MayPanic.sub regionEnd regionStart)
          let past ← checked (Checked.usizeAdd destination length)
          let window ← checked (MayPanic.slice snapshot destination past)
          let read ← Program.calling (.readProcessMemory currentProcess regionStart length)
          currentRounds base stop rounds regionEnd
            (snapshot.take destination ++ read.fill window ++ snapshot.drop past)
        else currentRounds base stop rounds regionEnd snapshot
    else pure snapshot

/-- `snapshot_current_range`. -/
def snapshotCurrentRange (base size rounds : Nat) : Snapshotting (List UInt8) :=
  currentRounds base (satAdd base size) rounds base (.replicate size 0)

end Recovery
end SteamInputLease
