import SteamInputLease.Gate.Rediscovery
import SteamInputLease.Gate.TimerWatch

/-!
# What the payload did since blocking was last turned off

The observer behind `RecoveryOutcome::Scheduled`: the host reads that word off a response and
skips its own recovery, so it had better mean that the payload's is under way.
-/

namespace SteamInputLease
namespace Gate

/-- Since blocking was last turned off: whether a `-1.0` store was made, whether a second pass
    was armed or made, and whether the first request of the notification that followed failed. -/
structure SinceOff where
  stored : Bool
  second : Bool
  unresolved : Bool
  deriving DecidableEq, Repr

/-- The step arms the second pass, or ends one that a worker makes itself. -/
def secondPassMade (s : State) (e : Label) (s' : State) : Bool :=
  match e with
  | .worker i _ => (s.pc i).arming || ((s.pc i).secondPass && !(s'.pc i).secondPass)
  | _ => false

/-- The answer with which a resolution that ignores its budget fails: no layout, no HID thread,
    or a deadline field that is not aligned. -/
def ResolvePc.unresolved (c : Caches) : ResolvePc → Choice → Bool
  | .resolving, .layout l => l.isNone
  | .cached rt, .flag valid =>
    c.hidThreadAddress != 0 && valid &&
      (c.hidThreadAddress + rt.layout.discoveryDeadlineOffset) % 8 != 0
  | .scan rt, .elected a => a.all fun a => (a + rt.layout.discoveryDeadlineOffset) % 8 != 0
  | _, _ => false

/-- The answer fails the request. -/
def RequestPc.unresolved (c : Caches) : RequestPc → Choice → Bool
  | .resolve r, ch => r.unresolved c ch
  | .store _, _ => false

/-- The answer fails the first request of the notification. -/
def NotifyPc.unresolved (c : Caches) : NotifyPc → Choice → Bool
  | .first r, ch => r.unresolved c ch
  | _, _ => false

/-- The first request of a worker's notification fails with this step's answer. -/
def firstUnresolved (s : State) : Label → Bool
  | .worker i ch =>
    match s.pc i with
    | .notify n _ => n.unresolved s.payload.caches ch
    | _ => false
  | _ => false

/-- The observer at one step; `none` until blocking has been on and was turned off. -/
def SinceOff.observe (w : Option SinceOff) (s : State) (e : Label) (s' : State) :
    Option SinceOff :=
  if s.blocking && !s'.blocking then some { stored := false, second := false, unresolved := false }
  else w.map fun r =>
    { stored := r.stored || stores s e
      second := r.second || secondPassMade s e s'
      unresolved := r.unresolved || firstUnresolved s e }

/-- Worker `i` has turned blocking off and has not finished its notification. -/
def State.rescanPending (s : State) (i : Nat) : Bool :=
  match s.pc i with
  | .passThroughAdded was => was
  | .released _ _ was => was && !s.blocking
  | .notify _ _ => true
  | _ => false

/-- No worker is between turning blocking off and the end of its notification. -/
def State.rescansEnded (s : State) : Bool :=
  (List.range s.conns.length).all fun j => !s.rescanPending j

/-- Some `Lease::release` is about to return `Scheduled`. -/
def ReleasesScheduled (s : State) : Prop :=
  ∃ i s' c', gate.step s (.client i .released) = some s' ∧ s'.conns[i]? = some c' ∧
    c'.host = .released .scheduled

end Gate
end SteamInputLease
