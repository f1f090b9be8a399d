import SteamInputLease.Gate.Counters
import SteamInputLease.Gate.Discovery

/-!
# The rescan timer: `schedule_second_discovery`, `rescan_timer_loop`, `notify_controller_rescan`

The mutex of `RESCAN_TIMER` is held only inside one step: by a scheduler while it arms and
notifies, and by the timer thread from taking the lock to its next wait or to the drop before
the request. A step is therefore one lock-protected section, and the timer thread's program
counter says where it is between sections.

Time is milliseconds on a clock the environment advances.
-/

namespace SteamInputLease
namespace Gate

open Recovery

/-- Where the timer thread is, between two sections under the timer's mutex. -/
inductive TimerPc
  /-- No timer thread exists. -/
  | absent
  /-- About to take the mutex: just spawned, woken, or back from a request. -/
  | lock
  /-- In `condvar.wait`. -/
  | wait
  /-- In `condvar.wait_timeout`. -/
  | waitTimeout
  /-- The deadline is cleared and the mutex dropped; `blocking()` comes next. -/
  | guard
  /-- `request_internal_discovery(true)` runs. -/
  | request (r : RequestPc)
  deriving DecidableEq, Repr

/-- `RESCAN_TIMER_STARTED`, the mutex's `Option<Instant>`, whether a notification was sent to
    the waiting thread and not consumed, and the thread. -/
structure RescanTimer where
  started : Bool
  armed : Option Nat
  notified : Bool
  thread : TimerPc
  deriving DecidableEq, Repr

/-- The timer thread is inside one of its two waits. -/
def TimerPc.waits : TimerPc → Bool
  | .wait | .waitTimeout => true
  | _ => false

/-- The section of `schedule_second_discovery` under the mutex: overwrite the deadline, notify.
    A notification sent while nobody waits is lost. -/
def RescanTimer.arm (t : RescanTimer) (now : Nat) : RescanTimer :=
  { t with armed := some (now + secondDiscoveryDelay), notified := t.notified || t.thread.waits }

/-- One step of `rescan_timer_loop`. A wait can end at any time: notified, timed out or
    spuriously. -/
def timerStep (k : Counters) (now : Nat) (c : Caches) (t : RescanTimer) :
    Choice → Option (Caches × RescanTimer) := fun ch =>
  match t.thread, ch with
  | .lock, .go =>
    match t.armed with
    | none => some (c, { t with thread := .wait, notified := false })
    | some at_ =>
      if now < at_ then some (c, { t with thread := .waitTimeout, notified := false })
      else some (c, { t with armed := none, thread := .guard })
  | .wait, .go => some (c, { t with thread := .lock, notified := false })
  | .waitTimeout, .go => some (c, { t with thread := .lock, notified := false })
  | .guard, .go =>
    if k.blocking then some (c, { t with thread := .lock })
    else some (c, { t with thread := .request .start })
  | .request r, ch =>
    match requestStep c r ch with
    | some (c', .inl r') => some (c', { t with thread := .request r' })
    | some (c', .inr _) => some (c', { t with thread := .lock })
    | none => none
  | _, _ => none

/-- Where one `notify_controller_rescan` call is. -/
inductive NotifyPc
  /-- About to evaluate `blocking()`. -/
  | guard
  /-- `refresh_sdl_hidapi_devices` runs. -/
  | refreshSdl
  /-- The first `request_internal_discovery(true)`. -/
  | first (r : RequestPc)
  /-- `schedule_second_discovery`, at the started flag. -/
  | schedule
  /-- The flag is claimed; the thread is being spawned. -/
  | spawn
  /-- `schedule_second_discovery`, about to arm the deadline and return `true`. -/
  | arm
  /-- `schedule_second_discovery` returned `false`; the worker sleeps until then. -/
  | sleep (until_ : Nat)
  /-- The worker's own second pass: about to evaluate `blocking()`. -/
  | guardAgain
  /-- The worker's own second pass: the request. -/
  | second (r : RequestPc)
  /-- The fallback for an unknown build, `EnumWindows(notify_window)`. -/
  | enumWindows
  deriving DecidableEq, Repr

/-- One step of `notify_controller_rescan`; `none` in the last component is its return. -/
def notifyStep (k : Counters) (now : Nat) (c : Caches) (t : RescanTimer) :
    NotifyPc → Choice → Option (Caches × RescanTimer × Option NotifyPc)
  | .guard, .go =>
    if k.blocking then some (c, t, none) else some (c, t, some .refreshSdl)
  | .refreshSdl, .go => some (c, t, some (.first .start))
  | .first r, ch =>
    match requestStep c r ch with
    | some (c', .inl r') => some (c', t, some (.first r'))
    | some (c', .inr true) => some (c', t, some .schedule)
    | some (c', .inr false) => some (c', t, some .enumWindows)
    | none => none
  | .schedule, .go =>
    if t.started then some (c, t, some .arm)
    else some (c, { t with started := true }, some .spawn)
  | .spawn, .flag true => some (c, { t with thread := .lock }, some .arm)
  | .spawn, .flag false =>
    -- the spawn failed: the flag is cleared again and nothing is armed
    some (c, { t with started := false }, some (.sleep (now + secondDiscoveryDelay)))
  | .arm, .go => some (c, t.arm now, none)
  | .sleep until_, .go => if until_ ≤ now then some (c, t, some .guardAgain) else none
  | .guardAgain, .go =>
    if k.blocking then some (c, t, none) else some (c, t, some (.second .start))
  | .second r, ch =>
    match requestStep c r ch with
    | some (c', .inl r') => some (c', t, some (.second r'))
    | some (c', .inr _) => some (c', t, none)
    | none => none
  | .enumWindows, .go => some (c, t, none)
  | _, _ => none

end Gate
end SteamInputLease
