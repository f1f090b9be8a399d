import SteamInputLease.Gate.System

/-!
# A watch on the second discovery pass

An observer of the armed deadline and of the calls of `schedule_second_discovery`: what was armed
and by whom, when it was cleared, and which workers still owe a pass they have to make
themselves.
-/

namespace SteamInputLease
namespace Gate

open Recovery

structure TimerWatch where
  /-- `schedule_second_discovery` has returned `true`. -/
  scheduled : Bool
  /-- The deadline armed last, until it is cleared. -/
  latest : Option Nat
  /-- Clearings of the deadline by the timer thread, and its evaluations of `blocking()`. -/
  clears : Nat
  guards : Nat
  /-- Clearings before the deadline armed last. -/
  early : Nat
  /-- Changes of the deadline by anything but the timer thread's clearing and the arming of a
      call that returns `true`. -/
  foreign : Nat
  /-- `schedule_second_discovery` returned `false` to this worker, which has not made the second
      pass yet. -/
  owed : Nat → Bool

def TimerWatch.start : TimerWatch where
  scheduled := false
  latest := none
  clears := 0
  guards := 0
  early := 0
  foreign := 0
  owed := fun _ => false

/-- At the arming, which ends a call of `schedule_second_discovery` with `true`. -/
def WorkerPc.arming : WorkerPc → Bool
  | .notify .arm _ => true
  | _ => false

/-- A call of `schedule_second_discovery` has returned `false` and its caller waits. -/
def WorkerPc.waiting : WorkerPc → Bool
  | .notify (.sleep _) _ => true
  | _ => false

/-- In the second pass a worker makes itself. -/
def WorkerPc.secondPass : WorkerPc → Bool
  | .notify (.second _) _ => true
  | _ => false

/-- The observer at a step of worker `i`. -/
def TimerWatch.observeWorker (w : TimerWatch) (s : State) (i : Nat) (s' : State) : TimerWatch :=
  let changed := s.payload.timer.armed != s'.payload.timer.armed
  let refused := !(s.pc i).waiting && (s'.pc i).waiting
  let made := (s.pc i).secondPass && !(s'.pc i).secondPass
  { w with
    scheduled := w.scheduled || (s.pc i).arming
    latest := if (s.pc i).arming then some (s.payload.clock + secondDiscoveryDelay) else w.latest
    foreign := w.foreign + if changed && !(s.pc i).arming then 1 else 0
    owed := fun j => if j = i then refused || (w.owed j && !made) else w.owed j }

/-- The observer at a step of the timer thread. -/
def TimerWatch.observeTimer (w : TimerWatch) (s s' : State) : TimerWatch :=
  let cleared := s.payload.timer.armed.isSome && s'.payload.timer.armed.isNone
  let changed := s.payload.timer.armed != s'.payload.timer.armed
  { w with
    latest := if cleared then none else w.latest
    clears := w.clears + if cleared then 1 else 0
    guards := w.guards + if s.payload.timer.thread = .guard then 1 else 0
    early := w.early + if cleared && !w.latest.any (· ≤ s.payload.clock) then 1 else 0
    foreign := w.foreign + if changed && !cleared then 1 else 0 }

def TimerWatch.observe (w : TimerWatch) (s : State) (e : Label) (s' : State) : TimerWatch :=
  match e with
  | .worker i _ => w.observeWorker s i s'
  | .timer _ => w.observeTimer s s'
  | _ =>
    let changed := s.payload.timer.armed != s'.payload.timer.armed
    { w with foreign := w.foreign + if changed then 1 else 0 }

end Gate
end SteamInputLease
