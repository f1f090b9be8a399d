import SteamInputLease.Gate.System

/-!
# The `-1.0` store and the predicate it must not meet

Which steps execute the store of `request_internal_discovery`, and which update of a counter
turns blocking on.
-/

namespace SteamInputLease
namespace Gate

/-- The `-1.0` store comes next. -/
def RequestPc.storing : RequestPc → Bool
  | .store _ => true
  | _ => false

def WorkerPc.storing : WorkerPc → Bool
  | .notify (.first r) _ | .notify (.second r) _ => r.storing
  | _ => false

def TimerPc.storing : TimerPc → Bool
  | .request r => r.storing
  | _ => false

/-- The step executes the `-1.0` store. -/
def stores (s : State) : Label → Bool
  | .worker i _ => (s.pc i).storing
  | .timer _ => s.payload.timer.thread.storing
  | _ => false

/-- The counters after a worker's next step. -/
def WorkerPc.updated (k : Counters) : WorkerPc → Counters
  | .acquire .lease => k.add 1 .lease
  | .passThroughRead _ => k.add 1 .passThrough
  | .releaseRead o _ _ => k.add (-1) o
  | _ => k

/-- The step is the counter update with which a worker turns blocking on. -/
def turnsOn (s : State) : Label → Bool
  | .worker i _ => !s.blocking && ((s.pc i).updated s.payload.counters).blocking
  | _ => false

/-- The timer thread has found blocking off and its request has not ended. -/
def TimerPc.requesting : TimerPc → Bool
  | .request _ => true
  | _ => false

/-- Blocking is not turned on between the timer thread's check and the end of its request. -/
def timerUndisturbed (s : State) (e : Label) : Bool :=
  !(turnsOn s e && s.payload.timer.thread.requesting)

end Gate
end SteamInputLease
