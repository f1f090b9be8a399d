import SteamInputLease.Proof.Gate.Edges

/-!
# The transitions of `notify_controller_rescan` and of `rescan_timer_loop`, by name

The inversions of `notifyStep` and `timerStep`, in the manner of `Move`, and what mutual exclusion
says about a worker that is inside `notify_controller_rescan`.

A notification is made in the section that has turned blocking off, so at most one worker is in one
at a time (`only_in_section`); this is why the timer's flag and its thread can be followed at all,
and every result about second passes starts from it. The timer thread makes its pass without the
lock, and `TimerMove` has its cases. `NotifyEffect` is the view of a worker's forty transitions that
is left when only its notification counts: it is in none, takes one step of one, or returns. At the
end stand the pieces of a run with one lease, from which the runs of several results are made.
-/

namespace SteamInputLease
namespace Gate

open Lib Lib.System Protocol Recovery

/-- The ways `notify_controller_rescan` can step at clock `now` from caches `c` and timer `t`:
    where it is, and the caches, the timer and the place after the step. -/
inductive NotifyMove (k : Counters) (now : Nat) (c : Caches) (t : RescanTimer) :
    NotifyPc → Caches → RescanTimer → Option NotifyPc → Prop
  | blocked (hb : k.blocking = true) : NotifyMove k now c t .guard c t none
  | refresh (hb : k.blocking = false) : NotifyMove k now c t .guard c t (some .refreshSdl)
  | refreshed : NotifyMove k now c t .refreshSdl c t (some (.first .start))
  | first {r r' : RequestPc} {ch : Choice} {c' : Caches}
      (hr : requestStep c r ch = some (c', .inl r')) :
      NotifyMove k now c t (.first r) c' t (some (.first r'))
  | firstStored {r : RequestPc} {ch : Choice} {c' : Caches}
      (hr : requestStep c r ch = some (c', .inr true)) :
      NotifyMove k now c t (.first r) c' t (some .schedule)
  | firstFailed {r : RequestPc} {ch : Choice} {c' : Caches}
      (hr : requestStep c r ch = some (c', .inr false)) :
      NotifyMove k now c t (.first r) c' t (some .enumWindows)
  | started (hs : t.started = true) : NotifyMove k now c t .schedule c t (some .arm)
  | claimed (hs : t.started = false) :
      NotifyMove k now c t .schedule c { t with started := true } (some .spawn)
  | spawned : NotifyMove k now c t .spawn c { t with thread := .lock } (some .arm)
  | spawnFailed : NotifyMove k now c t .spawn c { t with started := false }
      (some (.sleep (now + secondDiscoveryDelay)))
  | arm : NotifyMove k now c t .arm c (t.arm now) none
  | slept {until_ : Nat} (hu : until_ ≤ now) :
      NotifyMove k now c t (.sleep until_) c t (some .guardAgain)
  | blockedAgain (hb : k.blocking = true) : NotifyMove k now c t .guardAgain c t none
  | again (hb : k.blocking = false) : NotifyMove k now c t .guardAgain c t (some (.second .start))
  | second {r r' : RequestPc} {ch : Choice} {c' : Caches}
      (hr : requestStep c r ch = some (c', .inl r')) :
      NotifyMove k now c t (.second r) c' t (some (.second r'))
  | secondEnded {r : RequestPc} {ch : Choice} {c' : Caches} {b : Bool}
      (hr : requestStep c r ch = some (c', .inr b)) :
      NotifyMove k now c t (.second r) c' t none
  | enumerated : NotifyMove k now c t .enumWindows c t none

theorem notifyStep_move {k : Counters} {now : Nat} {c c' : Caches} {t t' : RescanTimer}
    {n : NotifyPc} {ch : Choice} {n' : Option NotifyPc}
    (h : notifyStep k now c t n ch = some (c', t', n')) : NotifyMove k now c t n c' t' n' := by
  unfold notifyStep at h
  split at h
  case h_1 =>
    split at h
    · next hb => cases h; exact .blocked hb
    · next hb => cases h; exact .refresh (by simpa using hb)
  case h_2 => cases h; exact .refreshed
  case h_3 r ch =>
    split at h
    · next hr => cases h; exact .first hr
    · next hr => cases h; exact .firstStored hr
    · next hr => cases h; exact .firstFailed hr
    · cases h
  case h_4 =>
    split at h
    · next hs => cases h; exact .started hs
    · next hs => cases h; exact .claimed (by simpa using hs)
  case h_5 => cases h; exact .spawned
  case h_6 => cases h; exact .spawnFailed
  case h_7 => cases h; exact .arm
  case h_8 =>
    split at h
    · next hu => cases h; exact .slept hu
    · cases h
  case h_9 =>
    split at h
    · next hb => cases h; exact .blockedAgain hb
    · next hb => cases h; exact .again (by simpa using hb)
  case h_10 r ch =>
    split at h
    · next hr => cases h; exact .second hr
    · next hr => cases h; exact .secondEnded hr
    · cases h
  case h_11 => cases h; exact .enumerated
  case h_12 => cases h

/-- The ways the timer thread can step. -/
inductive TimerMove (k : Counters) (now : Nat) (c : Caches) (t : RescanTimer) :
    Caches → RescanTimer → Prop
  | wait (ht : t.thread = .lock) (ha : t.armed = none) :
      TimerMove k now c t c { t with thread := .wait, notified := false }
  | waitTimeout {at_ : Nat} (ht : t.thread = .lock) (ha : t.armed = some at_) (hn : now < at_) :
      TimerMove k now c t c { t with thread := .waitTimeout, notified := false }
  | fire {at_ : Nat} (ht : t.thread = .lock) (ha : t.armed = some at_) (hn : at_ ≤ now) :
      TimerMove k now c t c { t with armed := none, thread := .guard }
  | wake (ht : t.thread.waits = true) :
      TimerMove k now c t c { t with thread := .lock, notified := false }
  | held (ht : t.thread = .guard) (hb : k.blocking = true) :
      TimerMove k now c t c { t with thread := .lock }
  | request (ht : t.thread = .guard) (hb : k.blocking = false) :
      TimerMove k now c t c { t with thread := .request .start }
  | requesting {r r' : RequestPc} {ch : Choice} {c' : Caches} (ht : t.thread = .request r)
      (hr : requestStep c r ch = some (c', .inl r')) :
      TimerMove k now c t c' { t with thread := .request r' }
  | requested {r : RequestPc} {ch : Choice} {c' : Caches} {b : Bool} (ht : t.thread = .request r)
      (hr : requestStep c r ch = some (c', .inr b)) :
      TimerMove k now c t c' { t with thread := .lock }

theorem timerStep_move {k : Counters} {now : Nat} {c c' : Caches} {t t' : RescanTimer}
    {ch : Choice} (h : timerStep k now c t ch = some (c', t')) : TimerMove k now c t c' t' := by
  unfold timerStep at h
  split at h
  case h_1 ht =>
    split at h
    · next ha => cases h; exact .wait ht ha
    · next ha =>
      split at h
      · next hn => cases h; exact .waitTimeout ht ha hn
      · next hn => cases h; exact .fire ht ha (Nat.le_of_not_lt hn)
  case h_2 ht => cases h; exact .wake (by rw [ht]; rfl)
  case h_3 ht => cases h; exact .wake (by rw [ht]; rfl)
  case h_4 ht =>
    split at h
    · next hb => cases h; exact .held ht hb
    · next hb => cases h; exact .request ht (by simpa using hb)
  case h_5 r ch ht =>
    split at h
    · next hr => cases h; exact .requesting ht hr
    · next hr => cases h; exact .requested ht hr
    · cases h
  case h_6 => cases h

/-! ## A worker's step, seen from its notification -/

/-- A worker is not inside a notification, or takes one step of it, or returns from it. -/
inductive NotifyEffect (p p' : Payload) (c c' : Connection) : Prop
  | other (hno : c.pc.notifying = false) (ht : p'.timer = p.timer) (hc : p'.clock = p.clock)
      (hb : ∀ n sec, c'.pc = .notify n sec → n = .guard)
  | inside {n n' : NotifyPc} {sec : Section} {k : Caches} {t : RescanTimer}
      (hpc : c.pc = .notify n sec) (hpc' : c'.pc = .notify n' sec)
      (hp : p' = { p with caches := k, timer := t })
      (hm : NotifyMove p.counters p.clock p.caches p.timer n k t (some n'))
  | ended {n : NotifyPc} {sec : Section} {k : Caches} {t : RescanTimer}
      (hpc : c.pc = .notify n sec) (hpc' : c'.pc = .unlock sec)
      (hp : p' = { p with caches := k, timer := t })
      (hm : NotifyMove p.counters p.clock p.caches p.timer n k t none)

theorem Move.notify {i : Nat} {p p' : Payload} {c c' : Connection} (h : Move i p c p' c') :
    NotifyEffect p p' c c' := by
  cases h with
  | notifying hpc hn => exact .inside hpc rfl rfl (notifyStep_move hn)
  | notified hpc hn => exact .ended hpc rfl rfl (notifyStep_move hn)
  | read hpc hr =>
    refine .other (by simp [hpc, WorkerPc.notifying]) rfl rfl fun n sec hn => ?_
    exact absurd (congrArg WorkerPc.stage hn) (stage_dispatch _)
  | unlock hpc =>
    refine .other (by simp [hpc, WorkerPc.notifying]) rfl rfl fun n sec hn => ?_
    exact absurd (congrArg WorkerPc.stage hn) (stage_sectionNext _)
  | written hpc _ | notWritten hpc =>
    refine .other (by simp [hpc, WorkerPc.notifying]) rfl rfl fun n sec hn => ?_
    exact absurd (congrArg WorkerPc.stage hn) (stage_replyNext _)
  | _ => exact .other (by simp_all [WorkerPc.notifying]) rfl rfl (by simp)

/-! ## One notification at a time -/

/-- Whoever is inside a section is alone there. -/
theorem only_in_section {s : State} (hr : gate.Reach s) {i j : Nat}
    (hi : (s.pc i).stage = .inSection) (hj : (s.pc j).stage = .inSection) : j = i :=
  (balanced_of_reach hr).only hi hj

/-! ## A run with one lease -/

/-- A raw client takes a lease and goes; its worker is about to notify. -/
def leaseGone : List Label :=
  [.accept .raw, .client 0 (.send (Request.new .acquireLease).toBytes), .worker 0 .go,
    .worker 0 (.install true false)]
  ++ .replicate 5 (.worker 0 .go)
  ++ [.worker 0 (.flag false), .worker 0 (.flag false), .worker 0 .go,
    .worker 0 (.counts 0 0), .worker 0 (.flag true), .client 0 .close]
  ++ .replicate 5 (.worker 0 .go)

/-- A layout whose deadline field is aligned in an aligned object. -/
def sampleLayout : RuntimeRecoveryLayout where
  moduleBase := 0x10000
  layout :=
    { primaryVtableRva := 0x100, secondaryVtableRva := 0x200, secondaryObjectOffset := 0x10
      workerMethodRva := 0x300, discoveryDeadlineOffset := 0x40, discoveryCounterOffset := 0x48 }

/-- Worker `i` notifies: its first request finds the HID thread and stores, and a new timer thread
    is armed. -/
def notifyArms (i : Nat) : List Label :=
  [.worker i .go, .worker i .go, .worker i .go, .worker i (.layout (some sampleLayout)),
    .worker i (.flag false), .worker i (.elected (some 0x20000)), .worker i .go, .worker i .go,
    .worker i (.flag true), .worker i .go]

end Gate
end SteamInputLease
