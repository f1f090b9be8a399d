import SteamInputLease.Gate.Rediscovery
import SteamInputLease.Proof.Gate.SecondPass

/-!
# Rediscovery while blocking

A worker stores `-1.0` under `OWNERSHIP_TRANSITION`, where its check of `blocking()` stays true. The
timer thread checks without the lock, and its request can take seconds: a lease acquired in between
is blocking when the store happens (`store_while_blocking`). Without such an acquire the store never
meets an active block (`store_not_blocking`).

The condition is about the timer thread's window alone: no step turns blocking on while the timer
thread is between its check and the end of its request. It is a condition on steps, and the store is
not mentioned in it. For the workers there is nothing to ask, because whoever notifies is alone in a
section and nobody else changes the counters meanwhile. The run that breaks the property is a short
one, since all it takes is a client that asks for a lease while the timer thread resolves.
-/

namespace SteamInputLease
namespace Gate

open Lib Lib.System Protocol

theorem Move.updated {i : Nat} {p p' : Payload} {c c' : Connection} (h : Move i p c p' c') :
    p'.counters = c.pc.updated p.counters := by
  cases h with
  | read hpc _ | readRelease hpc _ | written hpc _ | notWritten hpc | unlock hpc =>
    rw [hpc]
    rfl
  | _ => simp_all [WorkerPc.updated]

theorem notifying_of_storing {pc : WorkerPc} (h : pc.storing = true) : pc.notifying = true := by
  cases pc <;> first | rfl | cases h

theorem requesting_of_storing {t : TimerPc} (h : t.storing = true) : t.requesting = true := by
  cases t <;> first | rfl | cases h

/-- While the timer thread is in an undisturbed request, blocking is off. -/
theorem requesting_not_blocking {s : State}
    (hr : gate.ReachUnder (fun s e => timerUndisturbed s e = true) s) :
    s.payload.timer.thread.requesting = true → s.blocking = false := by
  refine ReachUnder.invariant
    (I := fun s => s.payload.timer.thread.requesting = true → s.blocking = false) ?_ ?_ hr
  · rintro s rfl h
    simp [State.initial, Payload.initial, TimerPc.requesting] at h
  intro s e s' hr ih hc hs hreq
  cases e with
  | worker i ch =>
    obtain ⟨c, p, c', hi, hm, rfl⟩ := step_worker hs
    have hthread := (hm.deadline (timerSound_of_reach hr.reach) hi).2
    have hbefore : s.payload.timer.thread.requesting = true := by
      rcases hthread with ht | ⟨_, ht⟩
      · exact ht ▸ hreq
      · simp [ht, TimerPc.requesting] at hreq
    have hoff := ih hbefore
    -- turning blocking on now is the step the condition excludes
    rw [timerUndisturbed, turnsOn, pc_eq hi, hoff, hbefore] at hc
    rw [State.blocking, hm.updated]
    simpa using hc
  | timer ch =>
    obtain ⟨k, t, ht, rfl⟩ := step_timer hs
    cases timerStep_move ht with
    | request _ hb => exact hb
    | requesting hth _ => exact ih (by rw [hth]; rfl)
    | _ => simp [TimerPc.requesting] at hreq
  | _ =>
    rw [timer_still hs (by simp) (by simp)] at hreq
    rw [State.blocking, (step_background hs (by simp)).1]
    exact ih hreq

/-- With the timer thread undisturbed, `-1.0` is stored only where no lease is counted or a
    claim is. -/
theorem store_not_blocking {s : State} {e : Label}
    (hr : gate.ReachUnder (fun s e => timerUndisturbed s e = true) s) (hst : stores s e = true) :
    s.payload.counters.leaseCount = 0 ∨ 0 < s.payload.counters.passThroughCount := by
  have hoff : s.blocking = false := by
    cases e with
    | worker i ch => exact notifying_blocking hr.reach (notifying_of_storing hst)
    | timer ch => exact requesting_not_blocking hr (requesting_of_storing hst)
    | _ => cases hst
  have hb : Balanced s := balanced_of_reach hr
  have h₁ : 0 ≤ s.payload.counters.leaseCount := hb.nonneg .lease
  have h₂ : 0 ≤ s.payload.counters.passThroughCount := hb.nonneg .passThrough
  simp only [State.blocking, Counters.blocking, Bool.and_eq_false_iff, decide_eq_false_iff_not] at hoff
  omega

/-- The deadline passes and the timer thread begins its request. -/
def timerRequests : List Label :=
  [.timer .go, .tick 2200, .timer .go, .timer .go, .timer .go, .timer .go, .timer (.flag true)]

theorem store_not_blocking_timer : ∃ s,
    gate.ReachUnder (fun s e => timerUndisturbed s e = true) s ∧ stores s (.timer .go) = true ∧
    (s.payload.counters.leaseCount = 0 ∨ 0 < s.payload.counters.passThroughCount) := by
  obtain ⟨s, hr, hp⟩ := exists_reachUnder_of_exec (T := gate) (s := .initial) timerUndisturbed
    (leaseGone ++ notifyArms 0 ++ timerRequests) (fun s => stores s (.timer .go)) rfl (by decide)
  exact ⟨s, hr, hp, store_not_blocking hr hp⟩

/-- A second client takes a lease while the timer thread resolves: it turns blocking on and
    closes Steam's controllers. -/
def leaseDuringRequest : List Label :=
  [.worker 0 .go, .accept .raw, .client 1 (.send (Request.new .acquireLease).toBytes)]
  ++ .replicate 4 (.worker 1 .go)

/-- The `-1.0` store is executed with a lease counted and no claim. -/
theorem store_while_blocking : ¬∀ s s' e, gate.Reach s → gate.step s e = some s' →
    stores s e = true →
    s.payload.counters.leaseCount = 0 ∨ 0 < s.payload.counters.passThroughCount := by
  intro hall
  obtain ⟨s, hr, hp⟩ := exists_reach_of_exec (T := gate) (s := .initial)
    (leaseGone ++ notifyArms 0 ++ timerRequests ++ leaseDuringRequest)
    (fun s => stores s (.timer .go) && (gate.step s (.timer .go)).isSome &&
      s.payload.counters.leaseCount == 1 && s.payload.counters.passThroughCount == 0)
    rfl (by decide)
  simp only [Bool.and_eq_true, beq_iff_eq] at hp
  obtain ⟨⟨⟨hst, hstep⟩, hl⟩, hp⟩ := hp
  obtain ⟨s', hs⟩ := Option.isSome_iff_exists.mp hstep
  have := hall s s' _ hr hs hst
  omega

end Gate
end SteamInputLease
