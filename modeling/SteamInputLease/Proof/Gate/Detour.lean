import SteamInputLease.Gate.Detour
import SteamInputLease.Proof.Gate.Accounting

/-!
# What a detour's `blocking()` says

Between its two loads a detour relies on the claims alone: as long as a pass-through claim is held,
whatever becomes of the lease it has seen goes unnoticed. Ending the last claim with no lease left
is the one step after which the second load answers for a block that never was.

The detour is put beside the payload and an observer beside both, which notes whether Steam was
blocked at some moment since the call began. The payload does not notice either of them
(`detour_simulation`). `Watched` is what is known between the loads: a block was noted, or a claim
that explains why the lease seen was no block is still held. The only step that breaks the second is
named by the condition, and it is shown as well that the condition cannot be given up: right after
such a step the call answers wrongly, whatever came before.
-/

namespace SteamInputLease
namespace Gate

open Lib System Protocol

/-! ## Steps that end the last claim -/

theorem endsLastClaim_worker {s : State} {i : Nat} {ch : Choice} {c : Connection}
    (hc : s.conns[i]? = some c) : s.endsLastClaim (.worker i ch) = true ↔
      (∃ explicit was, c.pc = .releaseRead .passThrough explicit was) ∧
        s.payload.counters.passThroughCount = 1 := by
  unfold State.endsLastClaim
  dsimp only
  rw [pc_eq hc]
  split
  · next explicit was hpc =>
    rw [beq_iff_eq]
    exact ⟨fun h => ⟨⟨explicit, was, hpc⟩, h⟩, fun h => h.2⟩
  · next hpc =>
    constructor
    · intro h
      cases h
    · intro h
      obtain ⟨⟨explicit, was, h⟩, _⟩ := h
      exact absurd h (hpc explicit was)

/-- `PASS_THROUGH_COUNT` falls to zero in one step of one worker, and leases stay as they are. -/
theorem ends_last_claim {s s' : State} {e : Label} (hb : Balanced s)
    (hs : gate.step s e = some s') (hne : s.payload.counters.passThroughCount ≠ 0)
    (hzero : s'.payload.counters.passThroughCount = 0) :
    s.endsLastClaim e = true ∧
      s'.payload.counters.leaseCount = s.payload.counters.leaseCount := by
  cases e with
  | worker i ch =>
    obtain ⟨c, p, c', hc, hm, rfl⟩ := step_worker hs
    have hnonneg : 0 ≤ s.payload.counters.passThroughCount := hb.nonneg .passThrough
    have hlt : s.payload.counters.passThroughCount < 2 ^ 31 := hb.count_lt .passThrough
    cases hm with
    | addPassThrough hpc =>
      have hroom := hb.room hc (by simp [Connection.live, hpc])
        (by rw [hpc]; rfl : c.pc.standing = .asking .passThrough)
      have hadd := Counters.add_one (hb.nonneg .passThrough) hroom .passThrough
      rw [Counters.count, Counters.count, oneUnit, if_pos rfl] at hadd
      have hzero : (s.payload.counters.add 1 .passThrough).passThroughCount = 0 := hzero
      omega
    | @giveBack o explicit was hpc =>
      cases o with
      | lease => exact absurd hzero hne
      | passThrough =>
        have hsub := Counters.sub_one (hb.nonneg .passThrough) (hb.count_lt .passThrough)
          .passThrough
        rw [Counters.count, Counters.count, oneUnit, if_pos rfl] at hsub
        have hzero : (s.payload.counters.add (-1) .passThrough).passThroughCount = 0 := hzero
        have hone : s.payload.counters.passThroughCount = 1 := by omega
        exact ⟨(endsLastClaim_worker hc).mpr ⟨⟨explicit, was, hpc⟩, hone⟩, rfl⟩
    | _ => exact absurd hzero hne
  | accept h | client i a | timer ch | resolver j ch | tick ms =>
    rw [(step_background hs (by simp)).1] at hzero
    exact absurd hzero hne

/-- The step that ends the last claim leaves none, and the leases as they are. -/
theorem endsLastClaim_step {s s' : State} {e : Label} (hb : Balanced s)
    (hs : gate.step s e = some s') (he : s.endsLastClaim e = true) :
    s'.payload.counters.passThroughCount = 0 ∧
      s'.payload.counters.leaseCount = s.payload.counters.leaseCount := by
  cases e with
  | worker i ch =>
    obtain ⟨c, p, c', hc, hm, rfl⟩ := step_worker hs
    obtain ⟨⟨explicit, was, hpc⟩, hone⟩ := (endsLastClaim_worker hc).mp he
    have hsub := Counters.sub_one (hb.nonneg .passThrough) (hb.count_lt .passThrough) .passThrough
    rw [Counters.count, Counters.count, oneUnit, if_pos rfl] at hsub
    cases hm with
    | giveBack hpc' =>
      rw [hpc] at hpc'
      cases hpc'
      refine ⟨?_, rfl⟩
      show (s.payload.counters.add (-1) .passThrough).passThroughCount = 0
      omega
    | _ => simp_all
  | accept h | client i a | timer ch | resolver j ch | tick ms => cases he

/-! ## Calls -/

/-- The payload with the detour, and what the observer noted. -/
abbrev watchedDetour : System (DetourState × Bool) DetourLabel :=
  detour.observed false blockObserve

/-- One step of the detour's system, by label. -/
theorem step_detour {s s' : DetourState} {e : DetourLabel} (hs : detour.step s e = some s') :
    (∃ g e', e = .gate e' ∧ gate.step s.gate e' = some g ∧ s' = { s with gate := g }) ∨
      (e = .call ∧ s.pc.running = false ∧ s' = { s with pc := .entered }) ∨
      (e = .loadLeaseCount ∧ s.pc = .entered ∧
        s' = { s with
          pc := if 0 < s.gate.payload.counters.leaseCount then .loaded else .returned false }) ∨
      (e = .loadPassThroughCount ∧ s.pc = .loaded ∧
        s' = { s with
          pc := .returned (decide (s.gate.payload.counters.passThroughCount = 0)) }) := by
  cases e with
  | gate e' =>
    obtain ⟨g, hg, rfl⟩ := Option.map_eq_some_iff.mp hs
    exact .inl ⟨g, e', rfl, hg, rfl⟩
  | call =>
    refine .inr (.inl ⟨rfl, ?_⟩)
    simp only [detour, detourStep] at hs
    split at hs
    · cases hs
    · next hrun =>
      cases hs
      exact ⟨by simpa using hrun, rfl⟩
  | loadLeaseCount =>
    refine .inr (.inr (.inl ⟨rfl, ?_⟩))
    simp only [detour, detourStep] at hs
    split at hs
    · next hpc =>
      cases hs
      exact ⟨hpc, rfl⟩
    · cases hs
  | loadPassThroughCount =>
    refine .inr (.inr (.inr ⟨rfl, ?_⟩))
    simp only [detour, detourStep] at hs
    split at hs
    · next hpc =>
      cases hs
      exact ⟨hpc, rfl⟩
    · cases hs

/-- With the detour beside it, the payload runs as it does alone. -/
theorem detour_simulation : Simulation detour Gate.gate fun s g => s.gate = g where
  init s h := ⟨s.gate, by rw [show s = .initial from h]; rfl, rfl⟩
  step s e s' g _ hg hs := by
    subst hg
    obtain ⟨g, e', _, hstep, rfl⟩ | ⟨_, _, rfl⟩ | ⟨_, _, rfl⟩ | ⟨_, _, rfl⟩ := step_detour hs
    · refine ⟨[e'], g, ?_, rfl⟩
      show (Gate.gate.step s.gate e').bind some = some g
      rw [hstep]
      rfl
    all_goals exact ⟨[], s.gate, rfl, rfl⟩

theorem balanced_detour {C : DetourState × Bool → DetourLabel → Prop} {p : DetourState × Bool}
    (hr : watchedDetour.ReachUnder C p) : Balanced p.1.gate := by
  have hdetour : detour.Reach p.1 := ReachUnder.of_observed (C := fun _ _ => True) hr.reach
  obtain ⟨g, hg, hsame⟩ := detour_simulation.reach hdetour
  rw [hsame]
  exact balanced_of_reach hg

/-- What is known of a call: Steam being blocked is noted, and from the first load on either it
    was noted or a claim is still held. -/
structure Watched (p : DetourState × Bool) : Prop where
  running : p.1.pc.running = true → p.1.gate.blocking = true → p.2 = true
  loaded : p.1.pc = .loaded → p.2 = true ∨ p.1.gate.payload.counters.passThroughCount ≠ 0
  returned : p.1.pc = .returned true → p.2 = true

/-- A step of the payload keeps it, unless it ends the last claim behind the detour's back. -/
theorem Watched.gate {s : DetourState} {seen : Bool} {e : Label} {g : State}
    (hw : Watched (s, seen)) (hb : Balanced s.gate) (hg : gate.step s.gate e = some g)
    (hkept : handoffKept (s, seen) (.gate e) = true) :
    Watched ({ s with gate := g }, blockObserve seen s (.gate e) { s with gate := g }) := by
  show Watched ({ s with gate := g }, if s.pc.running then seen || g.blocking else seen)
  cases hrun : s.pc.running with
  | false =>
    refine ⟨fun h => ?_, fun h => ?_, fun h => ?_⟩
    · rw [show s.pc.running = true from h] at hrun
      cases hrun
    · rw [show s.pc = .loaded from h] at hrun
      cases hrun
    · exact hw.returned h
  | true =>
    rw [if_pos rfl]
    refine ⟨fun _ hon => ?_, fun hpc => ?_, fun h => ?_⟩
    · rw [show g.blocking = true from hon, Bool.or_true]
    · have hpc : s.pc = .loaded := hpc
      rcases hw.loaded hpc with hseen | hne
      · exact .inl (by rw [show seen = true from hseen, Bool.true_or])
      by_cases hzero : g.payload.counters.passThroughCount = 0
      · -- the last claim has ended, so a lease is left: Steam is blocked now
        obtain ⟨hends, hlease⟩ := ends_last_claim hb hg hne hzero
        cases hseen : seen with
        | true => exact .inl rfl
        | false =>
          have hleft : s.gate.payload.counters.leaseCount ≠ 0 := by
            intro h0
            have hsplit : handoffKept (s, seen) (.gate e) = false := by
              simp [handoffKept, hpc, hseen, hends, h0]
            rw [hsplit] at hkept
            cases hkept
          have hnonneg : 0 ≤ s.gate.payload.counters.leaseCount := hb.nonneg .lease
          refine .inl ?_
          rw [Bool.false_or]
          apply Counters.blocking_iff.mpr
          exact ⟨by omega, hzero⟩
      · exact .inr hzero
    · rw [show s.pc = .returned true from h] at hrun
      cases hrun

theorem Watched.step {p p' : DetourState × Bool} {e : DetourLabel} (hw : Watched p)
    (hb : Balanced p.1.gate) (hkept : handoffKept p e = true)
    (ho : watchedDetour.step p e = some p') : Watched p' := by
  obtain ⟨s, seen⟩ := p
  obtain ⟨s', seen'⟩ := p'
  obtain ⟨hs, hseen⟩ := observed_step.mp ho
  obtain rfl : seen' = blockObserve seen s e s' := hseen
  obtain ⟨g, e', rfl, hg, rfl⟩ | ⟨rfl, _, rfl⟩ | ⟨rfl, hpc, rfl⟩ | ⟨rfl, hpc, rfl⟩ :=
    step_detour hs
  · exact hw.gate hb hg hkept
  -- a new call has seen what holds as it begins
  · refine ⟨fun _ hon => hon, fun h => ?_, fun h => ?_⟩
    · cases h
    · cases h
  · -- a lease was there: with no claim beside it, Steam is blocked right now
    have hnow : s.gate.blocking = true → seen = true := hw.running (by rw [hpc]; rfl)
    show Watched (_, if s.pc.running then seen || s.gate.blocking else seen)
    rw [hpc]
    show Watched (_, seen || s.gate.blocking)
    split
    · next hlease =>
      refine ⟨fun _ hon => ?_, fun _ => ?_, fun h => ?_⟩
      · rw [hnow hon, Bool.true_or]
      · by_cases hzero : s.gate.payload.counters.passThroughCount = 0
        · exact .inl (by rw [hnow (Counters.blocking_iff.mpr ⟨hlease, hzero⟩), Bool.true_or])
        · exact .inr hzero
      · cases h
    · refine ⟨fun h => ?_, fun h => ?_, fun h => ?_⟩
      · cases h
      · cases h
      · cases h
  · show Watched (_, if s.pc.running then seen || s.gate.blocking else seen)
    rw [hpc]
    show Watched (_, seen || s.gate.blocking)
    refine ⟨fun h => ?_, fun h => ?_, fun h => ?_⟩
    · cases h
    · cases h
    · have hzero : s.gate.payload.counters.passThroughCount = 0 := by
        simpa using h
      rcases hw.loaded hpc with hseen | hne
      · rw [show seen = true from hseen, Bool.true_or]
      · exact absurd hzero hne

theorem watched_of_reach {p : DetourState × Bool}
    (hr : watchedDetour.ReachUnder (fun p e => handoffKept p e = true) p) : Watched p := by
  refine ReachUnder.invariant (I := Watched) ?_ ?_ hr
  · intro p hp
    have hpc : p.1.pc = .idle := by
      rw [show p.1 = DetourState.initial from hp.1]
      rfl
    refine ⟨fun h => ?_, fun h => ?_, fun h => ?_⟩
    · rw [hpc] at h
      cases h
    · rw [hpc] at h
      cases h
    · rw [hpc] at h
      cases h
  · intro p e p' hr hw hkept ho
    exact hw.step (balanced_detour hr) hkept ho

/-- **A detour sees only blocks that existed**, in every run in which no last claim ends without
    a lease between the two loads of a call that has not met a block; and right after such a step
    the second load answers for a block that never was. -/
theorem block_seen (p : DetourState × Bool) :
    (watchedDetour.ReachUnder (fun p e => handoffKept p e = true) p →
      p.1.pc = .returned true → p.2 = true) ∧
    ∀ e p', watchedDetour.Reach p → handoffKept p e = false →
      watchedDetour.step p e = some p' →
        ∃ q, watchedDetour.step p' .loadPassThroughCount = some q ∧
          q.1.pc = .returned true ∧ q.2 = false := by
  constructor
  · intro hr
    exact (watched_of_reach hr).returned
  · intro e p' hr hsplit ho
    obtain ⟨s, seen⟩ := p
    cases e with
    | gate e =>
      simp only [handoffKept, Bool.not_eq_false', Bool.and_eq_true, beq_iff_eq,
        Bool.not_eq_true'] at hsplit
      obtain ⟨⟨⟨hpc, hseen⟩, hends⟩, hlease⟩ := hsplit
      have hpc : s.pc = .loaded := hpc
      have hlease : s.gate.payload.counters.leaseCount = 0 := hlease
      obtain ⟨g, hg, hs'⟩ := Option.map_eq_some_iff.mp (observed_step.mp ho).1
      obtain ⟨hzero, hsame⟩ := endsLastClaim_step (balanced_detour hr) hg hends
      have hoff : g.blocking = false := by
        rw [Bool.eq_false_iff]
        intro hon
        have hpos := (Counters.blocking_iff.mp hon).1
        rw [hsame, hlease] at hpos
        cases hpos
      -- the state behind the step: no block now, and none was seen before it
      have hstate : p' = ({ s with gate := g }, false) := by
        refine Prod.ext hs'.symm ?_
        rw [(observed_step.mp ho).2, ← hs']
        show (if s.pc.running then seen || g.blocking else seen) = false
        rw [hpc, show seen = false from hseen, hoff]
        rfl
      rw [hstate]
      refine ⟨({ gate := g, pc := .returned true }, false), ?_, rfl, rfl⟩
      apply observed_step.mpr
      constructor
      · simp [detour, detourStep, hpc, hzero]
      · show false = if s.pc.running then false || g.blocking else false
        rw [hpc, hoff]
        rfl
    | call | loadLeaseCount | loadPassThroughCount => cases hsplit

/-! ## The final handoff -/

/-- The worker of connection `i` builds and writes its first response. -/
def answers (i : Nat) : List Label :=
  [.worker i (.flag false), .worker i (.flag false), .worker i .go, .worker i (.counts 0 0),
    .worker i (.flag true)]

/-- A claim is taken, and a lease under it. -/
def handedOff : List Label :=
  List.flatten
    [[.accept .raw, .client 0 (.send (Request.new .acquirePassThrough).toBytes), .accept .raw,
      .client 1 (.send (Request.new .acquireLease).toBytes)],
    List.replicate 6 (.worker 0 .go), [.worker 1 .go, .worker 1 (.install true false)],
    List.replicate 4 (.worker 1 .go), answers 0, answers 1]

/-- Connection `i` closes, and its worker goes on to the end of its section. -/
def closes (i : Nat) : List Label := .client i .close :: .replicate 6 (.worker i .go)

/-- The lease ends and then the claim, both between the two loads: Steam was never blocked, and the
    detour denies. -/
theorem handoff_denied : ∃ p, watchedDetour.Reach p ∧ p.1.pc = .returned true ∧ p.2 = false := by
  obtain ⟨p, hr, hp⟩ := exists_reach_of_exec (T := watchedDetour) (s := (.initial, false))
    (handedOff.map DetourLabel.gate ++ [DetourLabel.call, DetourLabel.loadLeaseCount] ++
      (closes 1 ++ closes 0).map DetourLabel.gate ++ [DetourLabel.loadPassThroughCount])
    (fun p => p.1.pc == .returned true && !p.2) ⟨rfl, rfl⟩ (by decide +kernel)
  simp only [Bool.and_eq_true, beq_iff_eq, Bool.not_eq_true'] at hp
  exact ⟨p, hr, hp⟩

/-- The claim ends first: the detour meets the block that follows. -/
theorem block_seen_claim_first : ∃ p, watchedDetour.Reach p ∧ p.1.pc = .returned true ∧
    p.2 = true := by
  obtain ⟨p, hr, hp⟩ := exists_reachUnder_of_exec (T := watchedDetour) (s := (.initial, false))
    handoffKept
    (handedOff.map DetourLabel.gate ++ [DetourLabel.call, DetourLabel.loadLeaseCount] ++
      (closes 0).map DetourLabel.gate ++ [DetourLabel.loadPassThroughCount])
    (fun p => p.1.pc == .returned true) ⟨rfl, rfl⟩ (by decide +kernel)
  rw [beq_iff_eq] at hp
  exact ⟨p, hr.reach, hp, (block_seen p).1 hr hp⟩

end Gate
end SteamInputLease
