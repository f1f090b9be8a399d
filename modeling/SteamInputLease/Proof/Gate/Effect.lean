import SteamInputLease.Gate.Ledger
import SteamInputLease.Proof.Gate.Move

/-!
# What one worker step does to the counters and to `OWNERSHIP_TRANSITION`

`client_thread` has some forty transitions and six effects: a step reads the first message, is
quiet, enters or leaves a section, grants a unit or gives one back. `Move.effect` is that
classification; every result about the counters is derived from it without looking at the program
counters again.

What an effect says is measured against the standing of a connection, which is computed from its
program counter and from nothing else: it has not asked yet, asks for a unit or is only answered,
owns one, has given it back, or has ended. So a case of `Move.effect` is a standing before, a
standing after and at most one unit more or less on one counter. The branches of the first message
are settled before the cases, since the message may ask for a unit of either kind or for none.
-/

namespace SteamInputLease
namespace Gate

open Lib Protocol Recovery

/-! ## The branches of the first message -/

theorem dispatch_cases (r : ReadFile) :
    WorkerPc.dispatch r = .capabilities (.initial .invalidRequest none) ∨
    (r.valid = true ∧ r.request.command = Command.acquireLease.code ∧
      WorkerPc.dispatch r = .ensureHooks) ∨
    (r.valid = true ∧ r.request.command = Command.acquirePassThrough.code ∧
      WorkerPc.dispatch r = .lockAcquire .passThrough) ∨
    (r.valid = true ∧ r.request.command = Command.queryStatus.code ∧
      WorkerPc.dispatch r = .capabilities (.initial .ok none)) := by
  unfold WorkerPc.dispatch
  cases hv : r.valid with
  | false => exact .inl (by simp)
  | true =>
    by_cases h₁ : r.request.command = Command.acquireLease.code
    · exact .inr (.inl ⟨rfl, h₁, by simp [h₁]⟩)
    by_cases h₂ : r.request.command = Command.acquirePassThrough.code
    · exact .inr (.inr (.inl ⟨rfl, h₂, by simp [h₂, Command.code]⟩))
    by_cases h₃ : r.request.command = Command.queryStatus.code
    · exact .inr (.inr (.inr ⟨rfl, h₃, by simp [h₃, Command.code]⟩))
    exact .inl (by simp [h₁, h₂, h₃])

/-- A first message asks for the unit its command names, or is only answered; the answer is
    `Ok` for a status request alone. -/
theorem standing_dispatch (r : ReadFile) :
    (WorkerPc.dispatch r).standing = .answered .invalidRequest ∨
    ((WorkerPc.dispatch r).standing = .answered .ok ∧ r.valid = true ∧
      r.request.command = Command.queryStatus.code) ∨
    ∃ o, (WorkerPc.dispatch r).standing = .asking o ∧ r.valid = true ∧
      r.request.command = (Owner.acquireCommand o).code := by
  rcases dispatch_cases r with h | ⟨hv, hc, h⟩ | ⟨hv, hc, h⟩ | ⟨hv, hc, h⟩
  · exact .inl (by rw [h]; rfl)
  · exact .inr (.inr ⟨.lease, by rw [h]; rfl, hv, hc⟩)
  · exact .inr (.inr ⟨.passThrough, by rw [h]; rfl, hv, hc⟩)
  · exact .inr (.inl ⟨by rw [h]; rfl, hv, hc⟩)

@[simp] theorem stage_dispatch (r : ReadFile) : (WorkerPc.dispatch r).stage ≠ .inSection := by
  rcases dispatch_cases r with h | ⟨_, _, h⟩ | ⟨_, _, h⟩ | ⟨_, _, h⟩ <;> rw [h] <;>
    simp [WorkerPc.stage]

@[simp] theorem stage_sectionNext (sec : Section) : sec.next.stage ≠ .inSection := by
  cases sec with
  | granted o => simp [Section.next, WorkerPc.stage]
  | gaveBack e => cases e <;> simp [Section.next, WorkerPc.stage]

@[simp] theorem stage_replyNext (r : Reply) : r.next.stage ≠ .inSection := by
  cases r with
  | initial _ g => cases g <;> simp [Reply.next, WorkerPc.stage]
  | released => simp [Reply.next, WorkerPc.stage]

/-! ## The effects -/

/-- How a connection's standing moves while no counter does. -/
inductive Turn : Standing → Standing → Prop
  | same {a : Standing} : Turn a a
  | refused {o : Owner} : Turn (.asking o) (.answered .hookInstallFailed)
  | answeredEnds {result : ResultCode} : Turn (.answered result) .ended
  | returnedEnds : Turn .returned .ended

/-- Leaving a section moves the standing only where the worker ends with it. -/
theorem turn_sectionNext (sec : Section) : Turn sec.standing sec.next.standing := by
  cases sec with
  | granted o => exact .same
  | gaveBack e => cases e with
    | true => exact .same
    | false => exact .returnedEnds

/-- Answering ends the worker, unless the answer is to a grant. -/
theorem turn_replyNext (r : Reply) : Turn r.standing r.next.standing := by
  cases r with
  | initial _ g => cases g with
    | some o => exact .same
    | none => exact .answeredEnds
  | released => exact .returnedEnds

/-- What a step of worker `i` did. -/
inductive Effect (i : Nat) (p p' : Payload) (c c' : Connection) : Prop
  | read {r : ReadFile} {c₁ : Connection} (hpc : c.pc = .readRequest)
      (hr : c.nextRead = some (r, c₁)) (hk : p'.counters = p.counters)
      (hl : p'.ownershipTransition = p.ownershipTransition) (hpc' : c'.pc = .dispatch r)
  | quiet (hpc : c.pc ≠ .readRequest) (hk : p'.counters = p.counters)
      (hl : p'.ownershipTransition = p.ownershipTransition)
      (ht : Turn c.pc.standing c'.pc.standing)
      (hs : c'.pc.stage = .inSection ↔ c.pc.stage = .inSection)
  | enter (hpc : c.pc ≠ .readRequest) (hk : p'.counters = p.counters)
      (hfree : p.ownershipTransition = none) (hl : p'.ownershipTransition = some i)
      (ht : c'.pc.standing = c.pc.standing)
      (hs : c.pc.stage ≠ .inSection) (hs' : c'.pc.stage = .inSection)
  | leave (hk : p'.counters = p.counters) (hl : p'.ownershipTransition = none)
      (ht : Turn c.pc.standing c'.pc.standing)
      (hs : c.pc.stage = .inSection) (hs' : c'.pc.stage ≠ .inSection)
  | grant (o : Owner) (hk : p'.counters = p.counters.add 1 o)
      (hl : p'.ownershipTransition = p.ownershipTransition)
      (ha : c.pc.standing = .asking o) (ha' : c'.pc.standing = .owning o)
      (hs : c.pc.stage = .inSection) (hs' : c'.pc.stage = .inSection)
  | giveBack (o : Owner) (hk : p'.counters = p.counters.add (-1) o)
      (hl : p'.ownershipTransition = p.ownershipTransition)
      (ha : c.pc.standing = .owning o) (ha' : c'.pc.standing = .returned)
      (hs : c.pc.stage = .inSection) (hs' : c'.pc.stage = .inSection)

theorem Move.effect {i : Nat} {p p' : Payload} {c c' : Connection} (h : Move i p c p' c') :
    Effect i p p' c c' := by
  cases h with
  | read hpc hr => exact .read hpc hr rfl rfl rfl
  | lockAcquire hpc hfree | lockRelease hpc hfree =>
    exact .enter (by simp [hpc]) rfl hfree rfl (by rw [hpc]; rfl) (by simp [hpc, WorkerPc.stage])
      rfl
  | addLease hpc =>
    exact .grant .lease rfl rfl (by rw [hpc]; rfl) rfl (by rw [hpc]; rfl) rfl
  | addPassThrough hpc =>
    exact .grant .passThrough rfl rfl (by rw [hpc]; rfl) rfl (by rw [hpc]; rfl) rfl
  | giveBack hpc =>
    exact .giveBack _ rfl rfl (by rw [hpc]; rfl) rfl (by rw [hpc]; rfl) rfl
  | unlock hpc =>
    exact .leave rfl rfl (by rw [hpc]; exact turn_sectionNext _) (by rw [hpc]; rfl)
      (stage_sectionNext _)
  | written hpc _ | notWritten hpc =>
    exact .quiet (by simp [hpc]) rfl rfl (by rw [hpc]; exact turn_replyNext _)
      (iff_of_false (stage_replyNext _) (by simp [hpc, WorkerPc.stage]))
  | hooksRefused hpc _ | hooksFailed hpc _ =>
    exact .quiet (by simp [hpc]) rfl rfl (by rw [hpc]; exact .refused)
      (by simp [hpc, WorkerPc.stage])
  | hooksInstalled hpc _ _ =>
    exact .quiet (by simp [hpc]) rfl rfl (by rw [hpc]; exact .same) (by simp [hpc, WorkerPc.stage])
  | hooksReady hpc _ | readRelease hpc _ | leaseSweeps hpc _ | leaseQuiet hpc _
  | releaseSweeps hpc _ | releaseNotifies hpc _ | notifying hpc _ | notified hpc _
  | recoveryReady hpc _ | recoveryPending hpc _ =>
    exact .quiet (by simp [hpc]) rfl rfl (by rw [hpc]; exact .same) (by simp [hpc, WorkerPc.stage])
  | disconnect hpc | readBlocking hpc | passThroughNotifies hpc | passThroughQuiet hpc
  | readWasBlocking hpc | releaseQuiet hpc | discovered hpc | claimResolution hpc
  | resolverSpawned hpc | resolverNotSpawned hpc | readPassState hpc | readCounts hpc =>
    exact .quiet (by simp [hpc]) rfl rfl (by rw [hpc]; exact .same) (by simp [hpc, WorkerPc.stage])

end Gate
end SteamInputLease
