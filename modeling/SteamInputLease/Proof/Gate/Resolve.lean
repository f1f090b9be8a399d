import SteamInputLease.Gate.Discovery

/-!
# The transitions of `resolve_discovery_deadline` and `request_internal_discovery`, by name

The inversions of `resolveStep` and `requestStep`, in the manner of `Move`: what a step found in the
caches, what it left there, and where it ended.

A request is resolved by whoever asks for it, and three kinds of thread do: a worker in its
notification, the timer thread behind its deadline, and the resolver thread that a reply has
spawned. They share this one step function, so its cases are taken apart here once. The caches
before and behind a step are both in the index of a constructor, since what another thread may have
stored between two steps is exactly what the results about requests are about.
-/

namespace SteamInputLease
namespace Gate

open Recovery

/-- The ways `resolve_discovery_deadline` can step from caches `c`. -/
inductive ResolveMove (c : Caches) : ResolvePc → Caches → ResolvePc ⊕ Option Nat → Prop
  | known {rt : RuntimeRecoveryLayout} (hl : c.recoveryLayout = some rt) :
      ResolveMove c .layout c (.inl (.cached rt))
  | spent (hl : c.recoveryLayout = none) : ResolveMove c .layout c (.inr none)
  | resolve (hl : c.recoveryLayout = none) : ResolveMove c .layout c (.inl .resolving)
  | resolved {rt : RuntimeRecoveryLayout} :
      ResolveMove c .resolving { c with recoveryLayout := some (c.recoveryLayout.getD rt) }
        (.inl (.cached (c.recoveryLayout.getD rt)))
  | unresolved {n : UInt32} :
      ResolveMove c .resolving { c with recoveryLayoutAttempts := n } (.inr none)
  | valid {rt : RuntimeRecoveryLayout} (ha : c.hidThreadAddress ≠ 0) :
      ResolveMove c (.cached rt) c
        (.inr (some (c.hidThreadAddress + rt.layout.discoveryDeadlineOffset)))
  | exhausted {rt : RuntimeRecoveryLayout} :
      ResolveMove c (.cached rt) { c with hidThreadAddress := 0 } (.inr none)
  | sweep {rt : RuntimeRecoveryLayout} :
      ResolveMove c (.cached rt) { c with hidThreadAddress := 0 } (.inl (.scan rt))
  | elected {rt : RuntimeRecoveryLayout} {a : Nat} :
      ResolveMove c (.scan rt) { c with hidThreadAddress := a, hidThreadAttempts := 0 }
        (.inr (some (a + rt.layout.discoveryDeadlineOffset)))
  | notElected {rt : RuntimeRecoveryLayout} {n : UInt32} :
      ResolveMove c (.scan rt) { c with hidThreadAttempts := n } (.inr none)

theorem resolveStep_move {b : Bool} {c c' : Caches} {r : ResolvePc} {ch : Choice}
    {x : ResolvePc ⊕ Option Nat} (h : resolveStep b c r ch = some (c', x)) :
    ResolveMove c r c' x := by
  unfold resolveStep at h
  split at h
  case h_1 =>
    split at h
    · next hl => cases h; exact .known hl
    · next hl => split at h <;> cases h <;> first | exact .spent hl | exact .resolve hl
  case h_2 => cases h; exact .resolved
  case h_3 => cases h; exact .unresolved
  case h_4 =>
    split at h
    · next hv =>
      cases h
      exact .valid (by simp_all)
    · split at h <;> cases h <;> first | exact .exhausted | exact .sweep
  case h_5 => cases h; exact .elected
  case h_6 => cases h; exact .notElected
  case h_7 => cases h

/-- The ways `request_internal_discovery(true)` can step. -/
inductive RequestMove (c : Caches) : RequestPc → Caches → RequestPc ⊕ Bool → Prop
  | resolving {r r' : ResolvePc} {c' : Caches} (h : ResolveMove c r c' (.inl r')) :
      RequestMove c (.resolve r) c' (.inl (.resolve r'))
  | aligned {r : ResolvePc} {c' : Caches} {d : Nat} (h : ResolveMove c r c' (.inr (some d)))
      (hd : d % 8 = 0) : RequestMove c (.resolve r) c' (.inl (.store d))
  | refused {r : ResolvePc} {c' : Caches} {x : Option Nat} (h : ResolveMove c r c' (.inr x)) :
      RequestMove c (.resolve r) c' (.inr false)
  | stored {d : Nat} : RequestMove c (.store d) c (.inr true)

theorem requestStep_move {c c' : Caches} {r : RequestPc} {ch : Choice} {x : RequestPc ⊕ Bool}
    (h : requestStep c r ch = some (c', x)) : RequestMove c r c' x := by
  unfold requestStep at h
  split at h
  case h_1 r ch =>
    split at h
    · next hr => cases h; exact .resolving (resolveStep_move hr)
    · next d hr =>
      cases h
      by_cases hd : d % 8 = 0
      · rw [if_pos hd]
        exact .aligned (resolveStep_move hr) hd
      · rw [if_neg hd]
        exact .refused (resolveStep_move hr)
    · next hr => cases h; exact .refused (resolveStep_move hr)
    · cases h
  case h_2 => cases h; exact .stored
  case h_3 => cases h

end Gate
end SteamInputLease
