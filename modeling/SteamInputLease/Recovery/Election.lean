import SteamInputLease.Recovery.Memory

/-!
# Electing the running object

`select_progressing_candidate`, `elect_progressing_candidate` and `elect_running_hid_thread`. The
clock is the number of rounds that begin before the observation window closes.
-/

namespace SteamInputLease
namespace Recovery

open Lib

/-- `SchedulerSample`. -/
structure SchedulerSample where
  deadlineBits : Nat
  counter : Nat
  deriving DecidableEq, Repr

/-- The loop over the two observations of each candidate. -/
def progressLoop : List (SchedulerSample × SchedulerSample) → Nat → Option Nat → Option Nat
  | [], _, progressing => progressing
  | (first, second) :: rest, index, progressing =>
    if first ≠ second then
      match progressing with
      | some _ => none
      | none => progressLoop rest (index + 1) (some index)
    else progressLoop rest (index + 1) progressing

/-- `select_progressing_candidate`. -/
def selectProgressingCandidate (before after : List SchedulerSample) : Option Nat :=
  if before = [] ∨ before.length ≠ after.length then none
  else progressLoop (before.zip after) 0 none

/-- `Election`. -/
inductive Election
  | elected (index : Nat)
  | unreadable
  | ambiguous (before : List SchedulerSample) (last : Option (List SchedulerSample))
  deriving DecidableEq, Repr

section

variable {m : Type → Type} [Monad m]

/-- The rounds of the election that are left. -/
def electionLoop (sample : m (Option (List SchedulerSample))) (before : List SchedulerSample) :
    Nat → Option (List SchedulerSample) → m Election
  | 0, last => pure (.ambiguous before last)
  | n + 1, _ => do
    match ← sample with
    | none => pure .unreadable
    | some after =>
      match selectProgressingCandidate before after with
      | some index => pure (.elected index)
      | none => electionLoop sample before n (some after)

/-- `elect_progressing_candidate`. -/
def electProgressingCandidate (sample : m (Option (List SchedulerSample))) (nudge : m Unit)
    (rounds : Nat) : m Election := do
  match ← sample with
  | none => pure .unreadable
  | some before =>
    nudge
    electionLoop sample before rounds none

variable (memory : ProcessMemory m) (layout : RecoveryLayout)

/-- The scheduler fields of one candidate. -/
def sampleCandidate (candidate : Nat) : m (Option SchedulerSample) := do
  match ← readExact memory (candidate + layout.discoveryDeadlineOffset) 8 with
  | none => pure none
  | some deadline =>
    match ← readExact memory (candidate + layout.discoveryCounterOffset) 4 with
    | none => pure none
    | some counter => pure (some ⟨leNat deadline, leNat counter⟩)

/-- The fields of every candidate, up to the first that cannot be read. -/
def sampleCandidates : List Nat → m (Option (List SchedulerSample))
  | [] => pure (some [])
  | candidate :: rest => do
    match ← sampleCandidate memory layout candidate with
    | none => pure none
    | some sample =>
      let samples ← sampleCandidates rest
      pure (samples.map (sample :: ·))

/-- One observation. -/
def observe (candidates : List Nat) : m (Option (List SchedulerSample)) := do
  let samples ← sampleCandidates memory layout candidates
  memory.note .sampled
  pure samples

/-- `elect_running_hid_thread`. -/
def electRunningHidThread (candidates : List Nat) (nudge : m Unit) (rounds : Nat) : m Election :=
  electProgressingCandidate (observe memory layout candidates) nudge rounds

end

/-- A field that holds NaN in both observations has not moved. -/
example : selectProgressingCandidate [⟨0x7ff8000000000000, 1⟩, ⟨5, 1⟩]
    [⟨0x7ff8000000000000, 1⟩, ⟨6, 1⟩] = some 1 := by decide

end Recovery
end SteamInputLease
