import SteamInputLease.Lib.Hoare
import SteamInputLease.Recovery.Election

/-!
# What an election shows

An elected candidate moved, against its first reading, in the observation that elected it, and no
other candidate did there. Earlier observations decide nothing: each is compared with the first
reading alone, so movement that is undone before the electing observation leaves no trace.

The monad of the memory is a parameter of the election, and here it is a state: what the k-th
observation sees is what reading gives in the k-th state, with the caller's nudge behind the first
one. `electionLoop_elected` goes through the rounds by induction and keeps, of each observation that
was passed over, only that it showed no movement or movement in several. Two candidates that move
together and one that then goes back are therefore enough to have one of them elected that did not
move alone throughout, and the run at the end is such a one.
-/

namespace SteamInputLease
namespace Recovery

open Lib

/-! ## Two observations -/

/-- The candidate at `j` differs between the two observations. -/
def Differs (before after : List SchedulerSample) (j : Nat) : Prop :=
  ∃ a b, before[j]? = some a ∧ after[j]? = some b ∧ a ≠ b

theorem differs_iff_zip {before after : List SchedulerSample} {j : Nat} :
    Differs before after j ↔ ∃ p, (before.zip after)[j]? = some p ∧ p.1 ≠ p.2 := by
  constructor
  · intro h
    obtain ⟨a, b, ha, hb, hne⟩ := h
    exact ⟨(a, b), by rw [List.getElem?_zip_eq_some]; exact ⟨ha, hb⟩, hne⟩
  · intro h
    obtain ⟨⟨a, b⟩, hp, hne⟩ := h
    rw [List.getElem?_zip_eq_some] at hp
    exact ⟨a, b, hp.1, hp.2, hne⟩

/-- Once one candidate has moved, the loop answers it unless another one has. -/
theorem progressLoop_some {k : Nat} : ∀ (pairs : List (SchedulerSample × SchedulerSample))
    (index : Nat), progressLoop pairs index (some k) = some k ∧
        (∀ p ∈ pairs, p.1 = p.2) ∨
      progressLoop pairs index (some k) = none ∧ ∃ p ∈ pairs, p.1 ≠ p.2 := by
  intro pairs
  induction pairs with
  | nil =>
    intro index
    exact .inl ⟨rfl, fun p hp => absurd hp List.not_mem_nil⟩
  | cons p rest ih =>
    obtain ⟨first, second⟩ := p
    intro index
    rw [progressLoop]
    by_cases hne : first ≠ second
    · rw [if_pos hne]
      exact .inr ⟨rfl, _, List.mem_cons_self, hne⟩
    · rw [if_neg hne]
      rcases ih (index + 1) with ⟨h, hall⟩ | ⟨h, p, hp, hp'⟩
      · refine .inl ⟨h, fun p hp => ?_⟩
        rcases List.mem_cons.mp hp with rfl | hp
        · exact not_not.mp hne
        · exact hall p hp
      · exact .inr ⟨h, p, List.mem_cons_of_mem _ hp, hp'⟩

/-- The loop answers the only pair that differs. -/
theorem progressLoop_none {r : Nat} : ∀ (pairs : List (SchedulerSample × SchedulerSample))
    (index : Nat), progressLoop pairs index none = some r ↔
      ∃ i, r = index + i ∧ ∀ j, (∃ p, pairs[j]? = some p ∧ p.1 ≠ p.2) ↔ j = i := by
  intro pairs
  induction pairs with
  | nil =>
    intro index
    refine iff_of_false (by rintro ⟨⟩) ?_
    intro hm
    obtain ⟨i, _, h⟩ := hm
    obtain ⟨p, hp, _⟩ := (h i).mpr rfl
    cases hp
  | cons p rest ih =>
    obtain ⟨first, second⟩ := p
    intro index
    have hzero : (∃ p, ((first, second) :: rest)[0]? = some p ∧ p.1 ≠ p.2) ↔ first ≠ second := by
      simp
    have hsucc : ∀ j, ((first, second) :: rest)[j + 1]? = rest[j]? := fun j => rfl
    rw [progressLoop]
    by_cases hne : first ≠ second
    -- the first pair differs, so the rest may hold no other
    · rw [if_pos hne]
      rcases progressLoop_some (k := index) rest (index + 1) with ⟨h, hall⟩ | ⟨h, p, hp, hp'⟩
      · rw [h, Option.some.injEq]
        constructor
        · rintro rfl
          refine ⟨0, rfl, fun j => ?_⟩
          cases j with
          | zero => exact iff_of_true (hzero.mpr hne) rfl
          | succ j =>
            rw [hsucc]
            refine iff_of_false ?_ (Nat.succ_ne_zero j)
            intro hm
            obtain ⟨p, hp, hp'⟩ := hm
            exact hp' (hall p (List.mem_of_getElem? hp))
        · intro hm
          obtain ⟨i, rfl, hi⟩ := hm
          have h0 : 0 = i := (hi 0).mp (hzero.mpr hne)
          rw [← h0]
          rfl
      · rw [h]
        refine iff_of_false (by rintro ⟨⟩) ?_
        intro hm
        obtain ⟨i, _, hi⟩ := hm
        obtain ⟨j, hj⟩ := List.getElem?_of_mem hp
        have h0 : 0 = i := (hi 0).mp (hzero.mpr hne)
        have h1 : j + 1 = i := (hi (j + 1)).mp ⟨p, hj, hp'⟩
        omega
    -- the first pair is equal, so the answer is that of the rest, one further on
    · rw [if_neg hne, ih]
      constructor
      · intro hm
        obtain ⟨i, rfl, hi⟩ := hm
        refine ⟨i + 1, by omega, fun j => ?_⟩
        cases j with
        | zero => exact iff_of_false (fun h => hne (hzero.mp h)) (Nat.succ_ne_zero i).symm
        | succ j => rw [hsucc, hi, Nat.add_right_cancel_iff]
      · intro hm
        obtain ⟨i, rfl, hi⟩ := hm
        cases i with
        | zero => exact absurd (hzero.mp ((hi 0).mpr rfl)) hne
        | succ i =>
          refine ⟨i, by omega, fun j => ?_⟩
          rw [← hsucc, hi, Nat.add_right_cancel_iff]

/-- A candidate is selected when it is the only one that differs. -/
theorem select_eq_some {before after : List SchedulerSample}
    (hlen : before.length = after.length) {i : Nat} :
    selectProgressingCandidate before after = some i ↔ ∀ j, Differs before after j ↔ j = i := by
  rw [selectProgressingCandidate]
  by_cases hnil : before = []
  · rw [if_pos (.inl hnil), hnil]
    refine iff_of_false (by rintro ⟨⟩) fun h => ?_
    obtain ⟨_, _, ha, _⟩ := (h i).mpr rfl
    cases ha
  · rw [if_neg (by rintro (h | h); exacts [hnil h, h hlen]), progressLoop_none]
    simp only [Nat.zero_add, exists_eq_left', differs_iff_zip]

/-- Otherwise none of them differs, or several do. -/
theorem select_eq_none {before after : List SchedulerSample}
    (hlen : before.length = after.length) (h : selectProgressingCandidate before after = none) :
    (∀ j, ¬Differs before after j) ∨
      ∃ j j', j ≠ j' ∧ Differs before after j ∧ Differs before after j' := by
  by_contra hnot
  rw [not_or, not_forall] at hnot
  obtain ⟨⟨i, hi⟩, honly⟩ := hnot
  have hsome : selectProgressingCandidate before after = some i := by
    rw [select_eq_some hlen]
    intro j
    constructor
    · intro hj
      by_contra hne
      exact honly ⟨j, i, hne, hj, not_not.mp hi⟩
    · intro hj
      exact hj ▸ not_not.mp hi
  rw [h] at hsome
  cases hsome

/-! ## The observations of a run -/

section

variable {σ : Type} (sample : StateM σ (Option (List SchedulerSample))) (nudge : StateM σ Unit)

/-- The state in which observation `k` is taken: the nudge comes after the first one. -/
def stateAt (s : σ) : Nat → σ
  | 0 => s
  | 1 => (nudge.run (sample.run s).2).2
  | k + 2 => (sample.run (stateAt s (k + 1))).2

/-- Observation `k`. -/
def observation (s : σ) (k : Nat) : Option (List SchedulerSample) :=
  (sample.run (stateAt sample nudge s k)).1

/-- The candidate at `j` differs from its first reading in observation `k`. -/
def Moved (s : σ) (k j : Nat) : Prop :=
  ∃ before after, observation sample nudge s 0 = some before ∧
    observation sample nudge s k = some after ∧ Differs before after j

/-- The run took the observations `0` to `n`, and the last one elected the candidate at `i`. -/
structure ElectedAt (s : σ) (count n i : Nat) : Prop where
  index : i < count
  readable : ∀ k ≤ n, ∃ samples, observation sample nudge s k = some samples ∧ samples.length = count
  moved : Moved sample nudge s n i
  others : ∀ j, j ≠ i → ¬Moved sample nudge s n j
  /-- Earlier observations show no movement, or movement in several. -/
  earlier : ∀ k < n, (∀ j, ¬Moved sample nudge s k j) ∨
    ∃ j j', j ≠ j' ∧ Moved sample nudge s k j ∧ Moved sample nudge s k j'

variable {sample nudge}

/-- The rounds that an electing loop goes through. -/
theorem electionLoop_elected {s : σ} {before : List SchedulerSample} {i : Nat} :
    ∀ (n k : Nat) (last : Option (List SchedulerSample)),
      ((electionLoop sample before n last).run (stateAt sample nudge s (k + 1))).1 = .elected i →
        ∃ e, k < e ∧ e ≤ k + n ∧
          ((electionLoop sample before n last).run (stateAt sample nudge s (k + 1))).2 =
            stateAt sample nudge s (e + 1) ∧
          (∃ after, observation sample nudge s e = some after ∧
            selectProgressingCandidate before after = some i) ∧
          ∀ j, k < j → j < e → ∃ after, observation sample nudge s j = some after ∧
            selectProgressingCandidate before after = none := by
  intro n
  induction n with
  | zero =>
    intro k last h
    cases h
  | succ n ih =>
    intro k last h
    have hstate : stateAt sample nudge s (k + 1 + 1) =
        (sample.run (stateAt sample nudge s (k + 1))).2 := rfl
    rw [electionLoop, run_bind] at h ⊢
    have hobs : observation sample nudge s (k + 1) =
        (sample.run (stateAt sample nudge s (k + 1))).1 := rfl
    generalize sample.run (stateAt sample nudge s (k + 1)) = outcome at h hobs hstate ⊢
    obtain ⟨samples, s'⟩ := outcome
    dsimp only at hstate hobs
    cases samples with
    | none => cases h
    | some after =>
      -- this round elects, or one behind it does and this one saw no candidate alone
      cases hsel : selectProgressingCandidate before after with
      | some index =>
        simp only [hsel] at h ⊢
        cases h
        refine ⟨k + 1, Nat.lt_succ_self k, by omega, hstate.symm, ⟨after, hobs, hsel⟩, ?_⟩
        intro j hj hj'
        omega
      | none =>
        simp only [hsel] at h ⊢
        rw [← hstate] at h ⊢
        obtain ⟨e, hlt, hle, hend, helect, hearlier⟩ := ih (k + 1) _ h
        refine ⟨e, by omega, by omega, hend, helect, fun j hj hj' => ?_⟩
        rcases Nat.eq_or_lt_of_le (show k + 1 ≤ j from hj) with rfl | hj
        · exact ⟨after, hobs, hsel⟩
        · exact hearlier j hj hj'

/-- An election names the candidate that its last observation elected. -/
theorem elect_elected {s : σ} {count rounds i : Nat}
    (hlength : Triple (fun _ => True) sample fun r _ => ∀ samples, r = some samples →
      samples.length = count)
    (h : ((electProgressingCandidate sample nudge rounds).run s).1 = .elected i) :
    ∃ n, 0 < n ∧ n ≤ rounds ∧ ElectedAt sample nudge s count n i ∧
      ((electProgressingCandidate sample nudge rounds).run s).2 =
        stateAt sample nudge s (n + 1) := by
  have hcount : ∀ k samples, observation sample nudge s k = some samples →
      samples.length = count := by
    intro k samples hk
    exact hlength _ trivial samples hk
  rw [electProgressingCandidate, run_bind] at h ⊢
  have hobs : observation sample nudge s 0 = (sample.run s).1 := rfl
  have hstate : stateAt sample nudge s 1 = (nudge.run (sample.run s).2).2 := rfl
  generalize sample.run s = outcome at h hobs hstate ⊢
  obtain ⟨samples, s'⟩ := outcome
  dsimp only at hobs hstate
  cases samples with
  | none => cases h
  | some before =>
    dsimp only at h ⊢
    rw [run_bind, ← hstate] at h ⊢
    obtain ⟨n, hpos, hle, hend, ⟨after, hafter, hsel⟩, hearlier⟩ := electionLoop_elected _ 0 _ h
    have hbefore := hcount 0 before hobs
    -- a candidate has moved in an observation when it differs there from the first one
    have hmoved : ∀ k samples, observation sample nudge s k = some samples → ∀ j,
        (Moved sample nudge s k j ↔ Differs before samples j) := by
      intro k samples hk j
      constructor
      · intro hm
        obtain ⟨b, a, hb, ha, hd⟩ := hm
        cases hobs.symm.trans hb
        cases hk.symm.trans ha
        exact hd
      · intro hd
        exact ⟨before, samples, hobs, hk, hd⟩
    have hlen : before.length = after.length := hbefore.trans (hcount n after hafter).symm
    have honly := (select_eq_some hlen).mp hsel
    refine ⟨n, hpos, by omega, ?_, hend⟩
    exact
      { index := by
          obtain ⟨a, _, ha, _⟩ := (honly i).mpr rfl
          exact hbefore ▸ (List.getElem?_eq_some_iff.mp ha).1
        readable := by
          intro k hk
          rcases Nat.eq_zero_or_pos k with rfl | hk'
          · exact ⟨before, hobs, hbefore⟩
          · rcases Nat.eq_or_lt_of_le hk with rfl | hlt
            · exact ⟨after, hafter, hcount _ _ hafter⟩
            · obtain ⟨samples, hs, _⟩ := hearlier k hk' hlt
              exact ⟨samples, hs, hcount _ _ hs⟩
        moved := (hmoved n after hafter i).mpr ((honly i).mpr rfl)
        others := by
          intro j hj hmv
          exact hj ((honly j).mp ((hmoved n after hafter j).mp hmv))
        earlier := by
          intro k hk
          rcases Nat.eq_zero_or_pos k with rfl | hk'
          · left
            intro j hj
            obtain ⟨a, b, ha, hb, hne⟩ := (hmoved 0 before hobs j).mp hj
            exact hne (Option.some.inj (ha.symm.trans hb))
          · obtain ⟨samples, hs, hnone⟩ := hearlier k hk' hk
            simp only [hmoved k samples hs]
            exact select_eq_none (hbefore.trans (hcount k samples hs).symm) hnone }

end

/-! ## Elections over memory -/

section

variable {σ : Type} {memory : ProcessMemory (StateM σ)} {layout : RecoveryLayout}

theorem length_sampleCandidates : ∀ candidates : List Nat,
    Triple (fun _ => True) (sampleCandidates memory layout candidates)
      fun r _ => ∀ samples, r = some samples → samples.length = candidates.length := by
  intro candidates
  induction candidates with
  | nil =>
    refine .pure fun _ _ samples h => ?_
    cases h
    rfl
  | cons c rest ih =>
    rw [sampleCandidates]
    refine .bind .any fun first => ?_
    cases first with
    | none =>
      refine .pure fun _ _ samples h => ?_
      cases h
    | some first =>
      refine .bind ih fun r => .of_fact fun hr => .pure fun _ _ samples h => ?_
      obtain ⟨l, rfl, rfl⟩ := Option.map_eq_some_iff.mp h
      rw [List.length_cons, List.length_cons, hr l rfl]

theorem length_observe (candidates : List Nat) :
    Triple (fun _ => True) (observe memory layout candidates)
      fun r _ => ∀ samples, r = some samples → samples.length = candidates.length := by
  rw [observe]
  exact .bind (length_sampleCandidates candidates) fun r => .of_fact fun hr =>
    .bind .any fun _ => .pure fun _ _ => hr

end

/-- **An election names a candidate that alone moved** in its last observation, with every
    candidate readable all along; no earlier observation showed movement in just one. -/
theorem election {σ : Type} {memory : ProcessMemory (StateM σ)} {layout : RecoveryLayout}
    {candidates : List Nat} {nudge : StateM σ Unit} {rounds : Nat} {s : σ} {i : Nat}
    (h : ((electRunningHidThread memory layout candidates nudge rounds).run s).1 = .elected i) :
    ∃ n, 0 < n ∧ n ≤ rounds ∧
      ElectedAt (observe memory layout candidates) nudge s candidates.length n i ∧
      ((electRunningHidThread memory layout candidates nudge rounds).run s).2 =
        stateAt (observe memory layout candidates) nudge s (n + 1) :=
  elect_elected (length_observe candidates) h

/-- Two candidates, of which the second one moves with the first and is back one round later. The
    state counts the reads. -/
def movingBack : ProcessMemory (StateM Nat) where
  query _ := pure none
  read address buffer := fun n =>
    let bytes :=
      if address = 0x1008 then toLe 4 (if n < 4 then 0 else 1)
      else if address = 0x2008 then toLe 4 (if 4 ≤ n ∧ n < 8 then 1 else 0)
      else buffer
    ((buffer.length, bytes), n + 1)
  note _ := pure ()

def movingBackLayout : RecoveryLayout := ⟨0, 0, 0, 0, 0, 8⟩

theorem election_movingBack : ∃ n, 0 < n ∧ n ≤ 2 ∧
    ElectedAt (observe movingBack movingBackLayout [0x1000, 0x2000]) (pure ()) 0 2 n 0 ∧
    ((electRunningHidThread movingBack movingBackLayout [0x1000, 0x2000] (pure ()) 2).run 0).2 =
      stateAt (observe movingBack movingBackLayout [0x1000, 0x2000]) (pure ()) 0 (n + 1) :=
  election (by decide +kernel)

/-- The first one is elected, although the second one had moved in between. -/
theorem movedBack_elected :
    ((electRunningHidThread movingBack movingBackLayout [0x1000, 0x2000] (pure ()) 2).run 0).1 =
      .elected 0 ∧
    ¬∃ n, Moved (observe movingBack movingBackLayout [0x1000, 0x2000]) (pure ()) 0 n 0 ∧
      ∀ k ≤ n, ∀ j, j ≠ 0 →
        ¬Moved (observe movingBack movingBackLayout [0x1000, 0x2000]) (pure ()) 0 k j := by
  refine ⟨by decide +kernel, ?_⟩
  have hfirst : observation (observe movingBack movingBackLayout [0x1000, 0x2000]) (pure ()) 0 0 =
      some [⟨0, 0⟩, ⟨0, 0⟩] := by decide +kernel
  have hsecond : observation (observe movingBack movingBackLayout [0x1000, 0x2000]) (pure ()) 0 1 =
      some [⟨0, 1⟩, ⟨0, 1⟩] := by decide +kernel
  intro h
  obtain ⟨n, ⟨before, after, hb, ha, a, b, hfa, hfb, hne⟩, hothers⟩ := h
  cases n with
  | zero =>
    cases hb.symm.trans ha
    exact hne (Option.some.inj (hfa.symm.trans hfb))
  | succ n =>
    refine hothers 1 (Nat.succ_le_succ (Nat.zero_le n)) 1 (by decide) ?_
    exact ⟨_, _, hfirst, hsecond, ⟨0, 0⟩, ⟨0, 1⟩, rfl, rfl, by decide⟩

end Recovery
end SteamInputLease
