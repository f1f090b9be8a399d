import SteamInputLease.Lib.Hoare
import SteamInputLease.Proof.Recovery.Scan
import SteamInputLease.Recovery.Requests

/-!
# Guarded writes

The host validates the object right before each write, and the payload writes to an object that was
validated when the cache was looked at or when the scan kept it. Only an election comes between:
what the payload elects was sampled after it was validated.

A run leaves a log of verdicts, scans, samples and writes, and an object is fresh in a log if it was
validated there and nothing was scanned or sampled since. So each function is described by what it
may append (`_log`), in the order of the calls: reading and scanning append verdicts, an election
observations, and only the end of a request a write. The lemmas compose along `bind`, and
`Guarded.concat` and `Guarded.store` say what one more entry does to a log in which every write went
to a fresh object. The clock, the caches and the memory answer by the instant, and no two of their
answers are related; so other threads are covered without being in the model.
-/

namespace SteamInputLease
namespace Recovery

open Lib

/-! ## Logs -/

section

variable {log : List Note} {rt : RuntimeRecoveryLayout} {object : Nat}

theorem Fresh.self : Fresh (log ++ [.verdict rt object true]) rt object :=
  ⟨log, [], rfl, fun _ hn => absurd hn List.not_mem_nil⟩

/-- A verdict for another object takes nothing away. -/
theorem Fresh.verdict (h : Fresh log rt object) (rt' : RuntimeRecoveryLayout) (other : Nat)
    (live : Bool) : Fresh (log ++ [.verdict rt' other live]) rt object := by
  obtain ⟨before, after, rfl, hafter⟩ := h
  refine ⟨before, after ++ [.verdict rt' other live], by simp, fun n hn => ?_⟩
  rcases List.mem_append.mp hn with hn | hn
  · exact hafter n hn
  · rw [List.mem_singleton.mp hn]
    exact ⟨by rintro ⟨⟩, by rintro ⟨⟩⟩

theorem not_fresh_sampled : ¬Fresh (log ++ [.sampled]) rt object := by
  intro h
  obtain ⟨before, after, heq, hafter⟩ := h
  rcases List.eq_nil_or_concat after with rfl | ⟨init, last, rfl⟩
  · have hnote := (List.append_inj' heq rfl).2
    cases hnote
  · rw [List.concat_eq_append, ← List.cons_append, ← List.append_assoc] at heq
    have hnote := (List.append_inj' heq rfl).2
    cases hnote
    exact (hafter _ (by simp)).2 rfl

theorem guarded_nil : Guarded [] := by
  intro before rt deadline after h
  exact absurd h (by simp)

/-- A note that is no write keeps the log guarded. -/
theorem Guarded.concat {n : Note} (h : Guarded log) (hn : ∀ rt deadline, n ≠ .stored rt deadline) :
    Guarded (log ++ [n]) := by
  intro before rt deadline after heq
  rcases List.eq_nil_or_concat after with rfl | ⟨init, last, rfl⟩
  · have := (List.append_inj' heq rfl).2
    exact absurd (List.cons.inj this).1 (hn rt deadline)
  · refine h before rt deadline init ?_
    rw [List.concat_eq_append, ← List.cons_append, ← List.append_assoc] at heq
    exact (List.append_inj' heq rfl).1

/-- So does a write to the deadline of a fresh object. -/
theorem Guarded.store (h : Guarded log) (hf : Fresh log rt object) :
    Guarded (log ++ [.stored rt (object + rt.layout.discoveryDeadlineOffset)]) := by
  intro before rt' deadline after heq
  rcases List.eq_nil_or_concat after with rfl | ⟨init, last, rfl⟩
  · obtain ⟨hlog, hnote⟩ := List.append_inj' heq rfl
    cases hnote
    exact ⟨object, rfl, hlog ▸ hf⟩
  · refine h before rt' deadline init ?_
    rw [List.concat_eq_append, ← List.cons_append, ← List.append_assoc] at heq
    exact (List.append_inj' heq rfl).1

end

/-! ## What each function leaves in the log -/

section

variable {w : Surroundings} {rt : RuntimeRecoveryLayout}

theorem ask_log {α : Type} {answer : Nat → α} {P : List Note → Prop} :
    Triple (fun t => P t.log) (ask answer) fun _ t => P t.log := by
  intro t ht
  exact ht

theorem tell_log {n : Note} {P Q : List Note → Prop} (h : ∀ log, P log → Q (log ++ [n])) :
    Triple (fun t => P t.log) (tell n) fun _ t => Q t.log := by
  intro t ht
  exact h _ ht

theorem query_log {address : Nat} {P : List Note → Prop} :
    Triple (fun t => P t.log) (w.memory.query address) fun _ t => P t.log :=
  ask_log

theorem readExact_log {address n : Nat} {P : List Note → Prop} :
    Triple (fun t => P t.log) (readExact w.memory address n) fun _ t => P t.log := by
  rw [readExact]
  exact .bind ask_log fun _ => .pure fun _ h => h

theorem readPointer_log {address : Nat} {P : List Note → Prop} :
    Triple (fun t => P t.log) (readPointer w.memory address) fun _ t => P t.log := by
  rw [readPointer]
  exact .bind readExact_log fun _ => .pure fun _ h => h

/-- A verdict is noted, and a live object is fresh then. -/
theorem hidThreadIsLive_log {object : Nat} {P : List Note → Prop}
    (hP : ∀ log live, P log → P (log ++ [.verdict rt object live])) :
    Triple (fun t => P t.log) (hidThreadIsLive w.memory rt object)
      fun live t => P t.log ∧ (live = true → Fresh t.log rt object) := by
  have hbody : Triple (fun t => P t.log) (vtablesAndDeadline w.memory rt object)
      fun _ t => P t.log := by
    rw [vtablesAndDeadline]
    refine .bind readPointer_log fun first => ?_
    split
    · refine .bind readPointer_log fun second => ?_
      split
      · exact .bind readExact_log fun _ => .pure fun _ h => h
      · exact .pure fun _ h => h
    · exact .pure fun _ h => h
  rw [hidThreadIsLive]
  refine .bind hbody fun live => .bind (Q := fun _ t => P t.log ∧
    (live = true → Fresh t.log rt object)) ?_ fun _ => .pure fun _ h => h
  refine tell_log (Q := fun log => P log ∧ (live = true → Fresh log rt object)) fun log h => ?_
  refine ⟨hP log live h, ?_⟩
  rintro rfl
  exact .self

theorem validateHidThread_log (rt : RuntimeRecoveryLayout) (object : Nat) :
    Triple (fun t => Guarded t.log) (validateHidThread w rt object)
      fun live t => Guarded t.log ∧ (live = true → Fresh t.log rt object) := by
  rw [validateHidThread]
  split
  · exact hidThreadIsLive_log fun log live h => h.concat (by rintro _ _ ⟨⟩)
  · exact .pure fun _ h => ⟨h, by rintro ⟨⟩⟩

theorem scanChunks_log {regionEnd : Nat} : ∀ (n chunkStart : Nat) (buffer : List UInt8)
    (candidates : List Nat), Triple (fun t => Guarded t.log)
      (scanChunks w.memory rt regionEnd n chunkStart buffer candidates) fun _ t => Guarded t.log := by
  intro n
  induction n with
  | zero =>
    intro chunkStart buffer candidates
    exact .pure fun _ h => h
  | succ n ih =>
    intro chunkStart buffer candidates
    rw [scanChunks]
    split
    · have hchunk : Triple (fun t => Guarded t.log)
          (scanChunk w.memory rt regionEnd chunkStart buffer candidates)
          fun _ t => Guarded t.log := by
        rw [scanChunk]
        refine .bind ask_log fun _ => .bind (tell_log fun log h => ?_) fun _ => .pure fun _ h => h
        exact h.concat (by rintro _ _ ⟨⟩)
      refine .bind hchunk fun result => ?_
      obtain ⟨next, buffer', candidates'⟩ := result
      cases next with
      | none => exact .pure fun _ h => h
      | some next => exact ih next buffer' candidates'
    · exact .pure fun _ h => h

theorem walk_log : ∀ (n address : Nat) (buffer : List UInt8) (candidates : List Nat),
    Triple (fun t => Guarded t.log) (walk w.memory rt n address buffer candidates)
      fun _ t => Guarded t.log := by
  intro n
  induction n with
  | zero =>
    intro address buffer candidates
    exact .pure fun _ h => h
  | succ n ih =>
    intro address buffer candidates
    rw [walk]
    split
    · refine .bind query_log fun region => ?_
      cases region with
      | none => exact .pure fun _ h => h
      | some region =>
        have hregion : Triple (fun t => Guarded t.log)
            (scanRegion w.memory rt region buffer candidates) fun _ t => Guarded t.log := by
          rw [scanRegion]
          split
          · exact scanChunks_log _ _ _ _
          · exact .pure fun _ h => h
        refine .bind hregion fun result => ?_
        dsimp only
        split
        · exact .pure fun _ h => h
        · exact ih _ _ _
    · exact .pure fun _ h => h

/-- What is kept is fresh, and stays so while the rest is validated. -/
theorem retainLive_log {P : List Note → Prop}
    (hP : ∀ log other live, P log → P (log ++ [.verdict rt other live])) :
    ∀ candidates : List Nat, Triple (fun t => P t.log) (retainLive w.memory rt candidates)
      fun kept t => P t.log ∧ ∀ a ∈ kept, Fresh t.log rt a := by
  intro candidates
  induction candidates generalizing P with
  | nil => exact .pure fun _ h => ⟨h, fun a ha => absurd ha List.not_mem_nil⟩
  | cons c rest ih =>
    rw [retainLive]
    refine .bind (hidThreadIsLive_log fun log live => hP log c live) fun live => ?_
    have hrest := ih (P := fun log => P log ∧ (live = true → Fresh log rt c))
      fun log other live' h => ⟨hP log other live' h.1, fun hl => (h.2 hl).verdict rt other live'⟩
    refine .bind hrest fun kept => .pure fun t h => ⟨h.1.1, ?_⟩
    split
    · next hlive =>
      intro a ha
      rcases List.mem_cons.mp ha with rfl | ha
      · exact h.1.2 hlive
      · exact h.2 a ha
    · exact h.2

/-- Everything a scan returns was validated behind its last read. -/
theorem findLiveHidThreads_log : Triple (fun t => Guarded t.log) (findLiveHidThreads w.memory rt)
    fun found t => Guarded t.log ∧ ∀ a ∈ found, Fresh t.log rt a := by
  rw [findLiveHidThreads]
  refine .bind (walk_log _ _ _ _) fun candidates => ?_
  refine .bind (retainLive_log (fun log other live h => h.concat (by rintro _ _ ⟨⟩)) candidates)
    fun live => .pure fun t h => ⟨h.1, fun a ha => h.2 a ?_⟩
  exact (List.mem_insertionSort _).mp ((mem_dedup _).mp ha)

/-- An observation is noted when it is taken. -/
theorem observe_log {candidates : List Nat} : Triple (fun t => Guarded t.log)
    (observe w.memory rt.layout candidates)
    fun _ t => Guarded t.log ∧ ∃ log, t.log = log ++ [.sampled] := by
  have hcandidate : ∀ candidate, Triple (fun t => Guarded t.log)
      (sampleCandidate w.memory rt.layout candidate) fun _ t => Guarded t.log := by
    intro candidate
    rw [sampleCandidate]
    refine .bind readExact_log fun deadline => ?_
    cases deadline with
    | none => exact .pure fun _ h => h
    | some deadline =>
      refine .bind readExact_log fun counter => ?_
      cases counter with
      | none => exact .pure fun _ h => h
      | some counter => exact .pure fun _ h => h
  have hall : ∀ candidates, Triple (fun t => Guarded t.log)
      (sampleCandidates w.memory rt.layout candidates) fun _ t => Guarded t.log := by
    intro candidates
    induction candidates with
    | nil => exact .pure fun _ h => h
    | cons c rest ih =>
      rw [sampleCandidates]
      refine .bind (hcandidate c) fun first => ?_
      cases first with
      | none => exact .pure fun _ h => h
      | some first => exact .bind ih fun _ => .pure fun _ h => h
  rw [observe]
  refine .bind (hall candidates) fun _ => .bind (tell_log (Q := fun log => Guarded log ∧
    ∃ log', log = log' ++ [.sampled]) fun log h => ?_) fun _ => .pure fun _ h => h
  exact ⟨h.concat (by rintro _ _ ⟨⟩), log, rfl⟩

/-- An election takes its observations and writes nothing; it elects in the last of them. -/
theorem elect_log {candidates : List Nat} {rounds : Nat} :
    Triple (fun t => Guarded t.log)
      (electRunningHidThread w.memory rt.layout candidates (pure ()) rounds)
      fun result t => Guarded t.log ∧
        ∀ i, result = .elected i → ∃ log, t.log = log ++ [.sampled] := by
  have hloop : ∀ (before : List SchedulerSample) (n : Nat) (last : Option (List SchedulerSample)),
      Triple (fun t => Guarded t.log)
        (electionLoop (observe w.memory rt.layout candidates) before n last)
        fun result t => Guarded t.log ∧
          ∀ i, result = .elected i → ∃ log, t.log = log ++ [.sampled] := by
    intro before n
    induction n with
    | zero => exact fun last => .pure fun _ h => ⟨h, by rintro _ ⟨⟩⟩
    | succ n ih =>
      intro last
      rw [electionLoop]
      refine .bind observe_log fun samples => ?_
      cases samples with
      | none => exact .pure fun _ h => ⟨h.1, by rintro _ ⟨⟩⟩
      | some after =>
        dsimp only
        split
        · exact .pure fun _ h => ⟨h.1, fun _ _ => h.2⟩
        · exact (ih _).strengthen fun _ h => h.1
  rw [electRunningHidThread, electProgressingCandidate]
  refine .bind observe_log fun samples => ?_
  cases samples with
  | none => exact .pure fun _ h => ⟨h.1, by rintro _ ⟨⟩⟩
  | some before =>
    refine .bind (Q := fun _ t => Guarded t.log) (.pure fun _ h => h.1) fun _ => ?_
    exact hloop before rounds none

end

/-! ## The payload -/

section

variable {w : Surroundings} {rt : RuntimeRecoveryLayout}

theorem hidThreadCandidates_log {ignoreBudget : Bool} :
    Triple (fun t => Guarded t.log) (hidThreadCandidates w rt ignoreBudget)
      fun found t => Guarded t.log ∧ ∀ a ∈ found, Fresh t.log rt a := by
  rw [hidThreadCandidates]
  split
  · exact findLiveHidThreads_log
  · refine .bind ask_log fun attempts => ?_
    split
    · exact .pure fun _ h => ⟨h, fun a ha => absurd ha List.not_mem_nil⟩
    · exact findLiveHidThreads_log

theorem electHidThread_log (rt : RuntimeRecoveryLayout) (several : List Nat) :
    Triple (fun t => Guarded t.log) (electHidThread w rt several)
      fun object t => Guarded t.log ∧
        (object.isSome = true → ∃ log, t.log = log ++ [.sampled]) := by
  rw [electHidThread]
  refine .bind ask_log fun rounds => .bind elect_log fun result => ?_
  cases result with
  | elected i => exact .pure fun _ h => ⟨h.1, fun _ => h.2 i rfl⟩
  | unreadable => exact .pure fun _ h => ⟨h.1, by rintro ⟨⟩⟩
  | ambiguous before last => exact .pure fun _ h => ⟨h.1, by rintro ⟨⟩⟩

/-- Resolving a deadline writes nothing. -/
theorem resolveDiscoveryDeadline_log (ignoreBudget : Bool) :
    Triple (fun t => Guarded t.log) (resolveDiscoveryDeadline w ignoreBudget)
      fun _ t => Guarded t.log := by
  rw [resolveDiscoveryDeadline]
  refine .bind ask_log fun runtime => ?_
  cases runtime with
  | none => exact .pure fun _ h => h
  | some rt =>
    have hfind : Triple (fun t => Guarded t.log) (findHidThread w rt ignoreBudget)
        fun _ t => Guarded t.log := by
      rw [findHidThread]
      refine .bind ask_log fun cached => .bind (validateHidThread_log _ _) fun valid => ?_
      split
      · exact .pure fun _ h => h.1
      · refine .bind (hidThreadCandidates_log.strengthen fun _ h => h.1) fun candidates => ?_
        match candidates with
        | [] => exact .pure fun _ h => h.1
        | [a] => exact .pure fun _ h => h.1
        | a :: b :: rest =>
          exact ((electHidThread_log _ _).strengthen fun _ h => h.1).weaken fun _ _ h => h.1
    exact .bind hfind fun _ => .pure fun _ h => h

/-- With no cached object, a resolution is the choice among the candidates. -/
theorem resolve_candidates {ignoreBudget : Bool} {t t' : Trail} {candidates : List Nat}
    (h : (payloadCandidates w ignoreBudget).run t = (some (rt, candidates), t')) :
    (resolveDiscoveryDeadline w ignoreBudget).run t =
      (((chooseHidThread w rt candidates).run t').1.map
          fun address => (rt, address + rt.layout.discoveryDeadlineOffset),
        ((chooseHidThread w rt candidates).run t').2) := by
  rw [payloadCandidates] at h
  rw [resolveDiscoveryDeadline]
  simp only [run_bind] at h ⊢
  generalize (ask w.runtimeLayout).run t = outcome at h ⊢
  obtain ⟨runtime, t1⟩ := outcome
  cases runtime with
  | none => cases h
  | some rt' =>
    dsimp only at h ⊢
    rw [findHidThread]
    simp only [run_bind] at h ⊢
    generalize (ask w.hidThreadAddress).run t1 = outcome at h ⊢
    obtain ⟨cached, t2⟩ := outcome
    dsimp only at h ⊢
    generalize (validateHidThread w rt' cached).run t2 = outcome at h ⊢
    obtain ⟨valid, t3⟩ := outcome
    cases valid with
    | true => cases h
    | false =>
      simp only [Bool.false_eq_true, if_false, run_bind] at h ⊢
      generalize (hidThreadCandidates w rt' ignoreBudget).run t3 = outcome at h ⊢
      cases h
      rfl

/-- Otherwise it answers the cached object, which was validated last. -/
theorem resolve_cached {ignoreBudget : Bool} {t t' : Trail} {deadline : Nat} (hg : Guarded t.log)
    (hnone : (payloadCandidates w ignoreBudget).run t = (none, t'))
    (h : ((resolveDiscoveryDeadline w ignoreBudget).run t).1 = some (rt, deadline)) :
    ∃ object, deadline = object + rt.layout.discoveryDeadlineOffset ∧
      Fresh ((resolveDiscoveryDeadline w ignoreBudget).run t).2.log rt object := by
  rw [payloadCandidates] at hnone
  rw [resolveDiscoveryDeadline] at h ⊢
  simp only [run_bind] at hnone h ⊢
  have hg1 : Guarded ((ask w.runtimeLayout).run t).2.log := hg
  generalize (ask w.runtimeLayout).run t = outcome at hnone h hg1 ⊢
  obtain ⟨runtime, t1⟩ := outcome
  cases runtime with
  | none => cases h
  | some rt' =>
    dsimp only at hnone h hg1 ⊢
    rw [findHidThread] at h ⊢
    simp only [run_bind] at hnone h ⊢
    have hg2 : Guarded ((ask w.hidThreadAddress).run t1).2.log := hg1
    generalize (ask w.hidThreadAddress).run t1 = outcome at hnone h hg2 ⊢
    obtain ⟨cached, t2⟩ := outcome
    dsimp only at hnone h hg2 ⊢
    have hvalid := validateHidThread_log (w := w) rt' cached t2 hg2
    generalize (validateHidThread w rt' cached).run t2 = outcome at hnone h hvalid ⊢
    obtain ⟨valid, t3⟩ := outcome
    cases valid with
    | true =>
      cases h
      exact ⟨cached, rfl, hvalid.2 rfl⟩
    | false => cases hnone

theorem payloadCandidates_log (ignoreBudget : Bool) :
    Triple (fun t => Guarded t.log) (payloadCandidates w ignoreBudget)
      fun found t => Guarded t.log ∧
        ∀ rt candidates, found = some (rt, candidates) → ∀ a ∈ candidates, Fresh t.log rt a := by
  rw [payloadCandidates]
  refine .bind ask_log fun runtime => ?_
  cases runtime with
  | none => exact .pure fun _ h => ⟨h, by rintro _ _ ⟨⟩⟩
  | some rt =>
    refine .bind ask_log fun cached => .bind (validateHidThread_log _ _) fun valid => ?_
    split
    · exact .pure fun _ h => ⟨h.1, by rintro _ _ ⟨⟩⟩
    · refine .bind (hidThreadCandidates_log.strengthen fun _ h => h.1) fun candidates => ?_
      refine .pure fun _ h => ⟨h.1, ?_⟩
      rintro _ _ ⟨⟩
      exact h.2

/-- A resolved deadline is that of a fresh object, unless it is elected. -/
theorem resolved_object {ignoreBudget : Bool} {t : Trail} (hg : Guarded t.log) {deadline : Nat}
    (hal : deadline % 8 = 0) (hc : electsObject w t ignoreBudget = false)
    (h : ((resolveDiscoveryDeadline w ignoreBudget).run t).1 = some (rt, deadline)) :
    ∃ object, deadline = object + rt.layout.discoveryDeadlineOffset ∧
      Fresh ((resolveDiscoveryDeadline w ignoreBudget).run t).2.log rt object := by
  have hlog := payloadCandidates_log (w := w) ignoreBudget t hg
  rw [electsObject] at hc
  cases hcand : (payloadCandidates w ignoreBudget).run t with
  | mk found t' =>
    cases found with
    | none => exact resolve_cached hg hcand h
    | some found =>
      obtain ⟨rt', candidates⟩ := found
      rw [hcand] at hlog hc
      rw [resolve_candidates hcand] at h ⊢
      match candidates with
      | [] => cases h
      | [object] =>
        cases h
        exact ⟨object, rfl, hlog.2 _ _ rfl object List.mem_cons_self⟩
      | first :: second :: rest =>
        have hchoose : chooseHidThread w rt' (first :: second :: rest) =
            electHidThread w rt' (first :: second :: rest) := rfl
        rw [hchoose] at h
        dsimp only at hc
        obtain ⟨object, hobject, heq⟩ := Option.map_eq_some_iff.mp h
        cases heq
        rw [hobject, Option.any_some, hal] at hc
        cases hc

/-- What a request leaves: nothing but what its resolution left, or a write. -/
theorem request_log (ignoreBudget : Bool) (t : Trail) :
    ((requestInternalDiscovery w ignoreBudget).run t).2.log =
        ((resolveDiscoveryDeadline w ignoreBudget).run t).2.log ∨
      ∃ rt deadline, ((resolveDiscoveryDeadline w ignoreBudget).run t).1 = some (rt, deadline) ∧
        deadline % 8 = 0 ∧
        ((requestInternalDiscovery w ignoreBudget).run t).2.log =
          ((resolveDiscoveryDeadline w ignoreBudget).run t).2.log ++ [.stored rt deadline] := by
  rw [requestInternalDiscovery, run_bind]
  generalize (resolveDiscoveryDeadline w ignoreBudget).run t = outcome
  obtain ⟨resolved, t'⟩ := outcome
  cases resolved with
  | none => exact .inl rfl
  | some found =>
    obtain ⟨rt, deadline⟩ := found
    dsimp only
    split
    · exact .inl rfl
    · next hal => exact .inr ⟨rt, deadline, rfl, not_not.mp hal, rfl⟩

/-- A request that elects no object writes to a fresh one. -/
theorem request_guarded {ignoreBudget : Bool} {t : Trail} (hg : Guarded t.log)
    (hc : electsObject w t ignoreBudget = false) :
    Guarded ((requestInternalDiscovery w ignoreBudget).run t).2.log := by
  have hresolved := resolveDiscoveryDeadline_log (w := w) ignoreBudget t hg
  rcases request_log (w := w) ignoreBudget t with
    heq | ⟨rt, deadline, hfound, hal, heq⟩
  · rw [heq]
    exact hresolved
  · rw [heq]
    obtain ⟨object, rfl, hfresh⟩ := resolved_object hg hal hc hfound
    exact hresolved.store hfresh

/-- A request that elects its object writes to one that was not validated since. -/
theorem request_unguarded {ignoreBudget : Bool} {t : Trail} (hg : Guarded t.log)
    (hc : electsObject w t ignoreBudget = true) :
    ¬Guarded ((requestInternalDiscovery w ignoreBudget).run t).2.log := by
  have hlog := payloadCandidates_log (w := w) ignoreBudget t hg
  rw [electsObject] at hc
  split at hc
  · next rt first second rest t' hcand =>
    rw [hcand] at hlog
    have helect := electHidThread_log (w := w) rt (first :: second :: rest) t'
      hlog.1
    have hresolve := resolve_candidates hcand
    have hchoose : chooseHidThread w rt (first :: second :: rest) =
        electHidThread w rt (first :: second :: rest) := rfl
    rw [hchoose] at hresolve
    generalize (electHidThread w rt (first :: second :: rest)).run t' = outcome at hc helect hresolve
    obtain ⟨elected, t1⟩ := outcome
    cases elected with
    | none => cases hc
    | some object =>
      rw [Option.any_some, beq_iff_eq] at hc
      obtain ⟨log, hsampled⟩ := helect.2 rfl
      have hwrite : ((requestInternalDiscovery w ignoreBudget).run t).2.log =
          log ++ [.sampled] ++ [.stored rt (object + rt.layout.discoveryDeadlineOffset)] := by
        rw [requestInternalDiscovery, run_bind, hresolve, ← hsampled]
        dsimp only [Option.map_some]
        rw [if_neg (not_not.mpr hc)]
        rfl
      intro hguarded
      obtain ⟨_, _, hfresh⟩ := hguarded _ _ _ [] hwrite
      exact not_fresh_sampled hfresh
  · cases hc

end

/-! ## The host -/

section

variable {w : Surroundings} {rt : RuntimeRecoveryLayout}

theorem readRemote_log {address width : Nat} {P : List Note → Prop} :
    Triple (fun t => P t.log) (readRemote w address width) fun _ t => P t.log := by
  rw [readRemote]
  refine .bind readExact_log fun bytes => ?_
  cases bytes with
  | none => exact .pure fun _ h => h
  | some bytes => exact .pure fun _ h => h

/-- Each pass validates the object right before it writes. -/
theorem requestInternalScan_log {object : Nat} :
    Triple (fun t => Guarded t.log) (requestInternalScan w rt object) fun _ t => Guarded t.log := by
  rw [requestInternalScan]
  refine .bind (hidThreadIsLive_log fun log live h => h.concat (by rintro _ _ ⟨⟩)) fun live => ?_
  split
  · next hlive =>
    have hread : ∀ address width, Triple (fun t => Guarded t.log ∧ Fresh t.log rt object)
        (readRemote w address width) fun _ t => Guarded t.log ∧ Fresh t.log rt object :=
      fun _ _ => readRemote_log (P := fun log => Guarded log ∧ Fresh log rt object)
    refine .bind ((hread _ _).strengthen fun _ h => ⟨h.1, h.2 hlive⟩) fun previous => ?_
    cases previous with
    | error e => exact .pure fun _ h => h.1
    | ok previous =>
      refine .bind (hread _ _) fun before => ?_
      cases before with
      | error e => exact .pure fun _ h => h.1
      | ok before =>
        dsimp only
        rw [writeDeadline]
        refine .bind (tell_log (P := fun log => Guarded log ∧ Fresh log rt object) (Q := Guarded)
          fun log h => h.1.store h.2) fun _ => .bind ask_log fun written => ?_
        split
        · exact .bind readRemote_log fun _ => .pure fun _ h => h
        · exact .pure fun _ h => h
  · exact .pure fun _ h => h.1

theorem rescanSteamControllers_log :
    Triple (fun t => Guarded t.log) (rescanSteamControllers w) fun _ t => Guarded t.log := by
  have hresolve : Triple (fun t => Guarded t.log) (resolveRemoteRecovery w)
      fun _ t => Guarded t.log := by
    rw [resolveRemoteRecovery]
    refine .bind ask_log fun remote => ?_
    cases remote with
    | none => exact .pure fun _ h => h
    | some rt =>
      have hfind : Triple (fun t => Guarded t.log) (findRemoteHidThread w rt)
          fun _ t => Guarded t.log := by
        rw [findRemoteHidThread]
        refine .bind findLiveHidThreads_log fun candidates => ?_
        match candidates with
        | [] => exact .pure fun _ h => h.1
        | [a] => exact .pure fun _ h => h.1
        | a :: b :: rest =>
          dsimp only
          rw [electRemoteHidThread]
          refine .bind (ask_log.strengthen fun _ h => h.1) fun rounds => .bind elect_log fun result => ?_
          cases result with
          | elected i =>
            dsimp only
            split
            · exact .pure fun _ h => h.1
            · exact .pure fun _ h => h.1
          | unreadable => exact .pure fun _ h => h.1
          | ambiguous before last => exact .pure fun _ h => h.1
      exact .bind hfind fun _ => .pure fun _ h => h
  rw [rescanSteamControllers]
  refine .bind hresolve fun target => ?_
  match target with
  | .error e => exact .pure fun _ h => h
  | .ok (rt, hidThread) =>
    refine .bind requestInternalScan_log fun first => ?_
    cases first with
    | error e => exact .pure fun _ h => h
    | ok first =>
      refine .bind requestInternalScan_log fun second => ?_
      cases second with
      | error e => exact .pure fun _ h => h
      | ok second => exact .pure fun _ h => h

end

/-- **Guarded writes.** Whatever the memory, the caches and the clock do, every write goes to the
    deadline of an object that was validated after the last read that chose it, in every run of a
    thread whose requests in the payload do not elect their object; the host's passes always. -/
theorem guarded_writes {w : Surroundings} {t : Trail}
    (hr : (discovery w).ReachUnder (fun t c => chosenWithoutElection w t c = true) t) :
    Guarded t.log := by
  refine System.ReachUnder.invariant (I := fun t => Guarded t.log) ?_ ?_ hr
  · rintro t rfl
    exact guarded_nil
  · intro t c t' _ hg hc hs
    cases c with
    | requestInternalDiscovery ignoreBudget =>
      cases hs
      rw [chosenWithoutElection, Bool.not_eq_true'] at hc
      exact request_guarded hg hc
    | resolveDiscoveryDeadline ignoreBudget =>
      cases hs
      exact resolveDiscoveryDeadline_log _ t hg
    | rescanSteamControllers =>
      cases hs
      exact rescanSteamControllers_log t hg

/-- Steam's memory from `0x10000`, with a layout whose object has its deadline at 16. -/
def surroundings (bytes : Nat → List UInt8) : Surroundings where
  query _ address := if 0x10000 ≤ address ∧ address < 0x10050 then
    some { base := 0x10000, size := 0x50, state := memCommit, protect := 4, kind := memPrivate }
    else none
  read instant address buffer :=
    (buffer.length, ((bytes instant).drop (address - 0x10000)).take buffer.length)
  runtimeLayout _ := some ⟨0x7ff0000, ⟨0x100, 0x200, 8, 0x300, 0x10, 0x18⟩⟩
  hidThreadAddress _ := 0
  hidThreadAttempts _ := 0
  electionRounds _ := 12
  remoteLayout _ := some ⟨0x7ff0000, ⟨0x100, 0x200, 8, 0x300, 0x10, 0x18⟩⟩
  written _ := true

def objectBytes : List UInt8 := toLe 8 0x7ff0100 ++ toLe 8 0x7ff0200 ++ toLe 8 0 ++ toLe 8 7

def oneStanding : Surroundings :=
  surroundings fun _ => toLe 8 0 ++ objectBytes ++ .replicate 40 0

/-- A request of the payload and both passes of the host write to the only object. -/
theorem guarded_writes_standing : ∃ t,
    (discovery oneStanding).ReachUnder
      (fun t c => chosenWithoutElection oneStanding t c = true) t ∧
    t.log.countP (fun n => n matches .stored ..) = 3 ∧ Guarded t.log := by
  obtain ⟨t, hr, hp⟩ := System.exists_reachUnder_of_exec (T := discovery oneStanding) (s := .start)
    (chosenWithoutElection oneStanding) [.requestInternalDiscovery true, .rescanSteamControllers]
    (fun t => t.log.countP (fun n => n matches .stored ..) == 3) rfl (by decide +kernel)
  exact ⟨t, hr, beq_iff_eq.mp hp, guarded_writes hr⟩

/-- Two look-alikes; the second one is freed and reused when the election has begun. -/
def lookAlikes : Surroundings :=
  surroundings fun instant => toLe 8 0 ++ objectBytes ++ toLe 8 0 ++
    if instant < 18 then objectBytes else .replicate 32 0x41

/-- The reuse gets the block elected and written to. -/
theorem reused_block_written :
    ¬∀ t, (discovery lookAlikes).Reach t → Guarded t.log := by
  intro hall
  have helects : electsObject lookAlikes .start true = true := by decide +kernel
  refine request_unguarded guarded_nil helects (hall _ ?_)
  exact System.Reach.next (e := .requestInternalDiscovery true) (.init rfl) rfl

end Recovery
end SteamInputLease
