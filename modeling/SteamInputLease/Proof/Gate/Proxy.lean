import SteamInputLease.Proof.Gate.Forwarding

/-!
# The bootstrap block over every interleaving

What Steam's calls rely on is the release: before it they fall back, and behind it the worker calls
nothing more, so that the table they read does not change.

The worker fills a table of atomics one by one and then releases them, while any number of Steam's
threads call the exports. Such a call looks at the table only behind the release, and other threads
may step between any two of its reads. `Bootstrap` says how far the worker has come and what each
call has seen, and `Forwarding` supplies what the table is at the release. For the calls behind the
release nothing has to be preserved but that nothing moves: `Bootstrap.frozen` and
`Bootstrap.cached` say so of one step, and `Since` of a run.
-/

namespace SteamInputLease
namespace Gate

open Lib Lib.System

/-! ## A call of an export -/

/-- What holds of a call while the exports are as they are. -/
structure ExportCall.Sound (f : Forwarding) (c : ExportCall) : Prop where
  blocked : f.ready = false → c.pc = .readReady ∨ c.pc = .fellBack c.slot.fallback
  early : c.ready = some false → c.pc = .fellBack c.slot.fallback
  unchecked : c.pc = .readReady ∨ c.pc = .readBlocking → c.blocked = none
  gated : c.slot.gated = true → c.blocked = some true → c.pc = .fellBack c.slot.fallback
  target : ∀ target, c.pc = .call target ∨ c.pc = .forwarded target →
    target ≠ 0 ∧ target = f.slots c.slot

section

variable {f f' : Forwarding} {c c' : ExportCall}

theorem ExportCall.sound_start (slot : ProxyExport) : (ExportCall.start slot).Sound f where
  blocked _ := .inl rfl
  early h := by cases h
  unchecked _ := rfl
  gated _ h := by cases h
  target target h := by rcases h with h | h <;> cases h

theorem ExportCall.Sound.step {b : Bool} (h : c.Sound f) (hs : exportStep f c b = some c') :
    c'.Sound f := by
  -- past the first read the flag was set, and is
  have hready : ∀ {pc}, c.pc = pc → pc ≠ .readReady → pc ≠ .fellBack c.slot.fallback →
      f.ready ≠ false ∧ c.ready ≠ some false ∧ ¬(c.slot.gated = true ∧ c.blocked = some true) := by
    rintro pc rfl hstart hback
    exact ⟨fun hr => (h.blocked hr).elim hstart hback, fun hr => hback (h.early hr),
      fun hg => hback (h.gated hg.1 hg.2)⟩
  rw [exportStep] at hs
  cases hpc : c.pc with
  | readReady =>
    have hblocked := h.unchecked (.inl hpc)
    rw [hpc] at hs
    dsimp only at hs
    cases hr : f.ready with
    | false =>
      simp only [hr, Bool.not_false, if_true, Option.some.injEq] at hs
      subst hs
      exact ⟨fun _ => .inr rfl, fun _ => rfl, fun ht => by simp at ht, fun _ _ => rfl,
        fun target ht => by simp at ht⟩
    | true =>
      simp only [hr, Bool.not_true, Bool.false_eq_true, if_false, Option.some.injEq] at hs
      subst hs
      refine ⟨fun hf => by simp [hr] at hf, fun hf => by simp at hf, fun _ => hblocked,
        fun _ hb => ?_, fun target ht => ?_⟩
      · rw [show c.blocked = some true from hb] at hblocked
        cases hblocked
      · dsimp only at ht
        split at ht <;> simp at ht
  | readBlocking =>
    obtain ⟨hf, he, _⟩ := hready hpc (by simp) (by simp)
    rw [hpc] at hs
    cases hs
    refine ⟨fun hr => absurd hr hf, fun hr => absurd hr he, fun ht => ?_, fun _ hb => ?_,
      fun target ht => ?_⟩
    · dsimp only at ht
      split at ht <;> simp at ht
    · cases hb
      rfl
    · dsimp only at ht
      split at ht <;> simp at ht
  | readSlot =>
    obtain ⟨hf, he, hg⟩ := hready hpc (by simp) (by simp)
    rw [hpc] at hs
    dsimp only at hs
    split at hs
    · cases hs
      exact ⟨fun _ => .inr rfl, fun _ => rfl, fun ht => by simp at ht, fun _ _ => rfl,
        fun target ht => by simp at ht⟩
    next hsome =>
      cases hs
      refine ⟨fun hr => absurd hr hf, fun hr => absurd hr he, fun ht => by simp at ht,
        fun hgated hb => absurd ⟨hgated, hb⟩ hg, fun target ht => ?_⟩
      simp only [ExportPc.call.injEq, reduceCtorEq, or_false] at ht
      subst ht
      exact ⟨hsome, rfl⟩
  | call target =>
    obtain ⟨hf, he, hg⟩ := hready hpc (by simp) (by simp)
    have htarget := h.target target (.inl hpc)
    rw [hpc] at hs
    cases hs
    refine ⟨fun hr => absurd hr hf, fun hr => absurd hr he, fun ht => by simp at ht,
      fun hgated hb => absurd ⟨hgated, hb⟩ hg, fun other ht => ?_⟩
    simp only [ExportPc.forwarded.injEq, reduceCtorEq, false_or] at ht
    subst ht
    exact htarget
  | forwarded target =>
    rw [hpc] at hs
    cases hs
  | fellBack value =>
    rw [hpc] at hs
    cases hs

/-- What the worker does to the exports before the release leaves the calls alone. -/
theorem ExportCall.Sound.before (h : c.Sound f) (hready : f.ready = false) : c.Sound f' := by
  have hpc := h.blocked hready
  refine ⟨fun _ => hpc, h.early, h.unchecked, h.gated, fun target ht => ?_⟩
  rcases hpc with hpc | hpc <;> rcases ht with ht | ht <;> rw [hpc] at ht <;> cases ht

end

/-! ## The system -/

section

variable {vector : ProxyVector} {image : UInt64} {s s' : ProxyState} {e : ProxyLabel}

/-- How far the worker has come, and what the calls have seen. -/
structure Bootstrap (vector : ProxyVector) (image : UInt64) (s : ProxyState) : Prop where
  table : ForwardingTable vector image s.forwarding
  before : s.initialization = none → s.initializer = none → s.initializations = 0 ∧
    s.forwarding.ready = false ∧ Filling image [] [] s.forwarding
  during : ∀ p, s.initializer = some p → s.initialization = none ∧ s.initializations = 1 ∧
    p.Ensures Forwarding.act (Bootstraps vector image) (Initialized vector image) s.forwarding
  after : ∀ b, s.initialization = some b → s.initializer = none ∧ s.initializations = 1
  calls : ∀ c ∈ s.calls, c.Sound s.forwarding

theorem bootstrap_init (h : (proxy vector image).init s) : Bootstrap vector image s := by
  obtain ⟨selfModule, hself, rfl⟩ := h
  have hfilling := filling_initial hself
  refine ⟨hfilling.table (List.nil_subset _), fun _ _ => ⟨rfl, rfl, hfilling⟩, fun p hp => ?_,
    fun b hb => ?_, fun c hc => absurd hc List.not_mem_nil⟩
  · cases hp
  · cases hb

theorem Bootstrap.request (h : Bootstrap vector image s)
    (hs : (proxy vector image).step s .request = some s') : Bootstrap vector image s' := by
  simp only [proxy, proxyStep] at hs
  split at hs
  · cases hs
    exact h
  · cases hs
  next hinitialization hinitializer =>
    cases hs
    obtain ⟨hcount, _, hfilling⟩ := h.before hinitialization hinitializer
    refine ⟨h.table, fun _ hnone => ?_, ?_, fun b hb => ?_, h.calls⟩
    · cases hnone
    · rintro p ⟨⟩
      exact ⟨hinitialization, by rw [hcount], hfilling.initializeForwarding⟩
    · cases hinitialization.symm.trans hb

/-- The worker's calls come before the release, so Steam's calls do not see them. -/
theorem Bootstrap.answer {a : ProxyAnswer} (h : Bootstrap vector image s)
    (hs : (proxy vector image).step s (.answer a) = some s') :
    Bootstrap vector image s' ∧ s.forwarding.ready = false ∧ s.initialization = none := by
  simp only [proxy, proxyStep] at hs
  split at hs
  next c next hinitializer =>
    obtain ⟨f, hact, rfl⟩ := Option.map_eq_some_iff.mp hs
    obtain ⟨hinitialization, hcount, hprog⟩ := h.during _ hinitializer
    obtain ⟨hboot, hnext⟩ := hprog a f hact
    refine ⟨⟨hboot.after, fun _ hnone => ?_, ?_, fun b hb => ?_, ?_⟩, hboot.before,
      hinitialization⟩
    · cases hnone
    · rintro p ⟨⟩
      exact ⟨hinitialization, hcount, hnext⟩
    · cases hinitialization.symm.trans hb
    · intro call hcall
      exact (h.calls call hcall).before hboot.before
  · cases hs

theorem Bootstrap.finish (h : Bootstrap vector image s)
    (hs : (proxy vector image).step s .finish = some s') : Bootstrap vector image s' := by
  simp only [proxy, proxyStep] at hs
  split at hs
  next initialized hinitializer =>
    cases hs
    obtain ⟨_, hcount, _⟩ := h.during _ hinitializer
    refine ⟨h.table, fun hnone => ?_, fun p hp => ?_, fun _ _ => ⟨rfl, hcount⟩, h.calls⟩
    · cases hnone
    · cases hp
  · cases hs

theorem Bootstrap.advance {i : Nat} {b : Bool} (h : Bootstrap vector image s)
    (hs : (proxy vector image).step s (.advance i b) = some s') :
    Bootstrap vector image s' ∧ s'.forwarding = s.forwarding := by
  simp only [proxy, proxyStep, Option.bind_eq_some_iff, Option.map_eq_some_iff] at hs
  obtain ⟨c, hc, c', hstep, rfl⟩ := hs
  refine ⟨⟨h.table, h.before, h.during, h.after, fun call hcall => ?_⟩, rfl⟩
  rcases List.mem_or_eq_of_mem_set hcall with hold | rfl
  · exact h.calls call hold
  · exact (h.calls c (List.mem_of_getElem? hc)).step hstep

theorem Bootstrap.step (h : Bootstrap vector image s)
    (hs : (proxy vector image).step s e = some s') : Bootstrap vector image s' := by
  cases e with
  | request => exact h.request hs
  | answer a => exact (h.answer hs).1
  | finish => exact h.finish hs
  | enter slot =>
    cases hs
    refine ⟨h.table, h.before, h.during, h.after, fun call hcall => ?_⟩
    rcases List.mem_append.mp hcall with hold | hnew
    · exact h.calls call hold
    · obtain rfl := List.mem_singleton.mp hnew
      exact ExportCall.sound_start slot
  | advance i b => exact (h.advance hs).1

theorem bootstrap_of_reach (hr : (proxy vector image).Reach s) : Bootstrap vector image s :=
  ReachUnder.invariant (fun _ hi => bootstrap_init hi) (fun _ _ _ _ ih _ hs => ih.step hs) hr

/-! ## What does not change -/

/-- Only an answered call of the worker changes what is shared. -/
theorem forwarding_step (hs : (proxy vector image).step s e = some s') (hanswer : ∀ a, e ≠ .answer a) :
    s'.forwarding = s.forwarding := by
  cases e with
  | request =>
    simp only [proxy, proxyStep] at hs
    split at hs <;> cases hs <;> rfl
  | answer a => exact absurd rfl (hanswer a)
  | finish =>
    simp only [proxy, proxyStep] at hs
    split at hs <;> cases hs
    rfl
  | enter slot =>
    cases hs
    rfl
  | advance i b =>
    simp only [proxy, proxyStep, Option.bind_eq_some_iff, Option.map_eq_some_iff] at hs
    obtain ⟨c, _, c', _, rfl⟩ := hs
    rfl

/-- Behind the release nothing is changed. -/
theorem Bootstrap.frozen (h : Bootstrap vector image s)
    (hs : (proxy vector image).step s e = some s')
    (hover : s.forwarding.ready = true ∨ s.initialization ≠ none) :
    s'.forwarding = s.forwarding := by
  refine forwarding_step hs fun a he => ?_
  subst he
  obtain ⟨_, hready, hnone⟩ := h.answer hs
  rcases hover with hr | hi
  · cases hready.symm.trans hr
  · exact hi hnone

/-- What the closure returned is cached. -/
theorem Bootstrap.cached {b : Bool} (h : Bootstrap vector image s)
    (hs : (proxy vector image).step s e = some s') (hb : s.initialization = some b) :
    s'.initialization = some b := by
  have hidle := (h.after b hb).1
  cases e with
  | request =>
    simp only [proxy, proxyStep, hb] at hs
    cases hs
    exact hb
  | answer a =>
    have hnone := (h.answer hs).2.2
    rw [hb] at hnone
    cases hnone
  | finish =>
    simp only [proxy, proxyStep, hidle] at hs
    cases hs
  | enter slot =>
    cases hs
    exact hb
  | advance i blocking =>
    simp only [proxy, proxyStep, Option.bind_eq_some_iff, Option.map_eq_some_iff] at hs
    obtain ⟨c, _, c', _, rfl⟩ := hs
    exact hb

/-- A run that has come from `s`, behind the release or the closure, to `t`. -/
structure Since (vector : ProxyVector) (image : UInt64) (s t : ProxyState) : Prop where
  invariant : Bootstrap vector image t
  released : t.forwarding.ready = true ∨ t.initialization ≠ none
  same : t.forwarding = s.forwarding
  cached : ∀ b, s.initialization = some b → t.initialization = some b

/-- Behind the release, or the closure, runs go on and change nothing of it. -/
theorem Bootstrap.exec {es : List ProxyLabel} (h : Bootstrap vector image s)
    (hover : s.forwarding.ready = true ∨ s.initialization ≠ none)
    (hx : (proxy vector image).exec s es = some s') :
    s'.forwarding = s.forwarding ∧ ∀ b, s.initialization = some b → s'.initialization = some b := by
  have hstep : ∀ t e t', Since vector image s t → (proxy vector image).step t e = some t' →
      Since vector image s t' := by
    intro t e t' hi ht
    have hsame := hi.invariant.frozen ht hi.released
    refine ⟨hi.invariant.step ht, ?_, hsame.trans hi.same,
      fun b hb => hi.invariant.cached ht (hi.cached b hb)⟩
    refine hi.released.imp (fun hr => hsame ▸ hr) fun hi' hnone => ?_
    obtain ⟨b, hb⟩ := Option.ne_none_iff_exists'.mp hi'
    cases hnone.symm.trans (hi.invariant.cached ht hb)
  have hlast := exec_preserves hstep ⟨h, hover, rfl, fun _ => id⟩ hx
  exact ⟨hlast.same, hlast.cached⟩

end

/-! ## The theorem -/

/-- Steam asks for the state before the release and behind it; no ordinal is there. -/
def stateForwarded : List ProxyLabel :=
  let answered : Nat → ProxyLabel := fun address => .answer ⟨UInt64.ofNat address, 2, [0x43, 0x3a]⟩
  ([.enter .xinputGetState, .advance 0 false, .request] : List ProxyLabel)
  ++ [0, 100, 7, 0, 201, 0, 202, 0, 203, 0].map answered ++ (List.replicate 9 0).map answered
  ++ ([answered 0, answered 0, .finish, .enter .xinputGetState] : List ProxyLabel)
  ++ List.replicate 4 (ProxyLabel.advance 1 false)

end Gate
end SteamInputLease
