import SteamInputLease.Gate.SectionAudit
import SteamInputLease.Proof.Gate.Accounting

/-!
# Edge-triggered side effects

The four branches of `client_thread` find out in different ways whether they changed `blocking`.
`PcRecord` says, program counter by program counter, what the section so far did and what the branch
knows about it; at `unlock` only three records are left.

An acquire compares the counter before and after, a release looks at the count it left, and a claim
reads `blocking()` twice around its update. Each is right because the section is exclusive, and
wrong as soon as two updates could meet between the reads. So the record carries what `blocking` was
when the section began, and the invariant compares it with what it is now; `Settled` are the ends
such a section can have. An audit writes the finished sections down, outside the payload, and the
theorem is about what it has: in each section blocking stayed as it was, came on and was swept once,
or went off and was notified once. The two facts about a sweep and a notification in progress are
read off the same records.
-/

namespace SteamInputLease
namespace Gate

open Lib Lib.System Protocol Recovery

/-! ## `blocking` across an update -/

theorem blocking_addLease {k : Counters} (h₀ : 0 ≤ k.leaseCount) (h : k.leaseCount + 1 < 2 ^ 31) :
    (k.add 1 .lease).blocking = decide (k.passThroughCount = 0) := by
  have hk : i32 (k.leaseCount + 1) = k.leaseCount + 1 := i32_of_range (by omega) h
  have hpos : 0 < k.leaseCount + 1 := by omega
  simp [Counters.blocking, Counters.add, hk, hpos]

theorem blocking_addPassThrough {k : Counters} (h₀ : 0 ≤ k.passThroughCount)
    (h : k.passThroughCount + 1 < 2 ^ 31) : (k.add 1 .passThrough).blocking = false := by
  have hk : i32 (k.passThroughCount + 1) = k.passThroughCount + 1 := i32_of_range (by omega) h
  have hne : k.passThroughCount + 1 ≠ 0 := by omega
  simp [Counters.blocking, Counters.add, hk, hne]

/-! ## The record of a section in progress -/

/-- A change of `blocking` from `was` to `now`, with no call made yet. -/
def SectionRecord.edge (was now : Bool) : SectionRecord :=
  SectionRecord.quiet.after was now .closed .closed

/-- What the section so far did. `on` is `blocking` as the section found it. -/
def PcRecord (k : Counters) (on : Bool) (r : SectionRecord) : WorkerPc → Prop
  | .acquire _ | .release _ _ => r = .quiet ∧ k.blocking = on
  | .leaseAdded leases => r = .edge on k.blocking ∧ (on = true → k.blocking = true) ∧
      ((leases = 1 ∧ k.blocking = true) ↔ (on = false ∧ k.blocking = true))
  | .passThroughRead was | .releaseRead _ _ was => r = .quiet ∧ k.blocking = on ∧ was = on
  | .passThroughAdded was => r = .edge on k.blocking ∧ k.blocking = false ∧ was = on
  | .released _ _ was => r = .edge on k.blocking ∧ was = on
  | .discover _ => r = .swept ∧ on = false ∧ k.blocking = true
  | .notify _ _ => r = .notified ∧ on = true ∧ k.blocking = false
  | .unlock _ => (r = .quiet ∧ k.blocking = on) ∨ (r = .swept ∧ on = false ∧ k.blocking = true) ∨
      (r = .notified ∧ on = true ∧ k.blocking = false)
  | _ => r = .quiet

theorem pcRecord_outside {k : Counters} {on : Bool} {r : SectionRecord} {pc : WorkerPc}
    (h : pc.stage ≠ .inSection) : PcRecord k on r pc ↔ r = .quiet := by
  cases pc <;> first | exact Iff.rfl | exact absurd rfl h

theorem stage_of_sweeping {pc : WorkerPc} (h : pc.sweeping = true) : pc.stage = .inSection := by
  cases pc <;> first | rfl | cases h

theorem stage_of_notifying {pc : WorkerPc} (h : pc.notifying = true) : pc.stage = .inSection := by
  cases pc <;> first | rfl | cases h

/-- A step that makes no call and no change leaves the record. -/
theorem after_same {r : SectionRecord} {b : Bool} {pc pc' : WorkerPc}
    (hs : pc'.sweeping = true → pc.sweeping = true)
    (hn : pc'.notifying = true → pc.notifying = true) : r.after b b pc pc' = r := by
  cases b <;> cases h₁ : pc.sweeping <;> cases h₂ : pc'.sweeping <;> cases h₃ : pc.notifying <;>
    cases h₄ : pc'.notifying <;> simp_all [SectionRecord.after]

/-- The three records a section can end with; `was` and `now` are `blocking` at its two ends. -/
def Settled (r : SectionRecord) (was now : Bool) : Prop :=
  (r = .quiet ∧ now = was) ∨ (r = .swept ∧ was = false ∧ now = true) ∨
    (r = .notified ∧ was = true ∧ now = false)

/-- One step of a worker that stays inside its section. -/
theorem Move.record {i : Nat} {p p' : Payload} {c c' : Connection} {on : Bool}
    {r : SectionRecord} (hm : Move i p c p' c') (h₀ : ∀ o, 0 ≤ p.counters.count o)
    (hroom : ∀ o, c.pc.standing = .asking o → p.counters.count o + 1 < 2 ^ 31)
    (hs : c.pc.stage = .inSection) (hs' : c'.pc.stage = .inSection)
    (h : PcRecord p.counters on r c.pc) :
    PcRecord p'.counters on (r.after p.counters.blocking p'.counters.blocking c.pc c'.pc)
      c'.pc := by
  cases hm with
  | addLease hpc =>
    rw [hpc] at h ⊢
    obtain ⟨rfl, hon⟩ := h
    have hlt : p.counters.leaseCount + 1 < 2 ^ 31 := hroom .lease (by rw [hpc]; rfl)
    have hge : 0 ≤ p.counters.leaseCount := h₀ .lease
    have hb := blocking_addLease hge hlt
    have hi : i32 (p.counters.leaseCount + 1) = p.counters.leaseCount + 1 :=
      i32_of_range (by omega) hlt
    refine ⟨by rw [hon]; rfl, ?_, ?_⟩
    · intro h₁
      rw [h₁, Counters.blocking_iff] at hon
      simp [hb, hon.2]
    · -- `leases == 1 && blocking()` holds exactly when there was no lease and no claim
      show (i32 (p.counters.leaseCount + 1) = 1 ∧ (p.counters.add 1 .lease).blocking = true) ↔
        (on = false ∧ (p.counters.add 1 .lease).blocking = true)
      rw [hi, hb, decide_eq_true_iff, ← hon]
      refine and_congr_left fun hp => ?_
      simp only [Counters.blocking, hp, decide_true, Bool.and_true, decide_eq_false_iff_not]
      omega
  | leaseSweeps hpc hb =>
    rw [hpc] at h ⊢
    obtain ⟨rfl, _, hiff⟩ := h
    obtain ⟨rfl, _⟩ := hiff.mp ⟨rfl, hb⟩
    exact ⟨by rw [hb]; rfl, rfl, hb⟩
  | leaseQuiet hpc hq =>
    rw [hpc] at h ⊢
    rw [after_same (by simp [WorkerPc.sweeping]) (by simp [WorkerPc.notifying])]
    obtain ⟨rfl, hle, hiff⟩ := h
    rw [hiff] at hq
    have heq : p.counters.blocking = on := by
      cases on <;> simp_all
    exact .inl ⟨by rw [heq]; cases on <;> rfl, heq⟩
  -- the reads only fix `was_blocking`; the counters do not move under the lock
  | readBlocking hpc | readWasBlocking hpc =>
    rw [hpc] at h ⊢
    rw [after_same (by simp [WorkerPc.sweeping]) (by simp [WorkerPc.notifying])]
    exact ⟨h.1, h.2, h.2⟩
  | addPassThrough hpc =>
    rw [hpc] at h ⊢
    obtain ⟨rfl, hon, hwas⟩ := h
    have hb := blocking_addPassThrough (h₀ .passThrough) (hroom .passThrough (by rw [hpc]; rfl))
    exact ⟨by rw [hon]; rfl, hb, hwas⟩
  | passThroughNotifies hpc =>
    rw [hpc] at h ⊢
    obtain ⟨rfl, hb, rfl⟩ := h
    exact ⟨by rw [hb]; rfl, rfl, hb⟩
  | passThroughQuiet hpc =>
    rw [hpc] at h ⊢
    rw [after_same (by simp [WorkerPc.sweeping]) (by simp [WorkerPc.notifying])]
    obtain ⟨rfl, hb, rfl⟩ := h
    exact .inl ⟨by rw [hb]; rfl, hb⟩
  | giveBack hpc =>
    rw [hpc] at h ⊢
    obtain ⟨rfl, hon, hwas⟩ := h
    exact ⟨by rw [hon]; rfl, hwas⟩
  | releaseSweeps hpc hb =>
    rw [hpc] at h ⊢
    obtain ⟨rfl, rfl⟩ := h
    exact ⟨by rw [hb]; rfl, rfl, hb⟩
  | releaseNotifies hpc hb =>
    rw [hpc] at h ⊢
    obtain ⟨rfl, rfl⟩ := h
    exact ⟨by rw [hb]; rfl, rfl, hb⟩
  | releaseQuiet hpc =>
    rw [hpc] at h ⊢
    rw [after_same (by simp [WorkerPc.sweeping]) (by simp [WorkerPc.notifying])]
    obtain ⟨rfl, hwas⟩ := h
    exact .inl ⟨by rw [hwas]; cases on <;> rfl, hwas⟩
  -- behind the sweep or the notification the record is already the final one
  | discovered hpc =>
    rw [hpc] at h ⊢
    rw [after_same (by simp [WorkerPc.sweeping]) (by simp [WorkerPc.notifying])]
    exact .inr (.inl h)
  | notifying hpc _ =>
    rw [hpc] at h ⊢
    rw [after_same (by simp [WorkerPc.sweeping]) (by simp [WorkerPc.notifying])]
    exact h
  | notified hpc _ =>
    rw [hpc] at h ⊢
    rw [after_same (by simp [WorkerPc.sweeping]) (by simp [WorkerPc.notifying])]
    exact .inr (.inr h)
  | unlock hpc => exact absurd hs' (stage_sectionNext _)
  -- all other moves start outside the section
  | hooksInstalled hpc _ _ => simp [hpc, WorkerPc.stage] at hs
  | read hpc _ | hooksReady hpc _ | hooksRefused hpc _ | hooksFailed hpc _ | lockAcquire hpc _
  | readRelease hpc _ | lockRelease hpc _ | recoveryReady hpc _ | recoveryPending hpc _
  | written hpc _ => simp [hpc, WorkerPc.stage] at hs
  | disconnect hpc | claimResolution hpc | resolverSpawned hpc | resolverNotSpawned hpc
  | readPassState hpc | readCounts hpc | notWritten hpc => simp [hpc, WorkerPc.stage] at hs

/-- The step that ends a section. -/
theorem Move.settled {i : Nat} {p p' : Payload} {c c' : Connection} {on : Bool}
    {r : SectionRecord} (hm : Move i p c p' c') (hs : c.pc.stage = .inSection)
    (hs' : c'.pc.stage ≠ .inSection) (h : PcRecord p.counters on r c.pc) :
    p'.counters = p.counters ∧
    Settled (r.after p.counters.blocking p'.counters.blocking c.pc c'.pc) on
      p.counters.blocking := by
  cases hm with
  | unlock hpc =>
    rw [hpc] at h ⊢
    refine ⟨rfl, ?_⟩
    rw [after_same (fun h => absurd (stage_of_sweeping h) hs')
      (fun h => absurd (stage_of_notifying h) hs')]
    exact h
  | _ => first | exact absurd rfl hs' | simp_all [WorkerPc.stage]

/-- Outside its sections a worker makes neither call and changes no counter. -/
theorem Move.outside {i : Nat} {p p' : Payload} {c c' : Connection} (hm : Move i p c p' c')
    (hs : c.pc.stage ≠ .inSection) :
    p'.counters = p.counters ∧ c'.pc.sweeping = false ∧ c'.pc.notifying = false := by
  cases hm with
  | read hpc hr =>
    refine ⟨rfl, ?_, ?_⟩ <;> rw [Bool.eq_false_iff] <;> intro h
    · exact stage_dispatch _ (stage_of_sweeping h)
    · exact stage_dispatch _ (stage_of_notifying h)
  | written hpc _ | notWritten hpc =>
    refine ⟨rfl, ?_, ?_⟩ <;> rw [Bool.eq_false_iff] <;> intro h
    · exact stage_replyNext _ (stage_of_sweeping h)
    · exact stage_replyNext _ (stage_of_notifying h)
  | _ => first | exact ⟨rfl, rfl, rfl⟩ | simp_all [WorkerPc.stage]

/-- A worker enters a section at one of two places, when the lock is free. -/
theorem Move.entered {i : Nat} {p p' : Payload} {c c' : Connection} (hm : Move i p c p' c')
    (hs : c.pc.stage ≠ .inSection) (hs' : c'.pc.stage = .inSection) :
    p.ownershipTransition = none ∧ ((∃ o, c'.pc = .acquire o) ∨ ∃ o e, c'.pc = .release o e) := by
  cases hm with
  | lockAcquire _ hfree => exact ⟨hfree, .inl ⟨_, rfl⟩⟩
  | lockRelease _ hfree => exact ⟨hfree, .inr ⟨_, _, rfl⟩⟩
  | read hpc hr => exact absurd hs' (stage_dispatch _)
  | written hpc _ | notWritten hpc => exact absurd hs' (stage_replyNext _)
  | unlock hpc => exact absurd hs' (stage_sectionNext _)
  | _ => simp_all [WorkerPc.stage]

/-! ## The audit of a run -/

/-- The audit so far, against the state it describes. -/
structure Audited (s : State) (a : Audit) : Prop where
  outside : a.outside = .quiet
  closed : ∀ r ∈ a.closed, r = .quiet ∨ r = .swept ∨ r = .notified
  free : s.payload.ownershipTransition = none → s.blocking = leftOn a.closed
  record : ∀ i, PcRecord s.payload.counters (leftOn a.closed) (a.current i) (s.pc i)

theorem leftOn_cons {closed : List SectionRecord} {r : SectionRecord} {now : Bool}
    (h : Settled r (leftOn closed) now) : leftOn (r :: closed) = now := by
  rcases h with ⟨rfl, hn⟩ | ⟨rfl, _, rfl⟩ | ⟨rfl, _, rfl⟩
  · rw [hn]
    rfl
  · rfl
  · rfl

theorem audited_initial : Audited .initial .empty where
  outside := rfl
  closed r hr := by simp [Audit.empty] at hr
  free _ := rfl
  record i := rfl

/-- A step that moves no worker: the audit writes nothing down. -/
theorem Audited.background {s s' : State} {e : Label} {a : Audit} (ha : Audited s a)
    (hs : gate.step s e = some s') (hw : ∀ i ch, e ≠ .worker i ch) :
    Audited s' (a.observe s e s') := by
  obtain ⟨hk, hl, _⟩ := step_background hs hw
  have hb : s'.blocking = s.blocking := by rw [State.blocking, hk, State.blocking]
  have hobs : a.observe s e s' = a := by
    have : a.outside.after s.blocking s'.blocking .closed .closed = a.outside := by
      rw [hb]
      exact after_same (by simp) (by simp)
    cases e with
    | worker i ch => exact absurd rfl (hw i ch)
    | _ => simp only [Audit.observe, this]
  rw [hobs]
  refine ⟨ha.outside, ha.closed, ?_, ?_⟩
  · rw [hl, hb]
    exact ha.free
  · intro i
    rw [hk, pc_background hs hw]
    exact ha.record i

/-- The holder of the lock is the only worker inside a section. -/
theorem Balanced.only {s : State} {i j : Nat} (hb : Balanced s)
    (hi : (s.pc i).stage = .inSection) (hj : (s.pc j).stage = .inSection) : j = i := by
  have key : ∀ k, (s.pc k).stage = .inSection → s.payload.ownershipTransition = some k := by
    intro k hk
    cases hc : s.conns[k]? with
    | none => simp [State.pc, hc, WorkerPc.stage] at hk
    | some c =>
      rw [pc_eq hc] at hk
      exact (hb.holder k c hc).mp hk
  exact Option.some.inj ((key j hj).symm.trans (key i hi))

/-- A worker outside its sections: the audit writes nothing down. -/
theorem Audited.workerOutside {s : State} {a : Audit} {i : Nat} {ch : Choice}
    {c c' : Connection} {p : Payload} (ha : Audited s a) (hc : s.conns[i]? = some c)
    (hm : Move i s.payload c p c') (hs : c.pc.stage ≠ .inSection) :
    Audited { payload := p, conns := s.conns.set i c' }
      (a.observe s (.worker i ch) { payload := p, conns := s.conns.set i c' }) := by
  obtain ⟨hk, hsw, hno⟩ := hm.outside hs
  have hobs : a.observe s (.worker i ch) { payload := p, conns := s.conns.set i c' } = a := by
    simp only [Audit.observe, pc_eq hc, pc_set_self hc, hs, if_false, State.blocking, hk]
    rw [after_same (by simp [hsw]) (by simp [hno])]
  rw [hobs]
  have hquiet : a.current i = .quiet := by
    have := ha.record i
    rwa [pc_eq hc, pcRecord_outside hs] at this
  refine ⟨ha.outside, ha.closed, ?_, ?_⟩
  · intro hfree
    rw [State.blocking, hk]
    refine ha.free ?_
    cases hm.effect with
    | read _ _ _ hl _ => exact hl ▸ hfree
    | quiet _ _ hl _ _ => exact hl ▸ hfree
    | enter _ _ hl _ _ _ _ => exact hl
    | leave _ _ _ hin _ => exact absurd hin hs
    | grant _ _ _ _ _ hin _ => exact absurd hin hs
    | giveBack _ _ _ _ _ hin _ => exact absurd hin hs
  · intro j
    by_cases hj : j = i
    · subst hj
      rw [pc_set_self hc, hk]
      by_cases hs' : c'.pc.stage = .inSection
      · obtain ⟨hfree, ⟨o, hpc⟩ | ⟨o, e, hpc⟩⟩ := hm.entered hs hs' <;> rw [hpc]
        · exact ⟨hquiet, ha.free hfree⟩
        · exact ⟨hquiet, ha.free hfree⟩
      · exact (pcRecord_outside hs').mpr hquiet
    · rw [pc_set_ne hj, hk]
      exact ha.record j

/-- A worker inside its section, at a step that stays in it or at the one that ends it. -/
theorem Audited.workerInside {s : State} {a : Audit} {i : Nat} {ch : Choice}
    {c c' : Connection} {p : Payload} (hb : Balanced s) (ha : Audited s a)
    (hc : s.conns[i]? = some c) (hm : Move i s.payload c p c')
    (hs : c.pc.stage = .inSection) :
    Audited { payload := p, conns := s.conns.set i c' }
      (a.observe s (.worker i ch) { payload := p, conns := s.conns.set i c' }) := by
  have hrec : PcRecord s.payload.counters (leftOn a.closed) (a.current i) c.pc := pc_eq hc ▸ ha.record i
  have hothers : ∀ j k on, j ≠ i → PcRecord k on (a.current j) (s.pc j) := by
    intro j k on hj
    have hout : (s.pc j).stage ≠ .inSection := fun h =>
      hj (hb.only (by rw [pc_eq hc]; exact hs) h)
    have := ha.record j
    rw [pcRecord_outside hout] at this ⊢
    exact this
  by_cases hs' : c'.pc.stage = .inSection
  · have hstep := hm.record (hb.nonneg ·) (fun o ho => hb.room hc hm.live ho) hs hs' hrec
    simp only [Audit.observe, pc_eq hc, pc_set_self hc, hs, hs', if_true]
    refine ⟨ha.outside, ha.closed, ?_, ?_⟩
    -- the lock is free only behind a step that leaves the section, and this one stays
    · intro hfree
      have hl := (hb.holder i c hc).mp hs
      cases hm.effect with
      | read hpc _ _ _ _ => simp [hpc, WorkerPc.stage] at hs
      | quiet _ _ hl' _ _ => simp [hl', hl] at hfree
      | enter _ _ _ _ _ hno _ => exact absurd hs hno
      | leave _ _ _ _ hno => exact absurd hs' hno
      | grant _ _ hl' _ _ _ _ => simp [hl', hl] at hfree
      | giveBack _ _ hl' _ _ _ _ => simp [hl', hl] at hfree
    · intro j
      by_cases hj : j = i
      · subst hj
        rw [pc_set_self hc]
        simp only [if_true, State.blocking]
        exact hstep
      · rw [pc_set_ne hj]
        simpa only [if_neg hj] using hothers j _ _ hj
  · obtain ⟨hk, hset⟩ := hm.settled hs hs' hrec
    simp only [Audit.observe, pc_eq hc, pc_set_self hc, hs, hs', if_true, if_false]
    refine ⟨ha.outside, ?_, ?_, ?_⟩
    · intro r hr
      rcases List.mem_cons.mp hr with rfl | hr
      · exact hset.imp (·.1) (Or.imp (·.1) (·.1))
      · exact ha.closed r hr
    · intro _
      exact (congrArg _ hk).trans (leftOn_cons hset).symm
    · intro j
      by_cases hj : j = i
      · subst hj
        rw [pc_set_self hc]
        exact (pcRecord_outside hs').mpr (if_pos rfl)
      · rw [pc_set_ne hj]
        simpa only [if_neg hj] using hothers j _ _ hj

/-- The audit of every run is clean. -/
theorem audited_of_reach {C : State → Label → Prop} {s : State} {a : Audit}
    (hr : (gate.observed .empty Audit.observe).ReachUnder (fun q e => C q.1 e) (s, a)) :
    Audited s a := by
  refine observed_invariant (fun s h => h ▸ audited_initial) ?_ hr
  intro s a e s' hr ha _ hs
  cases e with
  | worker i ch =>
    obtain ⟨c, p, c', hc, hm, rfl⟩ := step_worker hs
    by_cases hin : c.pc.stage = .inSection
    · exact ha.workerInside (balanced_of_reach hr) hc hm hin
    · exact ha.workerOutside hc hm hin
  | _ => exact ha.background hs (by simp)

/-- A section makes each of its two calls only where blocking has become what the call is for. -/
theorem PcRecord.calls {k : Counters} {on : Bool} {r : SectionRecord} {pc : WorkerPc}
    (h : PcRecord k on r pc) :
    (pc.sweeping = true → k.blocking = true) ∧ (pc.notifying = true → k.blocking = false) := by
  cases pc with
  | discover sec => exact ⟨fun _ => h.2.2, by simp [WorkerPc.notifying]⟩
  | notify n sec => exact ⟨by simp [WorkerPc.sweeping], fun _ => h.2.2⟩
  | _ => simp [WorkerPc.sweeping, WorkerPc.notifying]

/-- Every reachable state is the end of a run with an audit. -/
theorem reach_audited {s : State} (hr : gate.Reach s) : ∃ a, Audited s a := by
  obtain ⟨a, ha⟩ := reach_observed .empty Audit.observe hr
  exact ⟨a, audited_of_reach (C := fun _ _ => True) ha⟩

/-- Blocking is on as long as a sweep runs. -/
theorem sweeping_blocking {s : State} (hr : gate.Reach s) {i : Nat}
    (hi : (s.pc i).sweeping = true) : s.blocking = true := by
  obtain ⟨a, ha⟩ := reach_audited hr
  exact (ha.record i).calls.1 hi

/-- Blocking is off as long as a notification runs. -/
theorem notifying_blocking {s : State} (hr : gate.Reach s) {i : Nat}
    (hi : (s.pc i).notifying = true) : s.blocking = false := by
  obtain ⟨a, ha⟩ := reach_audited hr
  exact (ha.record i).calls.2 hi

/-! ## Edge-triggered side effects -/

/-- What an audit finds, at any point of a run. -/
structure EdgeTriggered (s : State) (a : Audit) : Prop where
  /-- `blocking` changes and the two calls are made in sections only. -/
  outside : a.outside = .quiet
  /-- A section changed nothing and called nothing, or turned blocking on and swept once, or
      turned it off and notified once. -/
  sections : ∀ r ∈ a.closed, r = .quiet ∨ r = .swept ∨ r = .notified
  /-- The same of a section about to end. -/
  ending : ∀ i sec, s.pc i = .unlock sec →
    a.current i = .quiet ∨ a.current i = .swept ∨ a.current i = .notified
  /-- A sweep runs while blocking is on, a notification while it is off. -/
  sweepsOn : ∀ i, (s.pc i).sweeping = true → s.blocking = true
  notifiesOff : ∀ i, (s.pc i).notifying = true → s.blocking = false
  /-- Between sections, blocking is on exactly when the last change of it was swept. -/
  settled : s.payload.ownershipTransition = none → s.blocking = leftOn a.closed

theorem edgeTriggered {s : State} {a : Audit}
    (hr : (gate.observed .empty Audit.observe).Reach (s, a)) : EdgeTriggered s a := by
  have ha : Audited s a := audited_of_reach (C := fun _ _ => True) hr
  refine ⟨ha.outside, ha.closed, ?_, fun i => (ha.record i).calls.1,
    fun i => (ha.record i).calls.2, ha.free⟩
  intro i sec hpc
  have h := ha.record i
  rw [hpc] at h
  exact h.imp (·.1) (Or.imp (·.1) (·.1))

/-- A claim is taken, then a lease, and the claim ends. -/
def claimEnds : List Label :=
  [.accept .raw, .client 0 (.send (Request.new .acquirePassThrough).toBytes),
    .accept .raw, .client 1 (.send (Request.new .acquireLease).toBytes)]
  ++ .replicate 6 (.worker 0 .go)
  ++ [.worker 1 .go, .worker 1 (.install true false)] ++ .replicate 4 (.worker 1 .go)
  ++ [.worker 0 (.flag false), .worker 0 (.flag false), .worker 0 .go,
    .worker 0 (.counts 0 0), .worker 0 (.flag true), .client 0 .close]
  ++ .replicate 7 (.worker 0 .go)

/-- A lease taken under a claim, and the claim's end: blocking comes on with the last claim, in
    a section that swept. -/
theorem edgeTriggered_claim_ends : ∃ s a, (gate.observed .empty Audit.observe).Reach (s, a) ∧
    s.blocking = true ∧ leftOn a.closed = true ∧ EdgeTriggered s a := by
  obtain ⟨s, hr, hp⟩ := exists_reach_of_exec (T := gate) (s := .initial) claimEnds
    (fun s => s.blocking && s.payload.ownershipTransition == none) rfl (by decide)
  obtain ⟨a, ha⟩ := reach_observed .empty Audit.observe hr
  simp only [Bool.and_eq_true, beq_iff_eq] at hp
  exact ⟨s, a, ha, hp.1, (edgeTriggered ha).settled hp.2 ▸ hp.1, edgeTriggered ha⟩

end Gate
end SteamInputLease
