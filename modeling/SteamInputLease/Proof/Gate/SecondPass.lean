import SteamInputLease.Gate.TimerWatch
import SteamInputLease.Proof.Gate.Notify

/-!
# No second discovery pass is lost

`TimerSound` is the invariant of the timer thread and its flag. The flag is set before the spawn is
known to succeed, so it says something only together with where the one worker inside
`notify_controller_rescan` is: `TimerAt` is that part.

Losing the pass could happen in several ways, and each has its clause in `SecondPassKept`. The
thread could sleep through the deadline, if the notify came before its wait; a deadline could be
overwritten or cleared by the wrong thread, or too early; and a worker that was refused a thread
could leave without making the pass itself. The watch of the run writes down what was armed and what
was cleared, by what it sees the steps do and not by the flag. The last way is closed off by the
worker alone: it is inside its section, blocking stays off, and so the guard before its own pass
does not turn it away.
-/

namespace SteamInputLease
namespace Gate

open Lib Lib.System Recovery

/-! ## The timer thread and its flag -/

/-- The flag and the thread, while a worker is at `n` in its notification. -/
def TimerAt (t : RescanTimer) : NotifyPc → Prop
  | .spawn => t.started = true ∧ t.thread = .absent
  | .arm => t.thread ≠ .absent
  | _ => t.started = true → t.thread ≠ .absent

structure TimerSound (s : State) : Prop where
  started : s.payload.timer.thread ≠ .absent → s.payload.timer.started = true
  armed : s.payload.timer.armed.isSome → s.payload.timer.thread ≠ .absent
  awake : s.payload.timer.armed.isSome → s.payload.timer.thread = .wait →
    s.payload.timer.notified = true
  at_ : ∀ i n sec, s.pc i = .notify n sec → TimerAt s.payload.timer n
  idle : (∀ i, (s.pc i).notifying = false) → s.payload.timer.started = true →
    s.payload.timer.thread ≠ .absent

/-- Only a worker and the timer thread touch the timer. -/
theorem timer_still {s s' : State} {e : Label} (hs : gate.step s e = some s')
    (hw : ∀ i ch, e ≠ .worker i ch) (ht : ∀ ch, e ≠ .timer ch) :
    s'.payload.timer = s.payload.timer := by
  cases e with
  | accept h =>
    obtain ⟨_, _, rfl⟩ := step_accept hs
    rfl
  | client i a =>
    obtain ⟨c, c', _, _, rfl⟩ := step_client hs
    rfl
  | worker i ch => exact absurd rfl (hw i ch)
  | timer ch => exact absurd rfl (ht ch)
  | resolver j ch =>
    obtain ⟨k, run, rs, rfl⟩ := step_resolver hs
    rfl
  | tick ms => rw [step_tick hs]

theorem TimerSound.congr {s s' : State} (h : TimerSound s)
    (ht : s'.payload.timer = s.payload.timer) (hpc : ∀ i, s'.pc i = s.pc i) : TimerSound s' := by
  refine ⟨?_, ?_, ?_, ?_, ?_⟩
  · rw [ht]
    exact h.started
  · rw [ht]
    exact h.armed
  · rw [ht]
    exact h.awake
  · intro i n sec hi
    rw [ht]
    exact h.at_ i n sec (hpc i ▸ hi)
  · intro hno
    rw [ht]
    exact h.idle fun i => hpc i ▸ hno i

/-- A step of the timer thread. It exists, so nobody is between the flag and the spawn. -/
theorem TimerSound.timer {s : State} {k : Caches} {t : RescanTimer} (h : TimerSound s)
    (hm : TimerMove s.payload.counters s.payload.clock s.payload.caches s.payload.timer k t) :
    TimerSound { s with payload := { s.payload with caches := k, timer := t } } := by
  have hthere : s.payload.timer.thread ≠ .absent := by
    cases hm with
    | wake ht => intro hf; simp [hf, TimerPc.waits] at ht
    | wait ht _ | waitTimeout ht _ _ | fire ht _ _ | held ht _ | request ht _
    | requesting ht _ | requested ht _ => simp [ht]
  have hthere' : t.thread ≠ .absent := by cases hm <;> simp
  have hstarted : t.started = true := by
    have := h.started hthere
    cases hm <;> exact this
  refine ⟨fun _ => hstarted, fun _ => hthere', ?_, ?_, fun _ _ => hthere'⟩
  · cases hm with
    | wait _ ha => intro hsome; simp [ha] at hsome
    | _ => simp
  · intro i n sec hi
    have hold := h.at_ i n sec hi
    cases n with
    | spawn => exact absurd hold.2 hthere
    | arm => exact hthere'
    | _ => exact fun _ => hthere'

/-- What one step of `notify_controller_rescan` keeps about the timer. -/
theorem NotifyMove.timerAt {k : Counters} {now : Nat} {c c' : Caches} {t t' : RescanTimer}
    {n : NotifyPc} {n' : Option NotifyPc} (hm : NotifyMove k now c t n c' t' n')
    (hs : t.thread ≠ .absent → t.started = true) (h : TimerAt t n) :
    (t'.thread ≠ .absent → t'.started = true) ∧
    (match n' with
      | some n' => TimerAt t' n'
      | none => t'.started = true → t'.thread ≠ .absent) := by
  cases hm with
  | started hst => exact ⟨hs, h hst⟩
  | claimed hst =>
    refine ⟨fun _ => rfl, rfl, ?_⟩
    by_contra hthere
    simp [hs hthere] at hst
  | spawned => exact ⟨fun _ => h.1, by simp [TimerAt]⟩
  | spawnFailed => exact ⟨fun hthere => absurd h.2 hthere, by simp [TimerAt]⟩
  | arm => exact ⟨hs, fun _ => h⟩
  | _ => exact ⟨hs, h⟩

/-- Arming finds a thread, and one that waits is notified. -/
theorem NotifyMove.armed {k : Counters} {now : Nat} {c c' : Caches} {t t' : RescanTimer}
    {n : NotifyPc} {n' : Option NotifyPc} (hm : NotifyMove k now c t n c' t' n')
    (h : TimerAt t n) (ha : t.armed.isSome → t.thread ≠ .absent)
    (hw : t.armed.isSome → t.thread = .wait → t.notified = true) :
    (t'.armed.isSome → t'.thread ≠ .absent) ∧
    (t'.armed.isSome → t'.thread = .wait → t'.notified = true) := by
  cases hm with
  | spawned => simp
  | arm =>
    refine ⟨fun _ => h, fun _ hwait => ?_⟩
    have hwait : t.thread = .wait := hwait
    simp [RescanTimer.arm, hwait, TimerPc.waits]
  | _ => exact ⟨ha, hw⟩

theorem TimerSound.worker {s : State} {i : Nat} {c c' : Connection} {p : Payload}
    (hr : gate.Reach s) (hr' : gate.Reach { payload := p, conns := s.conns.set i c' })
    (h : TimerSound s) (hc : s.conns[i]? = some c) (hm : Move i s.payload c p c') :
    TimerSound { payload := p, conns := s.conns.set i c' } := by
  -- the other workers are outside their sections whenever worker `i` notifies
  have halone : ∀ {s : State}, gate.Reach s → (s.pc i).notifying = true →
      ∀ j, j ≠ i → (s.pc j).notifying = false := by
    intro s hr hi j hj
    rw [Bool.eq_false_iff]
    exact fun hn => hj (only_in_section hr (stage_of_notifying hi) (stage_of_notifying hn))
  cases hm.notify with
  | other hno ht hclock hguard =>
    have hidle : (∀ j, j ≠ i → (s.pc j).notifying = false) →
        s.payload.timer.started = true → s.payload.timer.thread ≠ .absent := by
      intro hothers
      refine h.idle fun j => ?_
      by_cases hj : j = i
      · rw [hj, pc_eq hc, hno]
      · exact hothers j hj
    refine ⟨by rw [ht]; exact h.started, by rw [ht]; exact h.armed, by rw [ht]; exact h.awake,
      ?_, ?_⟩
    · intro j n sec hj
      by_cases hji : j = i
      · subst hji
        have hn : n = .guard := hguard n sec (pc_set_self hc ▸ hj)
        rw [hn, ht]
        refine hidle fun j' hj' => ?_
        have := halone hr' (by rw [hj]; rfl) j' hj'
        rwa [pc_set_ne hj'] at this
      · rw [ht]
        rw [pc_set_ne hji] at hj
        exact h.at_ j n sec hj
    · intro hnone
      rw [ht]
      refine hidle fun j hj => ?_
      have := hnone j
      rwa [pc_set_ne hj] at this
  | @inside n n' sec k t hpc hpc' hp hmove =>
    have hat : TimerAt s.payload.timer n := h.at_ i n sec (by rw [pc_eq hc, hpc])
    obtain ⟨hst, hnext⟩ := hmove.timerAt h.started hat
    obtain ⟨harm, hawake⟩ := hmove.armed hat h.armed h.awake
    have hself : ({ payload := p, conns := s.conns.set i c' } : State).pc i = .notify n' sec := by
      rw [pc_set_self hc, hpc']
    subst hp
    refine ⟨hst, harm, hawake, ?_, ?_⟩
    · intro j m sec' hj
      by_cases hji : j = i
      · subst hji
        rw [hself, WorkerPc.notify.injEq] at hj
        exact hj.1 ▸ hnext
      · have := halone hr' (by rw [hself]; rfl) j hji
        simp [hj, WorkerPc.notifying] at this
    · intro hnone
      have := hnone i
      simp [hself, WorkerPc.notifying] at this
  | @ended n sec k t hpc hpc' hp hmove =>
    have hat : TimerAt s.payload.timer n := h.at_ i n sec (by rw [pc_eq hc, hpc])
    obtain ⟨hst, hnext⟩ := hmove.timerAt h.started hat
    obtain ⟨harm, hawake⟩ := hmove.armed hat h.armed h.awake
    subst hp
    refine ⟨hst, harm, hawake, ?_, fun _ => hnext⟩
    intro j m sec' hj
    by_cases hji : j = i
    · subst hji
      rw [pc_set_self hc, hpc'] at hj
      simp at hj
    · have := halone hr (by rw [pc_eq hc, hpc]; rfl) j hji
      rw [pc_set_ne hji] at hj
      simp [hj, WorkerPc.notifying] at this

theorem timerSound_initial : TimerSound .initial where
  started h := absurd rfl h
  armed h := by simp [State.initial, Payload.initial] at h
  awake h := by simp [State.initial, Payload.initial] at h
  at_ i n sec h := by simp [State.initial, State.pc] at h
  idle _ h := by simp [State.initial, Payload.initial] at h

theorem timerSound_of_reach {s : State} (hr : gate.Reach s) : TimerSound s := by
  refine ReachUnder.invariant (fun s h => h ▸ timerSound_initial) ?_ hr
  intro s e s' hr h _ hs
  cases e with
  | worker i ch =>
    have hr' : gate.Reach s' := Reach.next hr hs
    obtain ⟨c, p, c', hc, hm, rfl⟩ := step_worker hs
    exact h.worker hr hr' hc hm
  | timer ch =>
    obtain ⟨k, t, ht, rfl⟩ := step_timer hs
    exact h.timer (timerStep_move ht)
  | _ => exact h.congr (timer_still hs (by simp) (by simp)) (pc_background hs (by simp))

/-! ## The watch of a run -/

/-- The worker has been refused a timer thread and has not finished its own second pass. -/
def WorkerPc.owing : WorkerPc → Bool
  | .notify (.sleep _) _ | .notify .guardAgain _ | .notify (.second _) _ => true
  | _ => false

/-- What a watch finds, at any point of a run. -/
structure SecondPassKept (s : State) (w : TimerWatch) : Prop where
  /-- A call that returned `true` left a timer thread. -/
  live : w.scheduled = true → s.payload.timer.thread ≠ .absent
  /-- The deadline is the one armed last and not cleared since: nothing overwrites or drops an
      arm, whether the thread waits, is in its unlocked window or is about to relock. -/
  pending : s.payload.timer.armed = w.latest
  /-- Only the timer thread clears it, and only a call that returns `true` arms it. -/
  foreign : w.foreign = 0
  /-- It is never cleared before the deadline armed last. -/
  early : w.early = 0
  /-- Each clearing is followed by one evaluation of `blocking()`. -/
  guarded : w.clears = w.guards + if s.payload.timer.thread = .guard then 1 else 0
  /-- No deadline waits for a thread that waits for nothing. -/
  awake : s.payload.timer.armed.isSome → s.payload.timer.thread = .wait →
    s.payload.timer.notified = true
  /-- A worker that got `false` does not leave before it has made the pass itself. -/
  owed : ∀ i, w.owed i = true → (s.pc i).owing = true

theorem SecondPassKept.still {s s' : State} {e : Label} {w : TimerWatch}
    (h : SecondPassKept s w) (hs : gate.step s e = some s') (hw : ∀ i ch, e ≠ .worker i ch)
    (ht : ∀ ch, e ≠ .timer ch) : SecondPassKept s' (w.observe s e s') := by
  have htimer := timer_still hs hw ht
  have hobs : w.observe s e s' = w := by
    cases e with
    | worker i ch => exact absurd rfl (hw i ch)
    | timer ch => exact absurd rfl (ht ch)
    | _ => simp [TimerWatch.observe, htimer]
  rw [hobs]
  refine ⟨?_, ?_, h.foreign, h.early, ?_, ?_, ?_⟩
  · rw [htimer]
    exact h.live
  · rw [htimer]
    exact h.pending
  · rw [htimer]
    exact h.guarded
  · rw [htimer]
    exact h.awake
  · intro i hi
    rw [pc_background hs hw]
    exact h.owed i hi

/-- The timer thread clears a deadline that has passed and goes to the guard, or it leaves the
    deadline alone and does not. -/
theorem TimerMove.deadline {k : Counters} {now : Nat} {c c' : Caches} {t t' : RescanTimer}
    (hm : TimerMove k now c t c' t') :
    (∃ at_, t.thread = .lock ∧ t.armed = some at_ ∧ at_ ≤ now ∧ t'.armed = none ∧
      t'.thread = .guard) ∨
    (t'.armed = t.armed ∧ t'.thread ≠ .guard) := by
  cases hm with
  | fire ht ha hn => exact .inl ⟨_, ht, ha, hn, rfl, rfl⟩
  | _ => exact .inr ⟨rfl, by simp⟩

theorem SecondPassKept.timer {s : State} {w : TimerWatch} {k : Caches} {t : RescanTimer}
    (h : SecondPassKept s w) (hsound : TimerSound { s with
      payload := { s.payload with caches := k, timer := t } })
    (hm : TimerMove s.payload.counters s.payload.clock s.payload.caches s.payload.timer k t) :
    SecondPassKept { s with payload := { s.payload with caches := k, timer := t } }
      (w.observeTimer s { s with payload := { s.payload with caches := k, timer := t } }) := by
  have hthere : t.thread ≠ .absent := by cases hm <;> simp
  have hguarded := h.guarded
  rcases hm.deadline with ⟨at_, hl, ha, hn, ha', hg⟩ | ⟨ha', hg⟩
  · refine ⟨fun _ => hthere, ?_, ?_, ?_, ?_, hsound.awake, h.owed⟩
    · simp [TimerWatch.observeTimer, ha, ha']
    · simp [TimerWatch.observeTimer, ha, ha', h.foreign]
    · simp [TimerWatch.observeTimer, ← h.pending, ha, ha', hn, h.early]
    · simp [TimerWatch.observeTimer, ha, ha', hg, hl, hguarded]
  · have hclear : (s.payload.timer.armed.isSome && s.payload.timer.armed.isNone) = false := by
      cases s.payload.timer.armed <;> rfl
    refine ⟨fun _ => hthere, ?_, ?_, ?_, ?_, hsound.awake, h.owed⟩
    · simp only [TimerWatch.observeTimer, ha', hclear]
      exact h.pending
    · simp [TimerWatch.observeTimer, ha', h.foreign]
    · simp only [TimerWatch.observeTimer, ha', hclear]
      exact h.early
    · simp only [TimerWatch.observeTimer, ha', hclear, hg, if_false, Nat.add_zero]
      exact hguarded

/-- What a worker's step does to the deadline and to the thread: it arms, or it leaves the
    deadline alone; it starts a thread where there is none, or leaves that alone. -/
theorem Move.deadline {s : State} {i : Nat} {c c' : Connection} {p : Payload}
    (hsound : TimerSound s) (hc : s.conns[i]? = some c) (hm : Move i s.payload c p c') :
    ((c.pc.arming = true ∧ s.payload.timer.thread ≠ .absent ∧
        p.timer.armed = some (s.payload.clock + secondDiscoveryDelay)) ∨
      (c.pc.arming = false ∧ p.timer.armed = s.payload.timer.armed)) ∧
    (p.timer.thread = s.payload.timer.thread ∨
      (s.payload.timer.thread = .absent ∧ p.timer.thread = .lock)) := by
  have hat : ∀ n sec, c.pc = .notify n sec → TimerAt s.payload.timer n := fun n sec hpc =>
    hsound.at_ i n sec (by rw [pc_eq hc, hpc])
  cases hm.notify with
  | other hno ht hclock hguard =>
    have harm : c.pc.arming = false := by
      cases hpc : c.pc <;> simp_all [WorkerPc.arming, WorkerPc.notifying]
    exact ⟨.inr ⟨harm, by rw [ht]⟩, .inl (by rw [ht])⟩
  | inside hpc hpc' hp hmove =>
    have := hat _ _ hpc
    subst hp
    cases hmove with
    | spawned => exact ⟨.inr ⟨by rw [hpc]; rfl, rfl⟩, .inr ⟨this.2, rfl⟩⟩
    | _ => exact ⟨.inr ⟨by rw [hpc]; rfl, rfl⟩, .inl rfl⟩
  | ended hpc hpc' hp hmove =>
    have := hat _ _ hpc
    subst hp
    cases hmove with
    | arm => exact ⟨.inl ⟨by rw [hpc]; rfl, this, rfl⟩, .inl rfl⟩
    | _ => exact ⟨.inr ⟨by rw [hpc]; rfl, rfl⟩, .inl rfl⟩

/-- A worker that owes the second pass goes on owing it until it has made it: blocking is off,
    so the guard before the pass does not turn it away. -/
theorem Move.owing {s : State} {i : Nat} {c c' : Connection} {p : Payload} (hr : gate.Reach s)
    (hc : s.conns[i]? = some c) (hm : Move i s.payload c p c') (ho : c.pc.owing = true)
    (hmade : (c.pc.secondPass && !c'.pc.secondPass) = false) : c'.pc.owing = true := by
  have hoff : c.pc.notifying = true → s.payload.counters.blocking = false := fun hn =>
    notifying_blocking hr (by rw [pc_eq hc]; exact hn)
  cases hm.notify with
  | other hno ht hclock hguard =>
    cases hpc : c.pc <;> simp_all [WorkerPc.owing, WorkerPc.notifying]
  | inside hpc hpc' hp hmove =>
    rw [hpc'] at *
    rw [hpc] at ho
    cases hmove with
    | slept _ | again _ | second _ => rfl
    | _ => cases ho
  | ended hpc hpc' hp hmove =>
    rw [hpc] at ho hoff
    cases hmove with
    | blockedAgain hb => simp [hoff rfl] at hb
    | secondEnded _ => simp [hpc, hpc', WorkerPc.secondPass] at hmade
    | _ => cases ho

theorem SecondPassKept.worker {s : State} {w : TimerWatch} {i : Nat} {c c' : Connection}
    {p : Payload} (hr : gate.Reach s) (h : SecondPassKept s w) (hsound : TimerSound s)
    (hsound' : TimerSound { payload := p, conns := s.conns.set i c' })
    (hc : s.conns[i]? = some c) (hm : Move i s.payload c p c') :
    SecondPassKept { payload := p, conns := s.conns.set i c' }
      (w.observeWorker s i { payload := p, conns := s.conns.set i c' }) := by
  obtain ⟨hdead, hthread⟩ := hm.deadline hsound hc
  have hthere : s.payload.timer.thread ≠ .absent → p.timer.thread ≠ .absent := by
    rcases hthread with ht | ⟨_, ht⟩ <;> simp [ht]
  refine ⟨?_, ?_, ?_, h.early, ?_, hsound'.awake, ?_⟩
  · intro hsched
    simp only [TimerWatch.observeWorker, pc_eq hc, Bool.or_eq_true] at hsched
    rcases hsched with hsched | harm
    · exact hthere (h.live hsched)
    · rcases hdead with ⟨_, hlive, _⟩ | ⟨hno, _⟩
      · exact hthere hlive
      · simp [hno] at harm
  · rcases hdead with ⟨harm, _, ha⟩ | ⟨harm, ha⟩
    · simp [TimerWatch.observeWorker, pc_eq hc, harm, ha]
    · simp [TimerWatch.observeWorker, pc_eq hc, harm, ha, h.pending]
  · rcases hdead with ⟨harm, _, ha⟩ | ⟨harm, ha⟩
    · simp [TimerWatch.observeWorker, pc_eq hc, harm, h.foreign]
    · simp [TimerWatch.observeWorker, pc_eq hc, ha, h.foreign]
  · have := h.guarded
    rcases hthread with ht | ⟨ht, ht'⟩
    · simpa only [TimerWatch.observeWorker, ht] using this
    · simpa [TimerWatch.observeWorker, ht, ht'] using this
  · intro j hj
    by_cases hji : j = i
    · subst hji
      rw [pc_set_self hc]
      simp only [TimerWatch.observeWorker, if_true, pc_eq hc, pc_set_self hc, Bool.or_eq_true,
        Bool.and_eq_true, Bool.not_eq_true'] at hj
      rcases hj with ⟨_, hwait⟩ | ⟨howed, hmade⟩
      · cases hpc : c'.pc with
        | notify n sec => cases n <;> simp_all [WorkerPc.waiting, WorkerPc.owing]
        | _ => simp [hpc, WorkerPc.waiting] at hwait
      -- a pass that was owed before stays so until this worker makes it
      · have := h.owed j howed
        rw [pc_eq hc] at this
        exact hm.owing hr hc this hmade
    · rw [pc_set_ne hji]
      refine h.owed j ?_
      simpa [TimerWatch.observeWorker, hji] using hj

/-- No second discovery pass is lost, in any run. -/
theorem secondPassKept {s : State} {w : TimerWatch}
    (hr : (gate.observed .start TimerWatch.observe).Reach (s, w)) : SecondPassKept s w := by
  refine observed_invariant (C := fun _ _ => True) ?_ ?_ hr
  · rintro s rfl
    exact ⟨by simp [TimerWatch.start], rfl, rfl, rfl, rfl, timerSound_initial.awake,
      by simp [TimerWatch.start]⟩
  intro s w e s' hr h _ hs
  have hsound := timerSound_of_reach hr
  have hsound' : TimerSound s' := timerSound_of_reach (Reach.next hr hs)
  cases e with
  | worker i ch =>
    obtain ⟨c, p, c', hc, hm, rfl⟩ := step_worker hs
    exact h.worker hr hsound hsound' hc hm
  | timer ch =>
    obtain ⟨k, t, ht, rfl⟩ := step_timer hs
    exact h.timer hsound' (timerStep_move ht)
  | _ => exact h.still hs (by simp) (by simp)

/-- After a release the deadline is armed and the thread waits for it. -/
theorem secondPassKept_armed : ∃ s w, (gate.observed .start TimerWatch.observe).Reach (s, w) ∧
    s.payload.timer.armed = some secondDiscoveryDelay ∧
    s.payload.timer.thread = .waitTimeout ∧ SecondPassKept s w := by
  obtain ⟨s, hr, hp⟩ := exists_reach_of_exec (T := gate) (s := .initial)
    (leaseGone ++ notifyArms 0 ++ [Label.timer .go])
    (fun s => s.payload.timer.armed == some secondDiscoveryDelay &&
      s.payload.timer.thread == .waitTimeout) rfl (by decide)
  obtain ⟨w, hw⟩ := reach_observed .start TimerWatch.observe hr
  simp only [Bool.and_eq_true, beq_iff_eq] at hp
  exact ⟨s, w, hw, hp.1, hp.2, secondPassKept hw⟩

end Gate
end SteamInputLease
