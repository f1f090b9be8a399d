import SteamInputLease.Gate.SinceOff
import SteamInputLease.Proof.Gate.Rediscovery

/-!
# Scheduled means scheduled

`RecoveryOutcome::Scheduled` makes the host skip its own recovery, so the word has to mean that
the payload's is under way. The worker that turns blocking off does ask for a discovery before it
answers anybody, but the bit the host goes by is read later, from a cache that other threads fill.
`scheduled_without_store` is a run in which the worker's own request found no HID thread, a
resolver's sweep did, and the host was told that the payload had taken over.

What is left of the claim is exact. Blocking is turned off inside a section, and that section
makes the one notification that answers for it; so what the payload has done since is settled by
two things only: whether the *first* request of that notification failed, and whether the
notification has ended. `Rescanned` says so of every reachable state, and needs nothing of the
notifications before: one that missed the HID thread is forgotten when blocking goes off again.
`scheduled_rescanned` reads it off at the release.
-/

namespace SteamInputLease
namespace Gate

open Lib Lib.System Protocol Recovery

/-! ## One request

`ResolvePc.unresolved` names the answers on which a request fails. They are all of them: every
other answer leads on or to the store. -/

/-- The answers with which a resolution ends without an aligned address. -/
theorem resolve_unresolved {c c' : Caches} {r : ResolvePc} {ch : Choice}
    {x : ResolvePc ⊕ Option Nat} (h : resolveStep true c r ch = some (c', x)) :
    r.unresolved c ch = true ↔ ∃ o, x = .inr o ∧ o.all (· % 8 != 0) = true := by
  unfold resolveStep at h
  split at h
  case h_1 => split at h <;> simp at h <;> simp [ResolvePc.unresolved, ← h.2]
  case h_4 =>
    split at h
    · next hv =>
      simp only [Option.some.injEq, Prod.mk.injEq] at h
      simp [ResolvePc.unresolved, hv, ← h.2]
    · next hv =>
      simp at h
      simp_all [ResolvePc.unresolved, ← h.2]
  case h_7 => cases h
  all_goals
    simp only [Option.some.injEq, Prod.mk.injEq] at h
    simp [ResolvePc.unresolved, ← h.2]

/-- A request fails on these answers and on no other. -/
theorem request_unresolved {c c' : Caches} {r : RequestPc} {ch : Choice} {x : RequestPc ⊕ Bool}
    (h : requestStep c r ch = some (c', x)) : r.unresolved c ch = true ↔ x = .inr false := by
  unfold requestStep at h
  split at h
  case h_1 _ p =>
    rw [RequestPc.unresolved]
    split at h
    · next hr =>
      cases h
      simp [resolve_unresolved hr]
    · next d hr =>
      cases h
      by_cases hd : d % 8 = 0 <;> simp [resolve_unresolved hr, hd]
    · next hr =>
      cases h
      simp [resolve_unresolved hr]
    · cases h
  case h_2 =>
    cases h
    simp [RequestPc.unresolved]
  case h_3 => cases h

/-- A request that succeeds ends with the store. -/
theorem request_stored {c c' : Caches} {r : RequestPc} {ch : Choice}
    (h : requestStep c r ch = some (c', .inr true)) : r.storing = true := by
  unfold requestStep at h
  split at h
  · split at h
    · simp at h
    · split at h <;> simp at h
    · simp at h
    · cases h
  · rfl
  · cases h

/-! ## The invariant -/

/-- The first request of the notification has succeeded. -/
def NotifyPc.pastFirst : NotifyPc → Bool
  | .guard | .refreshSdl | .first _ | .enumWindows => false
  | _ => true

/-- The worker's notification has given up on its first request. -/
def WorkerPc.gaveUp : WorkerPc → Bool
  | .notify .enumWindows _ => true
  | _ => false

/-- What the record since the last turn-off says, against where the workers are. -/
structure Rescanned (s : State) (r : SinceOff) : Prop where
  stored : ∀ i n sec, s.pc i = .notify n sec → n.pastFirst = true → r.stored = true
  /-- As long as the notification runs, it tells whether its first request failed. -/
  unresolved : ∀ i, s.rescanPending i = true → r.unresolved = (s.pc i).gaveUp
  done : r.second = true → r.stored = true
  second : r.second = true ↔ r.unresolved = false ∧ ∀ i, s.rescanPending i = false

/-- A step that moves no worker can only add a store to the record. -/
theorem Rescanned.background {s s' : State} {r : SinceOff} {stored : Bool} (h : Rescanned s r)
    (hpc : ∀ i, s'.pc i = s.pc i) (hb : s'.blocking = s.blocking) :
    Rescanned s' { r with stored := r.stored || stored } := by
  have hp : ∀ i, s'.rescanPending i = s.rescanPending i := by
    intro i
    rw [State.rescanPending, State.rescanPending, hpc i, hb]
  refine ⟨fun i n sec hi hn => ?_, fun i hi => ?_, fun h₂ => ?_, ?_⟩
  · simp [h.stored i n sec (hpc i ▸ hi) hn]
  · rw [hpc i]
    exact h.unresolved i (hp i ▸ hi)
  · simp [h.done h₂]
  · simp only [hp]
    exact h.second

/-- A worker whose rescan is pending is inside its section. -/
theorem stage_of_rescanPending {s : State} {i : Nat} (h : s.rescanPending i = true) :
    (s.pc i).stage = .inSection := by
  unfold State.rescanPending at h
  split at h <;> first | (rename_i hpc; rw [hpc]; rfl) | cases h

theorem rescanPending_notify {s : State} {i : Nat} {n : NotifyPc} {sec : Section}
    (h : s.pc i = .notify n sec) : s.rescanPending i = true := by
  rw [State.rescanPending, h]

/-- A notification goes on to the fallback exactly on an answer that fails its first request. -/
theorem notifyStep_unresolved {k : Counters} {now : Nat} {c c' : Caches} {t t' : RescanTimer}
    {n : NotifyPc} {ch : Choice} {n' : Option NotifyPc}
    (h : notifyStep k now c t n ch = some (c', t', n')) :
    n.unresolved c ch = true ↔ n' = some .enumWindows := by
  unfold notifyStep at h
  split at h
  case h_3 r ch =>
    rw [NotifyPc.unresolved]
    split at h
    · next hr => cases h; simp [request_unresolved hr]
    · next hr => cases h; simp [request_unresolved hr]
    · next hr => cases h; simp [request_unresolved hr]
    · cases h
  case h_10 r ch =>
    split at h
    · cases h; simp [NotifyPc.unresolved]
    · cases h; simp [NotifyPc.unresolved]
    · cases h
  case h_12 => cases h
  all_goals
    first
    | cases h; simp [NotifyPc.unresolved]
    | split at h <;> cases h <;> simp [NotifyPc.unresolved]

/-- A worker is at the fallback exactly after a step in which its first request failed. -/
theorem gaveUp_step {s : State} {i : Nat} {ch : Choice} {c c' : Connection} {p : Payload}
    (hc : s.conns[i]? = some c) (h : workerStep s.payload i c ch = some (p, c')) :
    c'.pc.gaveUp = firstUnresolved s (.worker i ch) := by
  rw [firstUnresolved, pc_eq hc]
  by_cases hn : c.pc.notifying = true
  · cases hpc : c.pc with
    | notify n sec =>
      simp only [workerStep, hpc, WorkerPc.stage, sectionStep] at h
      cases hstep : notifyStep s.payload.counters s.payload.clock s.payload.caches
          s.payload.timer n ch with
      | none => simp [hstep] at h
      | some x =>
        obtain ⟨k, t, n'⟩ := x
        have hun := notifyStep_unresolved hstep
        cases n' with
        | none =>
          simp only [hstep, Option.some.injEq, Prod.mk.injEq] at h
          rw [← h.2]
          simpa [WorkerPc.gaveUp] using hun
        | some n' =>
          simp only [hstep, Option.some.injEq, Prod.mk.injEq] at h
          rw [← h.2, Bool.eq_iff_iff]
          show (WorkerPc.notify n' sec).gaveUp = true ↔ _
          cases n' <;> simpa [WorkerPc.gaveUp] using hun
    | _ => simp [hpc, WorkerPc.notifying] at hn
  · have hno : c'.pc.gaveUp = false := by
      cases (workerStep_move h).notify with
      | other _ _ _ hguard =>
        cases hpc' : c'.pc with
        | notify n sec =>
          rw [hguard n sec hpc']
          rfl
        | _ => rfl
      | inside hpc _ _ _ | ended hpc _ _ _ => simp [hpc, WorkerPc.notifying] at hn
    rw [hno]
    cases hpc : c.pc with
    | notify n sec => simp [hpc, WorkerPc.notifying] at hn
    | _ => rfl

/-- The first read of `blocking()` in a section is still true when the counter is updated. -/
theorem was_blocking {s : State} (hr : gate.Reach s) {i : Nat} :
    (∀ was, s.pc i = .passThroughRead was → was = s.blocking) ∧
    (∀ o e was, s.pc i = .releaseRead o e was → was = s.blocking) := by
  obtain ⟨a, ha⟩ := reach_audited hr
  have hrec := ha.record i
  refine ⟨fun was hpc => ?_, fun o e was hpc => ?_⟩ <;> rw [hpc] at hrec <;>
    exact hrec.2.2.trans hrec.2.1.symm

/-- A claim's or a release's update turns blocking off, and nothing else. -/
theorem Move.turnedOff {i : Nat} {p p' : Payload} {c c' : Connection} (hm : Move i p c p' c')
    (h₀ : 0 ≤ p.counters.leaseCount)
    (hroom : c.pc = .acquire .lease → p.counters.leaseCount + 1 < 2 ^ 31)
    (hon : p.counters.blocking = true) (hoff : p'.counters.blocking = false) :
    (∃ was, c.pc = .passThroughRead was ∧ c'.pc = .passThroughAdded was) ∨
    (∃ o e was, c.pc = .releaseRead o e was ∧ c'.pc = .released o e was) := by
  cases hm with
  | addLease hpc =>
    have hk := Counters.blocking_iff.mp hon
    rw [blocking_addLease h₀ (hroom hpc), hk.2] at hoff
    simp at hoff
  | addPassThrough hpc => exact .inl ⟨_, hpc, rfl⟩
  | giveBack hpc => exact .inr ⟨_, _, _, hpc, rfl⟩
  | _ => exact absurd (hon.symm.trans hoff) (by simp)

/-- Right after blocking was turned off, its worker's notification is pending. -/
theorem rescanned_turnedOff {s : State} {i : Nat} {c c' : Connection} {p : Payload}
    (hr : gate.Reach s) (hr' : gate.Reach { payload := p, conns := s.conns.set i c' })
    (hc : s.conns[i]? = some c) (hm : Move i s.payload c p c') (hon : s.blocking = true)
    (hoff : p.counters.blocking = false) :
    Rescanned { payload := p, conns := s.conns.set i c' }
      { stored := false, second := false, unresolved := false } := by
  have hb := balanced_of_reach hr
  have hmove := hm.turnedOff (hb.nonneg .lease)
    (fun hpc => hb.room hc hm.live (o := .lease) (by rw [hpc]; rfl)) hon hoff
  obtain ⟨hwas, hwas'⟩ := was_blocking hr (i := i)
  rw [pc_eq hc] at hwas hwas'
  have hself : ({ payload := p, conns := s.conns.set i c' } : State).pc i = c'.pc :=
    pc_set_self hc
  have hin : c'.pc.stage = .inSection := by
    rcases hmove with ⟨_, _, h⟩ | ⟨_, _, _, _, h⟩ <;> rw [h] <;> rfl
  refine ⟨?_, ?_, by simp, ?_⟩
  · intro j n sec hj hn
    obtain rfl : j = i := only_in_section hr' (by rw [hself]; exact hin) (by rw [hj]; rfl)
    rw [hself] at hj
    rcases hmove with ⟨_, _, h⟩ | ⟨_, _, _, _, h⟩ <;> simp [h] at hj
  · intro j hj
    obtain rfl : j = i :=
      only_in_section hr' (by rw [hself]; exact hin) (stage_of_rescanPending hj)
    rw [hself]
    rcases hmove with ⟨_, _, h⟩ | ⟨_, _, _, _, h⟩ <;> rw [h] <;> rfl
  · refine ⟨by simp, fun hdone => ?_⟩
    have hpend := hdone.2 i
    rw [State.rescanPending, hself] at hpend
    rcases hmove with ⟨was, hpc, h⟩ | ⟨o, e, was, hpc, h⟩
    · simp [h, hwas was hpc, hon] at hpend
    · have hw : was = true := (hwas' o e was hpc).trans hon
      simp [h, hw, State.blocking, hoff] at hpend


section

variable {s : State} {i : Nat} {ch : Choice} {c c' : Connection} {p : Payload}

/-- A step leaves the notifications of the other workers where they are. -/
theorem rescanPending_others (hr : gate.Reach s) (hc : s.conns[i]? = some c)
    (hm : Move i s.payload c p c') {j : Nat} (hj : j ≠ i) :
    ({ payload := p, conns := s.conns.set i c' } : State).rescanPending j = s.rescanPending j := by
  have hpc : ({ payload := p, conns := s.conns.set i c' } : State).pc j = s.pc j := pc_set_ne hj
  by_cases hin : (s.pc j).stage = .inSection
  · have hout : c.pc.stage ≠ .inSection := fun hi =>
      hj (only_in_section hr (by rw [pc_eq hc]; exact hi) hin)
    rw [State.rescanPending, State.rescanPending, hpc, State.blocking, State.blocking,
      (hm.outside hout).1]
  · have hbefore : s.rescanPending j ≠ true := fun h => hin (stage_of_rescanPending h)
    have hafter : ({ payload := p, conns := s.conns.set i c' } : State).rescanPending j ≠ true :=
      fun h => hin (hpc ▸ stage_of_rescanPending h)
    rw [Bool.eq_false_iff.mpr hbefore, Bool.eq_false_iff.mpr hafter]

/-- A notification becomes pending in the step that turns blocking off, and in no other. -/
theorem rescan_begins (hr : gate.Reach s)
    (hr' : gate.Reach { payload := p, conns := s.conns.set i c' }) (hc : s.conns[i]? = some c)
    (hm : Move i s.payload c p c') (hidle : s.rescanPending i = false)
    (hpend : ({ payload := p, conns := s.conns.set i c' } : State).rescanPending i = true) :
    s.blocking = true ∧ p.counters.blocking = false := by
  obtain ⟨hwas, hwas'⟩ := was_blocking hr (i := i)
  rw [pc_eq hc] at hwas hwas'
  obtain ⟨a, ha⟩ := reach_audited hr'
  have hrec := ha.record i
  rw [pc_set_self hc] at hrec
  rw [State.rescanPending, pc_eq hc] at hidle
  have hin : c'.pc.stage = .inSection := by
    rw [← pc_set_self hc (p := p)]
    exact stage_of_rescanPending hpend
  rw [State.rescanPending, pc_set_self hc] at hpend
  by_cases hout : c.pc.stage = .inSection
  · cases hm with
    | addPassThrough hpc =>
      exact ⟨(hwas _ hpc).symm.trans hpend, hrec.2.1⟩
    | giveBack hpc =>
      obtain ⟨hon, hoff⟩ := Bool.and_eq_true_iff.mp hpend
      exact ⟨(hwas' _ _ _ hpc).symm.trans hon, (Bool.not_eq_true' _).mp hoff⟩
    | unlock hpc => exact absurd hin (stage_sectionNext _)
    | read hpc _ | readRelease hpc _ | written hpc _ | notWritten hpc =>
      simp [hpc, WorkerPc.stage] at hout
    | _ => simp_all [State.blocking]
  · rcases (hm.entered hout hin).2 with ⟨o, h⟩ | ⟨o, e, h⟩ <;> rw [h] at hpend <;> cases hpend

/-- A notification that goes on has not given up, and its second pass is not made yet. -/
theorem rescan_goes (hc : s.conns[i]? = some c) (hm : Move i s.payload c p c')
    (hpend : s.rescanPending i = true)
    (hgoes : ({ payload := p, conns := s.conns.set i c' } : State).rescanPending i = true) :
    c.pc.gaveUp = false ∧ (c.pc.arming || (c.pc.secondPass && !c'.pc.secondPass)) = false := by
  rw [State.rescanPending, pc_eq hc] at hpend
  rw [State.rescanPending, pc_set_self hc] at hgoes
  split at hpend
  · next hpc => simp [hpc, WorkerPc.gaveUp, WorkerPc.arming, WorkerPc.secondPass]
  · next hpc => simp [hpc, WorkerPc.gaveUp, WorkerPc.arming, WorkerPc.secondPass]
  · next n sec hpc =>
    cases hm.notify with
    | other hn _ _ _ => simp [hpc, WorkerPc.notifying] at hn
    | ended _ hpc' _ _ => simp [hpc'] at hgoes
    | inside hpc₁ hpc' _ hmove =>
      rw [hpc₁, hpc']
      cases hmove <;> simp [WorkerPc.gaveUp, WorkerPc.arming, WorkerPc.secondPass]
  · cases hpend

/-- A notification that ends has armed or made its second pass, unless it gave up on its first
    request. -/
theorem rescan_ends (hr : gate.Reach s) (hc : s.conns[i]? = some c) (hm : Move i s.payload c p c')
    (hb : p.counters.blocking = s.blocking) (hpend : s.rescanPending i = true)
    (hends : ({ payload := p, conns := s.conns.set i c' } : State).rescanPending i = false) :
    ∃ n sec, c.pc = .notify n sec ∧ c'.pc.gaveUp = false ∧ n.pastFirst = !c.pc.gaveUp ∧
      (c.pc.arming || (c.pc.secondPass && !c'.pc.secondPass)) = !c.pc.gaveUp := by
  rw [State.rescanPending, pc_eq hc] at hpend
  rw [State.rescanPending, pc_set_self hc] at hends
  have hoff : c.pc.notifying = true → s.payload.counters.blocking = false := fun hn =>
    notifying_blocking hr (by rw [pc_eq hc]; exact hn)
  split at hpend
  -- a claim that turned blocking off, before its notification begins
  · next was hpc =>
    subst hpend
    cases hm <;> simp_all
  -- a unit given back, where the worker still has to look at the counters
  · next o e was hpc =>
    simp only [Bool.and_eq_true, Bool.not_eq_true'] at hpend
    obtain ⟨rfl, hblk⟩ := hpend
    have hblk : s.payload.counters.blocking = false := hblk
    cases hm with
    | releaseNotifies _ _ => simp at hends
    | releaseQuiet hpc' => simp [hpc, hblk] at hpc'
    | releaseSweeps hpc' _ => simp [hpc] at hpc'
    | _ => simp_all only [reduceCtorEq]
  -- the notification: with blocking off it ends as it arms the timer, behind its own second
  -- request, or in the fallback
  · next n sec hpc =>
    cases hm.notify with
    | other hn _ _ _ => simp [hpc, WorkerPc.notifying] at hn
    | inside _ hpc' _ _ => simp [hpc'] at hends
    | @ended m sec' k t hpc₁ hpc' hp hmove =>
      refine ⟨m, sec', hpc₁, by rw [hpc']; rfl, ?_⟩
      rw [hpc₁] at hoff
      cases hmove with
      | blocked hblk => simp [hoff rfl] at hblk
      | blockedAgain hblk => simp [hoff rfl] at hblk
      | arm => simp [hpc₁, NotifyPc.pastFirst, WorkerPc.gaveUp, WorkerPc.arming]
      | secondEnded _ =>
        simp [hpc₁, hpc', NotifyPc.pastFirst, WorkerPc.gaveUp, WorkerPc.arming,
          WorkerPc.secondPass]
      | enumerated =>
        simp [hpc₁, NotifyPc.pastFirst, WorkerPc.gaveUp, WorkerPc.arming, WorkerPc.secondPass]
  · cases hpend

/-- A notification past its first request has stored. -/
theorem Rescanned.worker_stored {r : SinceOff} (h : Rescanned s r) (hc : s.conns[i]? = some c)
    (hm : Move i s.payload c p c') {j : Nat} {n : NotifyPc} {sec : Section}
    (hj : ({ payload := p, conns := s.conns.set i c' } : State).pc j = .notify n sec)
    (hn : n.pastFirst = true) : (r.stored || stores s (.worker i ch)) = true := by
  rw [Bool.or_eq_true]
  by_cases hji : j = i
  · subst hji
    rw [pc_set_self hc] at hj
    cases hm.notify with
    | other _ _ _ hguard =>
      rw [hguard n sec hj] at hn
      cases hn
    | ended _ hpc' _ _ => simp [hpc'] at hj
    | inside hpc hpc' _ hmove =>
      rw [hpc', WorkerPc.notify.injEq] at hj
      obtain ⟨rfl, _⟩ := hj
      cases hmove with
      | firstStored hreq =>
        -- the step that succeeds is the store itself
        right
        simp only [stores, pc_eq hc, hpc, WorkerPc.storing]
        exact request_stored hreq
      | refresh _ | refreshed | first _ | firstFailed _ => cases hn
      | _ => exact .inl (h.stored j _ _ (by rw [pc_eq hc, hpc]) rfl)
  · rw [pc_set_ne hji] at hj
    exact .inl (h.stored j n sec hj hn)

/-- A step outside the notifications leaves the record as it is. -/
theorem Rescanned.worker_idle {r : SinceOff} (hr : gate.Reach s)
    (hr' : gate.Reach { payload := p, conns := s.conns.set i c' }) (h : Rescanned s r)
    (hc : s.conns[i]? = some c) (hm : Move i s.payload c p c')
    (hno : ¬(s.blocking = true ∧ p.counters.blocking = false)) (hidle : s.rescanPending i = false) :
    Rescanned { payload := p, conns := s.conns.set i c' }
      { stored := r.stored || stores s (.worker i ch)
        second := r.second || (c.pc.arming || (c.pc.secondPass && !c'.pc.secondPass))
        unresolved := r.unresolved || c'.pc.gaveUp } := by
  have hidle' : ({ payload := p, conns := s.conns.set i c' } : State).rescanPending i = false := by
    rw [Bool.eq_false_iff]
    exact fun hafter => hno (rescan_begins hr hr' hc hm hidle hafter)
  have hsame : ∀ j, ({ payload := p, conns := s.conns.set i c' } : State).rescanPending j =
      s.rescanPending j := by
    intro j
    by_cases hj : j = i
    · rw [hj, hidle', hidle]
    · exact rescanPending_others hr hc hm hj
  -- a worker whose rescan is not pending is in no notification, so it neither arms nor gives up
  have hmade : (c.pc.arming || (c.pc.secondPass && !c'.pc.secondPass)) = false := by
    cases hpc : c.pc with
    | notify n sec =>
      rw [rescanPending_notify (by rw [pc_eq hc, hpc])] at hidle
      cases hidle
    | _ => rfl
  have hgave : c'.pc.gaveUp = false := by
    cases hpc : c'.pc with
    | notify n sec =>
      rw [rescanPending_notify (by rw [pc_set_self hc, hpc])] at hidle'
      cases hidle'
    | _ => rfl
  rw [hmade, hgave, Bool.or_false, Bool.or_false]
  refine ⟨fun j n sec hj hn => h.worker_stored hc hm hj hn, fun j hj => ?_, fun h₂ => ?_, ?_⟩
  · have hji : j ≠ i := by
      rintro rfl
      rw [hidle'] at hj
      cases hj
    rw [pc_set_ne hji]
    exact h.unresolved j (hsame j ▸ hj)
  · simp [h.done h₂]
  · simp only [hsame]
    exact h.second

/-- While a notification is pending no second pass counts, and no other one is pending. -/
theorem Rescanned.alone {r : SinceOff} (hr : gate.Reach s) (h : Rescanned s r)
    (hpend : s.rescanPending i = true) :
    r.second = false ∧ ∀ j, j ≠ i → s.rescanPending j = false := by
  constructor
  · rw [Bool.eq_false_iff]
    intro h₂
    have hall := (h.second.mp h₂).2 i
    rw [hpend] at hall
    cases hall
  · intro j hj
    rw [Bool.eq_false_iff]
    exact fun hp => hj (only_in_section hr (stage_of_rescanPending hpend)
      (stage_of_rescanPending hp))

/-- A step of the pending notification, which goes on or ends. -/
theorem Rescanned.worker_pending {r : SinceOff} (hr : gate.Reach s) (h : Rescanned s r)
    (hc : s.conns[i]? = some c) (hm : Move i s.payload c p c') (hpend : s.rescanPending i = true) :
    Rescanned { payload := p, conns := s.conns.set i c' }
      { stored := r.stored || stores s (.worker i ch)
        second := r.second || (c.pc.arming || (c.pc.secondPass && !c'.pc.secondPass))
        unresolved := r.unresolved || c'.pc.gaveUp } := by
  obtain ⟨hsecond, honly⟩ := h.alone hr hpend
  have hothers : ∀ j, j ≠ i →
      ({ payload := p, conns := s.conns.set i c' } : State).rescanPending j = false := by
    intro j hj
    rw [rescanPending_others hr hc hm hj, honly j hj]
  rw [h.unresolved i hpend, pc_eq hc, hsecond, Bool.false_or]
  cases hafter : ({ payload := p, conns := s.conns.set i c' } : State).rescanPending i with
  | true =>
    obtain ⟨hgave, hmade⟩ := rescan_goes hc hm hpend hafter
    rw [hgave, hmade, Bool.false_or]
    refine ⟨fun j n sec hj hn => h.worker_stored hc hm hj hn, fun j hj => ?_, by simp, ?_⟩
    · by_cases hji : j = i
      · rw [hji, pc_set_self hc]
      · rw [hothers j hji] at hj
        cases hj
    · refine ⟨by simp, fun hall => ?_⟩
      have hi := hall.2 i
      rw [hafter] at hi
      cases hi
  | false =>
    -- the step that ends a notification does not touch the counters
    have hb : p.counters.blocking = s.blocking := by
      have hk : p.counters = s.payload.counters := by
        rw [hm.updated]
        rw [State.rescanPending, pc_eq hc] at hpend
        split at hpend <;> first | (rename_i hpc; rw [hpc]; rfl) | cases hpend
      rw [hk, State.blocking]
    obtain ⟨n, sec, hpc, hgave, hpast, hmade⟩ := rescan_ends hr hc hm hb hpend hafter
    have hnone : ∀ j,
        ({ payload := p, conns := s.conns.set i c' } : State).rescanPending j = false := by
      intro j
      by_cases hji : j = i
      · rw [hji, hafter]
      · exact hothers j hji
    rw [hgave, hmade, Bool.or_false]
    refine ⟨fun j n sec hj hn => h.worker_stored hc hm hj hn, fun j hj => ?_, fun h₂ => ?_, ?_⟩
    · rw [hnone j] at hj
      cases hj
    · simp [h.stored i n sec (by rw [pc_eq hc, hpc]) (hpast.trans h₂)]
    · simp [hnone]

/-- A worker's step that does not turn blocking off keeps the record. -/
theorem Rescanned.worker {r : SinceOff} (hr : gate.Reach s)
    (hr' : gate.Reach { payload := p, conns := s.conns.set i c' }) (h : Rescanned s r)
    (hc : s.conns[i]? = some c) (hw : workerStep s.payload i c ch = some (p, c'))
    (hno : ¬(s.blocking = true ∧ p.counters.blocking = false)) :
    Rescanned { payload := p, conns := s.conns.set i c' }
      { stored := r.stored || stores s (.worker i ch)
        second := r.second || secondPassMade s (.worker i ch)
          { payload := p, conns := s.conns.set i c' }
        unresolved := r.unresolved || firstUnresolved s (.worker i ch) } := by
  have hm := workerStep_move hw
  rw [← gaveUp_step hc hw, secondPassMade, pc_eq hc, pc_set_self hc]
  cases hpend : s.rescanPending i with
  | false => exact h.worker_idle hr hr' hc hm hno hpend
  | true => exact h.worker_pending hr hc hm hpend

end

/-- The record of every run is right about it. -/
theorem rescanned {s : State} {w : Option SinceOff}
    (hr : (gate.observed none SinceOff.observe).Reach (s, w)) : ∀ r, w = some r → Rescanned s r := by
  refine observed_invariant (C := fun _ _ => True)
    (I := fun s w => ∀ r, w = some r → Rescanned s r) ?_ ?_ hr
  · intro s _ r h
    cases h
  intro s w e s' hr ih _ hs r hw
  by_cases hwk : ∀ i ch, e ≠ .worker i ch
  · have hb : s'.blocking = s.blocking := by
      rw [State.blocking, (step_background hs hwk).1, State.blocking]
    have hno : (s.blocking && !s'.blocking) = false := by
      rw [hb]
      cases s.blocking <;> rfl
    have hquiet : secondPassMade s e s' = false ∧ firstUnresolved s e = false := by
      cases e with
      | worker i ch => exact absurd rfl (hwk i ch)
      | _ => exact ⟨rfl, rfl⟩
    rw [SinceOff.observe, hno] at hw
    obtain ⟨r₀, hr₀, rfl⟩ := Option.map_eq_some_iff.mp hw
    simp only [hquiet.1, hquiet.2, Bool.or_false]
    exact (ih r₀ hr₀).background (pc_background hs hwk) hb
  · simp only [not_forall, not_not] at hwk
    obtain ⟨i, ch, rfl⟩ := hwk
    have hr' : gate.Reach s' := hr.reach.next hs
    obtain ⟨c, p, c', hc, hstep, rfl⟩ := step_workerStep hs
    rw [SinceOff.observe] at hw
    split at hw
    · next hoff =>
      simp only [Bool.and_eq_true, Bool.not_eq_true'] at hoff
      cases hw
      exact rescanned_turnedOff hr.reach hr' hc (workerStep_move hstep) hoff.1 hoff.2
    · next hno =>
      obtain ⟨r₀, hr₀, rfl⟩ := Option.map_eq_some_iff.mp hw
      refine (ih r₀ hr₀).worker hr.reach hr' hc hstep fun hoff => hno ?_
      simp only [Bool.and_eq_true, Bool.not_eq_true']
      exact hoff

/-! ## `RecoveryOutcome::Scheduled` -/

theorem rescansEnded_iff {s : State} :
    s.rescansEnded = true ↔ ∀ i, s.rescanPending i = false := by
  simp only [State.rescansEnded, List.all_eq_true, List.mem_range, Bool.not_eq_true']
  refine ⟨fun h i => ?_, fun h i _ => h i⟩
  by_cases hi : i < s.conns.length
  · exact h i hi
  · rw [State.rescanPending, State.pc, List.getElem?_eq_none (Nat.le_of_not_lt hi)]
    rfl

/-- The store was made and the second pass was armed or made exactly where the first request of
    the last notification found its way and that notification has ended. -/
theorem Rescanned.exact {s : State} {r : SinceOff} (h : Rescanned s r) :
    (r.stored = true ∧ r.second = true) ↔ (r.unresolved = false ∧ s.rescansEnded = true) := by
  rw [rescansEnded_iff, ← h.second]
  exact ⟨fun hboth => hboth.2, fun h₂ => ⟨h.done h₂, h₂⟩⟩

/-- In every run: `Lease::release` returns `Scheduled` only after a store and an armed or made
    second pass since blocking was last turned off if and only if it does so only where the
    notification of that turn-off resolved its first request and has ended. -/
theorem scheduled_rescanned {s : State} {r : SinceOff}
    (hr : (gate.observed none SinceOff.observe).Reach (s, some r)) :
    (ReleasesScheduled s → r.stored = true ∧ r.second = true) ↔
      (ReleasesScheduled s → r.unresolved = false ∧ s.rescansEnded = true) :=
  imp_congr_right fun _ => (rescanned hr r rfl).exact

/-! ## Two runs of the library -/

/-- Connection `i` is the library's: it takes a lease on Steam and releases it. Its worker, to
    which `hooks` is the answer about the hooks, is about to notify, and a resolver thread that the
    reply has spawned has not run yet. -/
def hostReleases (i : Nat) (hooks : Choice) : List Label :=
  [.accept (.idle .lease true), .client i .acquire, .worker i .go, .worker i hooks]
  ++ .replicate 5 (.worker i .go)
  ++ [.worker i (.flag false), .worker i (.flag true), .worker i .go, .worker i (.counts 0 0),
    .worker i (.flag true), .client i .acquired, .client i .release]
  ++ .replicate 5 (.worker i .go)

/-- The worker answers the release, with a cached HID thread that validates. -/
def releaseAnswered (i : Nat) : List Label :=
  [.worker i .go, .worker i (.flag true), .worker i .go, .worker i (.counts 0 0),
    .worker i (.flag true)]

/-- The notification of a client that crashed finds no layout, and its worker ends. -/
def layoutMissed : List Label :=
  [.worker 0 .go, .worker 0 .go, .worker 0 .go, .worker 0 (.layout none), .worker 0 .go,
    .worker 0 .go, .worker 0 .go]

/-- The sweep of the worker's request finds no HID thread, and then the resolver's sweep does. -/
def sweepMisses : List Label :=
  [.worker 0 .go, .worker 0 .go, .worker 0 .go, .worker 0 (.layout (some sampleLayout)),
    .worker 0 (.flag false), .worker 0 (.elected none), .worker 0 .go,
    .resolver 0 .go, .resolver 0 (.flag false), .resolver 0 (.elected (some 0x20000))]

/-- `Lease::release` of connection `i` returns `Scheduled` next. -/
def aboutToSchedule (i : Nat) (s : State) : Bool :=
  (gate.step s (.client i .released)).any fun s' =>
    (s'.conns[i]?).any (·.host == .released .scheduled)

theorem aboutToSchedule_step {i : Nat} {s : State} (h : aboutToSchedule i s = true) :
    ∃ s' c', gate.step s (.client i .released) = some s' ∧ s'.conns[i]? = some c' ∧
      c'.host = .released .scheduled := by
  obtain ⟨s', hs, h⟩ := Option.any_eq_true _ _ |>.mp h
  obtain ⟨c', hc, h⟩ := Option.any_eq_true _ _ |>.mp h
  exact ⟨s', c', hs, hc, beq_iff_eq.mp h⟩

/-- A client crashes and its notification finds no layout; then the library takes a lease and
    gives it back, its worker's request finds the HID thread, and `Scheduled` is the truth. -/
theorem scheduled_rescanned_armed : ∃ s r,
    (gate.observed none SinceOff.observe).Reach (s, some r) ∧ ReleasesScheduled s ∧
      r.stored = true ∧ r.second = true := by
  obtain ⟨⟨s, w⟩, hr, hp⟩ := exists_reach_of_exec
    (T := gate.observed none SinceOff.observe) (s := (.initial, none))
    (leaseGone ++ layoutMissed ++ hostReleases 1 .go ++ notifyArms 1 ++ releaseAnswered 1)
    (fun q => aboutToSchedule 1 q.1 && q.1.rescansEnded && q.2.any (!·.unresolved))
    ⟨rfl, rfl⟩ (by decide)
  simp only [Bool.and_eq_true] at hp
  obtain ⟨⟨hp, hended⟩, hw⟩ := hp
  obtain ⟨r, rfl, hun⟩ := Option.any_eq_true _ _ |>.mp hw
  obtain ⟨s', c', hs, hc', hh⟩ := aboutToSchedule_step hp
  have hsched : ReleasesScheduled s := ⟨1, s', c', hs, hc', hh⟩
  exact ⟨s, r, hr, hsched,
    (scheduled_rescanned hr).mpr (fun _ => ⟨by simpa using hun, hended⟩) hsched⟩

/-- `Lease::release` returns `Scheduled` although no store was made since blocking was turned
    off: the worker's own sweep missed the HID thread, and a resolver's found it before the
    response was built. -/
theorem scheduled_without_store : ¬∀ s s' w i c' r,
    (gate.observed none SinceOff.observe).Reach (s, w) →
    gate.step s (.client i .released) = some s' → s'.conns[i]? = some c' →
    c'.host = .released .scheduled → w = some r → r.stored = true ∧ r.second = true := by
  intro hall
  obtain ⟨⟨s, w⟩, hr, hp⟩ := exists_reach_of_exec
    (T := gate.observed none SinceOff.observe) (s := (.initial, none))
    (hostReleases 0 (.install true false) ++ sweepMisses ++ releaseAnswered 0)
    (fun q => aboutToSchedule 0 q.1 && q.2.any (!·.stored)) ⟨rfl, rfl⟩ (by decide)
  simp only [Bool.and_eq_true] at hp
  obtain ⟨hp, hw⟩ := hp
  obtain ⟨r, rfl, hst⟩ := Option.any_eq_true _ _ |>.mp hw
  obtain ⟨s', c', hs, hc', hh⟩ := aboutToSchedule_step hp
  have hboth := hall s s' _ 0 c' r hr hs hc' hh rfl
  simp [hboth.1] at hst

end Gate
end SteamInputLease
