import SteamInputLease.Gate.System

/-!
# The transitions of `client_thread`, by name

`Move` is the inversion of `workerStep`: one constructor for each way a worker can step, with
everything the branch checked. `workerStep_move` looks at the step functions once; every invariant
of the payload is a case analysis over the names below.

A constructor carries the guards of its branch as premises and the state after the step as its
index, so that a case of an invariant is a statement about two explicit states and never meets an
`if` of the source again. Where invariants need less than that there are coarser views of the same
steps: `Effect` for the counters, `Traffic` for the pipe, `NotifyEffect` for the notification. The
second half does the same for the labels of the whole system and says what a step of anybody else
leaves alone, which is the half of every invariant that has no cases.
-/

namespace SteamInputLease
namespace Gate

open Lib Protocol Recovery

/-- The ways the worker of connection `i` can step from payload `p` and connection `c`. -/
inductive Move (i : Nat) (p : Payload) (c : Connection) : Payload → Connection → Prop
  -- outside the sections
  | read {r : ReadFile} {c₁ : Connection} (hpc : c.pc = .readRequest)
      (hr : c.nextRead = some (r, c₁)) : Move i p c p (c₁.goto (.dispatch r))
  | hooksReady (hpc : c.pc = .ensureHooks) (hh : p.hooks = some true) :
      Move i p c p (c.goto (.lockAcquire .lease))
  | hooksInstalled {rs : List Resolver} (hpc : c.pc = .ensureHooks) (hh : p.hooks = none)
      (hrs : rs = p.resolvers ∨ rs = p.resolvers ++ [.start false]) :
      Move i p c { p with hooks := some true, resolvers := rs } (c.goto (.lockAcquire .lease))
  | hooksRefused (hpc : c.pc = .ensureHooks) (hh : p.hooks = some false) :
      Move i p c p (c.goto (.capabilities (.initial .hookInstallFailed none)))
  | hooksFailed (hpc : c.pc = .ensureHooks) (hh : p.hooks = none) :
      Move i p c { p with hooks := some false }
        (c.goto (.capabilities (.initial .hookInstallFailed none)))
  | lockAcquire {o : Owner} (hpc : c.pc = .lockAcquire o) (hfree : p.ownershipTransition = none) :
      Move i p c { p with ownershipTransition := some i } (c.goto (.acquire o))
  | readRelease {o : Owner} {r : ReadFile} {c₁ : Connection} (hpc : c.pc = .readRelease o)
      (hr : c.nextRead = some (r, c₁)) :
      Move i p c p (c₁.goto (.lockRelease o (r.explicit o.releaseCommand)))
  | lockRelease {o : Owner} {e : Bool} (hpc : c.pc = .lockRelease o e)
      (hfree : p.ownershipTransition = none) :
      Move i p c { p with ownershipTransition := some i } (c.goto (.release o e))
  | disconnect (hpc : c.pc = .disconnect) : Move i p c p (c.goto .closed)
  -- with `OWNERSHIP_TRANSITION` held
  | addLease (hpc : c.pc = .acquire .lease) :
      Move i p c { p with counters := p.counters.add 1 .lease }
        (c.goto (.leaseAdded (p.counters.add 1 .lease).leaseCount))
  | leaseSweeps (hpc : c.pc = .leaseAdded 1) (hb : p.counters.blocking = true) :
      Move i p c { p with caches := p.caches.resetAttempts }
        (c.goto (.discover (.granted .lease)))
  | leaseQuiet {leases : Int} (hpc : c.pc = .leaseAdded leases)
      (hq : ¬(leases = 1 ∧ p.counters.blocking = true)) :
      Move i p c p (c.goto (.unlock (.granted .lease)))
  | readBlocking (hpc : c.pc = .acquire .passThrough) :
      Move i p c p (c.goto (.passThroughRead p.counters.blocking))
  | addPassThrough {was : Bool} (hpc : c.pc = .passThroughRead was) :
      Move i p c { p with counters := p.counters.add 1 .passThrough }
        (c.goto (.passThroughAdded was))
  | passThroughNotifies (hpc : c.pc = .passThroughAdded true) :
      Move i p c p (c.goto (.notify .guard (.granted .passThrough)))
  | passThroughQuiet (hpc : c.pc = .passThroughAdded false) :
      Move i p c p (c.goto (.unlock (.granted .passThrough)))
  | readWasBlocking {o : Owner} {e : Bool} (hpc : c.pc = .release o e) :
      Move i p c p (c.goto (.releaseRead o e p.counters.blocking))
  | giveBack {o : Owner} {e was : Bool} (hpc : c.pc = .releaseRead o e was) :
      Move i p c { p with counters := p.counters.add (-1) o } (c.goto (.released o e was))
  | releaseSweeps {o : Owner} {e : Bool} (hpc : c.pc = .released o e false)
      (hb : p.counters.blocking = true) :
      Move i p c { p with caches := p.caches.resetAttempts } (c.goto (.discover (.gaveBack e)))
  | releaseNotifies {o : Owner} {e : Bool} (hpc : c.pc = .released o e true)
      (hb : p.counters.blocking = false) :
      Move i p c p (c.goto (.notify .guard (.gaveBack e)))
  | releaseQuiet {o : Owner} {e : Bool} (hpc : c.pc = .released o e p.counters.blocking) :
      Move i p c p (c.goto (.unlock (.gaveBack e)))
  | discovered {sec : Section} (hpc : c.pc = .discover sec) :
      Move i p c p (c.goto (.unlock sec))
  | notifying {n n' : NotifyPc} {sec : Section} {ch : Choice} {k : Caches} {t : RescanTimer}
      (hpc : c.pc = .notify n sec)
      (hn : notifyStep p.counters p.clock p.caches p.timer n ch = some (k, t, some n')) :
      Move i p c { p with caches := k, timer := t } (c.goto (.notify n' sec))
  | notified {n : NotifyPc} {sec : Section} {ch : Choice} {k : Caches} {t : RescanTimer}
      (hpc : c.pc = .notify n sec)
      (hn : notifyStep p.counters p.clock p.caches p.timer n ch = some (k, t, none)) :
      Move i p c { p with caches := k, timer := t } (c.goto (.unlock sec))
  | unlock {sec : Section} (hpc : c.pc = .unlock sec) :
      Move i p c { p with ownershipTransition := none } (c.goto sec.next)
  -- building and writing a response
  | recoveryReady {r : Reply} (hpc : c.pc = .capabilities r)
      (hc : p.caches.cachedHidThreadIsValid true = true) :
      Move i p c p (c.goto (.passState r true))
  | recoveryPending {r : Reply} (hpc : c.pc = .capabilities r)
      (hrun : p.capabilityResolutionRunning = true) :
      Move i p c p (c.goto (.passState r false))
  | claimResolution {r : Reply} (hpc : c.pc = .capabilities r) :
      Move i p c { p with capabilityResolutionRunning := true } (c.goto (.spawnResolver r))
  | resolverSpawned {r : Reply} (hpc : c.pc = .spawnResolver r) :
      Move i p c { p with resolvers := p.resolvers ++ [.start true] }
        (c.goto (.passState r false))
  | resolverNotSpawned {r : Reply} (hpc : c.pc = .spawnResolver r) :
      Move i p c { p with capabilityResolutionRunning := false } (c.goto (.passState r false))
  | readPassState {r : Reply} {recovery : Bool} (hpc : c.pc = .passState r recovery) :
      Move i p c p
        (c.goto (.counts r (capabilityWord recovery (decide (0 < p.counters.passThroughCount)))))
  | readCounts {r : Reply} {caps : UInt16} {hid revoked : Int} (hpc : c.pc = .counts r caps) :
      Move i p c p
        (c.goto (.write r (buildResponse r caps p.counters.leaseCount hid revoked)))
  | written {r : Reply} {response : Response} (hpc : c.pc = .write r response)
      (ho : c.clientOpen = true) :
      Move i p c p { c with responses := c.responses ++ [response], pc := r.next }
  | notWritten {r : Reply} {response : Response} (hpc : c.pc = .write r response) :
      Move i p c p (c.goto r.next)

theorem outsideStep_move {i : Nat} {p p' : Payload} {c c' : Connection} {ch : Choice}
    (h : outsideStep p i c c.pc ch = some (p', c')) : Move i p c p' c' := by
  generalize hpc : c.pc = pc at h
  unfold outsideStep at h
  split at h
  case h_1 =>
    simp only [Option.map_eq_some_iff, Prod.mk.injEq, Prod.exists] at h
    obtain ⟨r, c₁, hr, rfl, rfl⟩ := h
    exact .read hpc hr
  case h_2 =>
    split at h
    · next hh => cases h; exact .hooksReady hpc hh
    · next hh => cases h; exact .hooksRefused hpc hh
    · next spawned hh =>
      cases h
      refine .hooksInstalled hpc hh ?_
      cases spawned
      · exact .inl rfl
      · exact .inr rfl
    · next hh => cases h; exact .hooksFailed hpc hh
    · cases h
  case h_3 =>
    split at h
    · next hfree => cases h; exact .lockAcquire hpc hfree
    · cases h
  case h_4 =>
    simp only [Option.map_eq_some_iff, Prod.mk.injEq, Prod.exists] at h
    obtain ⟨r, c₁, hr, rfl, rfl⟩ := h
    exact .readRelease hpc hr
  case h_5 =>
    split at h
    · next hfree => cases h; exact .lockRelease hpc hfree
    · cases h
  case h_6 => cases h; exact .disconnect hpc
  case h_7 => cases h

theorem sectionStep_move {i : Nat} {p p' : Payload} {c c' : Connection} {ch : Choice}
    (h : sectionStep p c c.pc ch = some (p', c')) : Move i p c p' c' := by
  generalize hpc : c.pc = pc at h
  unfold sectionStep at h
  split at h
  case h_1 => cases h; exact .addLease hpc
  case h_2 leases =>
    split at h
    · next hs =>
      cases h
      obtain ⟨rfl, hb⟩ := hs
      exact .leaseSweeps hpc hb
    · next hq => cases h; exact .leaseQuiet hpc hq
  case h_3 => cases h; exact .readBlocking hpc
  case h_4 => cases h; exact .addPassThrough hpc
  case h_5 was =>
    cases was <;> cases h
    · exact .passThroughQuiet hpc
    · exact .passThroughNotifies hpc
  case h_6 => cases h; exact .readWasBlocking hpc
  case h_7 => cases h; exact .giveBack hpc
  case h_8 o e was =>
    cases was <;> cases hb : p.counters.blocking <;> simp [hb] at h <;>
      obtain ⟨rfl, rfl⟩ := h
    · exact .releaseQuiet (by rw [hpc, hb])
    · exact .releaseSweeps hpc hb
    · exact .releaseNotifies hpc hb
    · exact .releaseQuiet (by rw [hpc, hb])
  case h_9 => cases h; exact .discovered hpc
  case h_10 n sec ch =>
    split at h
    · next hn => cases h; exact .notifying hpc hn
    · next hn => cases h; exact .notified hpc hn
    · cases h
  case h_11 => cases h; exact .unlock hpc
  case h_12 => cases h

theorem respondStep_move {i : Nat} {p p' : Payload} {c c' : Connection} {ch : Choice}
    (h : respondStep p c c.pc ch = some (p', c')) : Move i p c p' c' := by
  generalize hpc : c.pc = pc at h
  unfold respondStep at h
  split at h
  case h_1 r valid =>
    split at h
    · next hv =>
      cases h
      refine .recoveryReady hpc ?_
      cases valid
      · simp [Caches.cachedHidThreadIsValid] at hv
      · exact hv
    · split at h
      · next hrun => cases h; exact .recoveryPending hpc hrun
      · cases h; exact .claimResolution hpc
  case h_2 => cases h; exact .resolverSpawned hpc
  case h_3 => cases h; exact .resolverNotSpawned hpc
  case h_4 => cases h; exact .readPassState hpc
  case h_5 => cases h; exact .readCounts hpc
  case h_6 r response ok =>
    cases h
    by_cases ho : (ok && c.clientOpen) = true
    · rw [if_pos ho]
      exact .written hpc (by simp_all)
    · rw [if_neg ho]
      exact .notWritten hpc
  case h_7 => cases h

/-- A worker's step is one of the named transitions. -/
theorem workerStep_move {i : Nat} {p p' : Payload} {c c' : Connection} {ch : Choice}
    (h : workerStep p i c ch = some (p', c')) : Move i p c p' c' := by
  unfold workerStep at h
  split at h
  · exact outsideStep_move h
  · exact sectionStep_move h
  · exact respondStep_move h

/-- A worker that can move has not ended. -/
theorem Move.live {i : Nat} {p p' : Payload} {c c' : Connection} (h : Move i p c p' c') :
    c.live = true := by
  cases h <;> simp_all [Connection.live]

/-! ## The steps of the system, by label -/

theorem step_accept {s s' : State} {h : HostEnd} (hs : gate.step s (.accept h) = some s') :
    h.fresh = true ∧ s.conns.countP (·.live) + 1 < 2 ^ 31 ∧
      s' = { s with conns := s.conns ++ [.accepted h] } := by
  simp only [gate, step] at hs
  split at hs
  · next hc =>
    cases hs
    rw [Bool.and_eq_true, decide_eq_true_iff] at hc
    exact ⟨hc.1, hc.2, rfl⟩
  · cases hs

theorem step_client {s s' : State} {i : Nat} {a : ClientAct}
    (hs : gate.step s (.client i a) = some s') :
    ∃ c c', s.conns[i]? = some c ∧ clientStep c a = some c' ∧
      s' = { s with conns := s.conns.set i c' } := by
  simp only [gate, step, Option.bind_eq_some_iff, Option.map_eq_some_iff] at hs
  obtain ⟨c, hc, c', hc', rfl⟩ := hs
  exact ⟨c, c', hc, hc', rfl⟩

theorem step_workerStep {s s' : State} {i : Nat} {ch : Choice}
    (hs : gate.step s (.worker i ch) = some s') :
    ∃ c p c', s.conns[i]? = some c ∧ workerStep s.payload i c ch = some (p, c') ∧
      s' = { payload := p, conns := s.conns.set i c' } := by
  simp only [gate, step, Option.bind_eq_some_iff, Option.map_eq_some_iff] at hs
  obtain ⟨c, hc, ⟨p, c'⟩, hw, rfl⟩ := hs
  exact ⟨c, p, c', hc, hw, rfl⟩

/-- The same, with the step by name. -/
theorem step_worker {s s' : State} {i : Nat} {ch : Choice}
    (hs : gate.step s (.worker i ch) = some s') :
    ∃ c p c', s.conns[i]? = some c ∧ Move i s.payload c p c' ∧
      s' = { payload := p, conns := s.conns.set i c' } := by
  obtain ⟨c, p, c', hc, hw, hs'⟩ := step_workerStep hs
  exact ⟨c, p, c', hc, workerStep_move hw, hs'⟩

theorem step_timer {s s' : State} {ch : Choice} (hs : gate.step s (.timer ch) = some s') :
    ∃ k t, timerStep s.payload.counters s.payload.clock s.payload.caches s.payload.timer ch
        = some (k, t) ∧
      s' = { s with payload := { s.payload with caches := k, timer := t } } := by
  simp only [gate, step, Option.map_eq_some_iff] at hs
  obtain ⟨⟨k, t⟩, ht, rfl⟩ := hs
  exact ⟨k, t, ht, rfl⟩

/-- A resolver thread touches the caches and the running flag. -/
theorem step_resolver {s s' : State} {j : Nat} {ch : Choice}
    (hs : gate.step s (.resolver j ch) = some s') :
    ∃ k run rs, s' = { s with
      payload := { s.payload with
        caches := k, capabilityResolutionRunning := run, resolvers := rs } } := by
  simp only [gate, step, Option.bind_eq_some_iff, Option.map_eq_some_iff] at hs
  obtain ⟨r, _, ⟨p, r'⟩, hr, rfl⟩ := hs
  unfold resolverStep at hr
  split at hr
  · cases hr
  split at hr
  · split at hr <;> cases hr <;> exact ⟨_, _, _, rfl⟩
  · cases hr
    split <;> exact ⟨_, _, _, rfl⟩
  · cases hr

theorem step_tick {s s' : State} {ms : Nat} (hs : gate.step s (.tick ms) = some s') :
    s' = { s with payload := { s.payload with clock := s.payload.clock + ms } } := by
  simp only [gate, step, Option.some.injEq] at hs
  exact hs.symm

/-- A client end never moves its worker. -/
theorem clientStep_pc {c c' : Connection} {a : ClientAct} (h : clientStep c a = some c') :
    c'.pc = c.pc := by
  unfold clientStep at h
  split at h
  · cases h
  split at h <;> first | (cases h; rfl) | skip
  all_goals first | (split at h <;> cases h <;> rfl) | cases h

/-- What every step but a worker's leaves alone: the counters, the lock and the program counters
    of the workers there are. -/
theorem step_background {s s' : State} {e : Label} (hs : gate.step s e = some s')
    (hw : ∀ i ch, e ≠ .worker i ch) :
    s'.payload.counters = s.payload.counters ∧
    s'.payload.ownershipTransition = s.payload.ownershipTransition ∧
    ((∃ h, s.conns.countP (·.live) + 1 < 2 ^ 31 ∧ s'.conns = s.conns ++ [.accepted h]) ∨
      (∃ i c c', s.conns[i]? = some c ∧ c'.pc = c.pc ∧ s'.conns = s.conns.set i c') ∨
      s'.conns = s.conns) := by
  cases e with
  | accept h =>
    obtain ⟨_, hl, rfl⟩ := step_accept hs
    exact ⟨rfl, rfl, .inl ⟨h, hl, rfl⟩⟩
  | client i a =>
    obtain ⟨c, c', hc, ha, rfl⟩ := step_client hs
    exact ⟨rfl, rfl, .inr (.inl ⟨i, c, c', hc, clientStep_pc ha, rfl⟩)⟩
  | worker i ch => exact absurd rfl (hw i ch)
  | timer ch =>
    obtain ⟨k, t, _, rfl⟩ := step_timer hs
    exact ⟨rfl, rfl, .inr (.inr rfl)⟩
  | resolver j ch =>
    obtain ⟨k, run, rs, rfl⟩ := step_resolver hs
    exact ⟨rfl, rfl, .inr (.inr rfl)⟩
  | tick ms =>
    rw [step_tick hs]
    exact ⟨rfl, rfl, .inr (.inr rfl)⟩

/-! ## Where a worker is -/

theorem pc_eq {s : State} {i : Nat} {c : Connection} (h : s.conns[i]? = some c) :
    s.pc i = c.pc := by
  rw [State.pc, h]
  rfl

theorem pc_set_self {p : Payload} {l : List Connection} {i : Nat} {c c' : Connection}
    (h : l[i]? = some c) : ({ payload := p, conns := l.set i c' } : State).pc i = c'.pc := by
  rw [State.pc, List.getElem?_set_self (List.getElem?_eq_some_iff.mp h).1]
  rfl

theorem pc_set_ne {s : State} {p : Payload} {i j : Nat} {c' : Connection} (h : j ≠ i) :
    ({ payload := p, conns := s.conns.set i c' } : State).pc j = s.pc j := by
  rw [State.pc, State.pc, List.getElem?_set_ne (Ne.symm h)]

/-- A step that moves no worker moves no program counter: a new connection is where it was
    before it existed. -/
theorem pc_background {s s' : State} {e : Label} (hs : gate.step s e = some s')
    (hw : ∀ i ch, e ≠ .worker i ch) (j : Nat) : s'.pc j = s.pc j := by
  obtain ⟨_, _, ⟨h, _, hc⟩ | ⟨i, c, c', hi, hpc, hc⟩ | hc⟩ := step_background hs hw
  · rw [State.pc, State.pc, hc]
    rcases Nat.lt_trichotomy j s.conns.length with hlt | rfl | hgt
    · rw [List.getElem?_append_left hlt]
    · simp [Connection.accepted]
    · rw [List.getElem?_eq_none (by simp; omega), List.getElem?_eq_none (by omega)]
  · rw [State.pc, State.pc, hc]
    by_cases hj : i = j
    · subst hj
      rw [List.getElem?_set_self (List.getElem?_eq_some_iff.mp hi).1, hi]
      exact hpc
    · rw [List.getElem?_set_ne hj]
  · rw [State.pc, State.pc, hc]

end Gate
end SteamInputLease
