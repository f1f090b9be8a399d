import SteamInputLease.Gate.Progress
import SteamInputLease.Proof.Gate.LeaseAccounting
import SteamInputLease.Proof.Gate.Notify
import SteamInputLease.Proof.Gate.Resolve

/-!
# No worker waits for another program's client

Every worker step lowers the rank of its worker, so a worker takes no more than 56 steps in its
life. A worker that cannot step waits for its own client, for `OWNERSHIP_TRANSITION` or for the
clock; and who holds `OWNERSHIP_TRANSITION` waits at most for the clock. So as long as a worker is
neither done nor in a read of its own pipe, some worker can go on.

The two halves need each other and are proved apart. That ranks fall bounds what the workers do
whatever the order of the steps, and says nothing about whether they can do anything. That they can
is a matter of guards alone: each program counter has a step, unless the pipe is empty, the lock is
taken or a deadline is ahead, and the first two cannot happen inside a section. Client ends are the
environment; they may send or close at any time, and neither half relies on them. `payload_drains`
is what is left when all of them have closed, since a read of a closed pipe does not wait.
-/

namespace SteamInputLease
namespace Gate

open Lib Lib.System Protocol Recovery

/-! ## Every worker step lowers its rank -/

theorem ResolveMove.rank_lt {c c' : Caches} {r r' : ResolvePc}
    (h : ResolveMove c r c' (.inl r')) : r'.rank < r.rank := by
  cases h <;> simp [ResolvePc.rank]

theorem RequestPc.rank_pos (r : RequestPc) : 0 < r.rank := by
  cases r <;> simp [RequestPc.rank]

theorem ResolvePc.rank_pos (r : ResolvePc) : 0 < r.rank := by
  cases r <;> simp [ResolvePc.rank]

theorem RequestMove.rank_lt {c c' : Caches} {r r' : RequestPc}
    (h : RequestMove c r c' (.inl r')) : r'.rank < r.rank := by
  cases h with
  | resolving h =>
    have := h.rank_lt
    simp only [RequestPc.rank]
    omega
  | @aligned r _ _ h _ =>
    have := r.rank_pos
    simp only [RequestPc.rank]
    omega

theorem NotifyPc.rank_pos (n : NotifyPc) : 0 < n.rank := by
  cases n with
  | first r | second r =>
    have := r.rank_pos
    simp only [NotifyPc.rank]
    omega
  | _ => simp [NotifyPc.rank]

theorem NotifyMove.rank_lt {k : Counters} {now : Nat} {c c' : Caches} {t t' : RescanTimer}
    {n n' : NotifyPc} (h : NotifyMove k now c t n c' t' (some n')) : n'.rank < n.rank := by
  cases h with
  | first hr | second hr =>
    have := (requestStep_move hr).rank_lt
    simp only [NotifyPc.rank]
    omega
  | @firstStored r _ _ hr | @firstFailed r _ _ hr =>
    have := r.rank_pos
    simp only [NotifyPc.rank]
    omega
  | _ => simp [NotifyPc.rank, RequestPc.start, RequestPc.rank, ResolvePc.rank]

theorem rank_dispatch (r : ReadFile) : (WorkerPc.dispatch r).rank < 56 := by
  rcases dispatch_cases r with h | ⟨_, _, h⟩ | ⟨_, _, h⟩ | ⟨_, _, h⟩ <;> rw [h] <;>
    simp [WorkerPc.rank, Reply.rank]

theorem rank_sectionNext (sec : Section) : sec.next.rank < sec.rank := by
  cases sec with
  | granted o => simp [Section.next, Section.rank, WorkerPc.rank, Reply.rank]
  | gaveBack e => cases e <;> simp [Section.next, Section.rank, WorkerPc.rank, Reply.rank]

theorem rank_replyNext (r : Reply) : r.next.rank < r.rank := by
  cases r with
  | initial _ g => cases g <;> simp [Reply.next, Reply.rank, WorkerPc.rank]
  | released => simp [Reply.next, Reply.rank, WorkerPc.rank]

theorem Move.rank_lt {i : Nat} {p p' : Payload} {c c' : Connection} (h : Move i p c p' c') :
    c'.pc.rank < c.pc.rank := by
  cases h with
  | read hpc _ => rw [hpc]; exact rank_dispatch _
  | unlock hpc => rw [hpc]; exact rank_sectionNext _
  | written hpc _ | notWritten hpc => rw [hpc]; exact rank_replyNext _
  | notifying hpc hn =>
    have := (notifyStep_move hn).rank_lt
    rw [hpc]
    simp only [Connection.goto_pc, WorkerPc.rank]
    omega
  | @notified n _ _ _ _ hpc _ =>
    have := n.rank_pos
    rw [hpc]
    simp only [Connection.goto_pc, WorkerPc.rank]
    omega
  | hooksReady hpc _ | hooksInstalled hpc _ _ | hooksRefused hpc _ | hooksFailed hpc _
  | lockAcquire hpc _ | readRelease hpc _ | lockRelease hpc _ | disconnect hpc | addLease hpc
  | leaseSweeps hpc _ | leaseQuiet hpc _ | readBlocking hpc | addPassThrough hpc
  | passThroughNotifies hpc | passThroughQuiet hpc | readWasBlocking hpc | giveBack hpc
  | releaseSweeps hpc _ | releaseNotifies hpc _ | releaseQuiet hpc | discovered hpc
  | recoveryReady hpc _ | recoveryPending hpc _ | claimResolution hpc | resolverSpawned hpc
  | resolverNotSpawned hpc | readPassState hpc | readCounts hpc =>
    rw [hpc]
    simp [WorkerPc.rank, Section.rank, Reply.rank, NotifyPc.rank]

/-- The payload's own steps: only a worker's counts as work. -/
theorem workers_ranked :
    Ranked gate Label.internal Label.ofWorker gate.Reach State.rank where
  keeps _ _ _ hr _ hs := hr.next hs
  lowers s e s' _ _ hw hs := by
    cases e with
    | worker i ch =>
      obtain ⟨c, p, c', hc, hm, rfl⟩ := step_worker hs
      have hsum := sum_map_set (f := (·.pc.rank)) (b := c') hc
      have := hm.rank_lt
      simp only [State.rank]
      omega
    | _ => cases hw
  level s e s' _ ha hw hs := by
    cases e with
    | accept h => cases ha
    | client i a => cases ha
    | worker i ch => cases hw
    | timer ch =>
      obtain ⟨k, t, _, rfl⟩ := step_timer hs
      exact Nat.le_refl _
    | resolver j ch =>
      obtain ⟨k, run, rs, rfl⟩ := step_resolver hs
      exact Nat.le_refl _
    | tick ms =>
      rw [step_tick hs]
      exact Nat.le_refl _

/-! ## What can stop a worker -/

theorem resolve_enabled (b : Bool) (c : Caches) (r : ResolvePc) :
    ∃ ch x, resolveStep b c r ch = some x := by
  cases r with
  | layout =>
    refine ⟨.go, ?_⟩
    simp only [resolveStep]
    split
    · exact ⟨_, rfl⟩
    · split <;> exact ⟨_, rfl⟩
  | resolving => exact ⟨.layout none, _, rfl⟩
  | cached rt =>
    refine ⟨.flag false, ?_⟩
    simp only [resolveStep, Bool.and_false, Bool.false_eq_true, if_false]
    split <;> exact ⟨_, rfl⟩
  | scan rt => exact ⟨.elected none, _, rfl⟩

theorem request_enabled (c : Caches) (r : RequestPc) : ∃ ch x, requestStep c r ch = some x := by
  cases r with
  | resolve r =>
    obtain ⟨ch, ⟨c', x⟩, h⟩ := resolve_enabled true c r
    refine ⟨ch, ?_⟩
    simp only [requestStep, h]
    rcases x with r' | _ | d <;> exact ⟨_, rfl⟩
  | store d => exact ⟨.go, _, rfl⟩

/-- `notify_controller_rescan` waits for nothing but its own sleep. -/
theorem notify_enabled (k : Counters) (now : Nat) (c : Caches) (t : RescanTimer) (n : NotifyPc)
    (hs : ∀ until_, n = .sleep until_ → until_ ≤ now) :
    ∃ ch x, notifyStep k now c t n ch = some x := by
  cases n with
  | guard | guardAgain =>
    refine ⟨.go, ?_⟩
    simp only [notifyStep]
    split <;> exact ⟨_, rfl⟩
  | schedule =>
    refine ⟨.go, ?_⟩
    simp only [notifyStep]
    split <;> exact ⟨_, rfl⟩
  | refreshSdl | arm | enumWindows => exact ⟨.go, _, rfl⟩
  | spawn => exact ⟨.flag true, _, rfl⟩
  | sleep until_ => exact ⟨.go, (c, t, some .guardAgain), by simp [notifyStep, hs until_ rfl]⟩
  | first r =>
    obtain ⟨ch, ⟨c', x⟩, h⟩ := request_enabled c r
    refine ⟨ch, ?_⟩
    simp only [notifyStep, h]
    rcases x with r' | b
    · exact ⟨_, rfl⟩
    · cases b <;> exact ⟨_, rfl⟩
  | second r =>
    obtain ⟨ch, ⟨c', x⟩, h⟩ := request_enabled c r
    refine ⟨ch, ?_⟩
    simp only [notifyStep, h]
    rcases x with r' | b <;> exact ⟨_, rfl⟩

/-- A worker that has not ended can step, unless it waits for its client, for the lock or for
    the clock. -/
theorem worker_enabled {p : Payload} {i : Nat} {c : Connection} (hlive : c.pc ≠ .closed)
    (hclient : c.awaitsClient = false)
    (hlock : c.pc.awaitsLock = true → p.ownershipTransition = none)
    (hsleep : ∀ until_, c.pc.sleepsUntil = some until_ → until_ ≤ p.clock) :
    ∃ ch x, workerStep p i c ch = some x := by
  simp only [workerStep]
  generalize hpc : c.pc = pc at *
  -- each place has a choice of the environment under which it goes on
  cases pc with
  | closed => exact absurd rfl hlive
  | readRequest | readRelease o =>
    simp only [Connection.awaitsClient, hpc, Option.isNone_eq_false_iff, Option.isSome_iff_exists]
      at hclient
    obtain ⟨x, hx⟩ := hclient
    refine ⟨.go, ?_⟩
    simp only [WorkerPc.stage, outsideStep, hx, Option.map_some]
    exact ⟨_, rfl⟩
  | lockAcquire o | lockRelease o e =>
    refine ⟨.go, ?_⟩
    simp only [WorkerPc.stage, outsideStep, hlock rfl, if_true]
    exact ⟨_, rfl⟩
  | ensureHooks =>
    cases hh : p.hooks with
    | none =>
      refine ⟨.install false false, ?_⟩
      simp only [WorkerPc.stage, outsideStep, hh]
      exact ⟨_, rfl⟩
    | some b =>
      refine ⟨.go, ?_⟩
      cases b <;> simp only [WorkerPc.stage, outsideStep, hh] <;> exact ⟨_, rfl⟩
  | acquire o => cases o <;> exact ⟨.go, _, rfl⟩
  | leaseAdded leases =>
    refine ⟨.go, ?_⟩
    simp only [WorkerPc.stage, sectionStep]
    split <;> exact ⟨_, rfl⟩
  | released o e was =>
    refine ⟨.go, ?_⟩
    simp only [WorkerPc.stage, sectionStep]
    split
    · exact ⟨_, rfl⟩
    · split <;> exact ⟨_, rfl⟩
  | notify n sec =>
    obtain ⟨ch, ⟨k, t, x⟩, h⟩ := notify_enabled p.counters p.clock p.caches p.timer n
      fun until_ hn => hsleep until_ (by rw [hn]; rfl)
    refine ⟨ch, ?_⟩
    simp only [WorkerPc.stage, sectionStep, h]
    cases x <;> exact ⟨_, rfl⟩
  | capabilities r =>
    refine ⟨.flag false, ?_⟩
    simp only [WorkerPc.stage, respondStep]
    split
    · exact ⟨_, rfl⟩
    · split <;> exact ⟨_, rfl⟩
  | spawnResolver r | write r response => exact ⟨.flag false, _, rfl⟩
  | counts r caps => exact ⟨.counts 0 0, _, rfl⟩
  | disconnect | passThroughRead was | passThroughAdded was | discover sec | unlock sec
  | release o e | releaseRead o e was | passState r rec => exact ⟨.go, _, rfl⟩

/-- Who is inside a section waits neither for a client nor for the lock. -/
theorem section_waits_not {c : Connection} (hs : c.pc.stage = .inSection) :
    c.pc ≠ .closed ∧ c.awaitsClient = false ∧ c.pc.awaitsLock = false := by
  generalize hpc : c.pc = pc at *
  cases pc <;> simp_all [WorkerPc.stage, Connection.awaitsClient, WorkerPc.awaitsLock]

/-- After enough time a connection's worker that waits for no client, and for the lock only when
    it is free, steps. -/
theorem steps_after_tick {s : State} {i : Nat} {c : Connection} (hc : s.conns[i]? = some c)
    (hlive : c.pc ≠ .closed) (hclient : c.awaitsClient = false)
    (hlock : c.pc.awaitsLock = true → s.payload.ownershipTransition = none) :
    ∃ ms ch s', gate.exec s [.tick ms, .worker i ch] = some s' := by
  let ms := c.pc.sleepsUntil.getD 0
  obtain ⟨ch, ⟨p, c'⟩, h⟩ := worker_enabled (i := i)
    (p := { s.payload with clock := s.payload.clock + ms }) hlive hclient hlock
    fun until_ hu => by
      have : ms = until_ := by simp only [ms, hu, Option.getD_some]
      simp only
      omega
  refine ⟨ms, ch, { payload := p, conns := s.conns.set i c' }, ?_⟩
  simp only [System.exec, gate, step, Option.bind_some, hc, h, Option.map_some]

/-- **Progress.** As long as some worker is neither done nor in a read of its own pipe, a worker
    steps, at once or after some time: the holder of `OWNERSHIP_TRANSITION` if there is one. -/
theorem progress {s : State} (hr : gate.Reach s) (hs : ¬s.settled) :
    ∃ ms i ch s', gate.exec s [.tick ms, .worker i ch] = some s' := by
  have hb := balanced_of_reach hr
  cases hl : s.payload.ownershipTransition with
  | some j =>
    have hj := hb.present j hl
    have hc : s.conns[j]? = some s.conns[j] := List.getElem?_eq_getElem hj
    obtain ⟨hlive, hclient, hlock⟩ := section_waits_not ((hb.holder j _ hc).mpr hl)
    obtain ⟨ms, ch, s', h⟩ := steps_after_tick hc hlive hclient (by simp [hlock])
    exact ⟨ms, j, ch, s', h⟩
  | none =>
    simp only [State.settled, not_forall, not_or, Bool.not_eq_true] at hs
    obtain ⟨c, hm, hlive, hclient⟩ := hs
    obtain ⟨i, hc⟩ := List.mem_iff_getElem?.mp hm
    obtain ⟨ms, ch, s', h⟩ := steps_after_tick hc hlive hclient fun _ => hl
    exact ⟨ms, i, ch, s', h⟩

/-! ## A settled payload -/

/-- At rest nobody holds the lock, and each counter counts the clients that are connected with a
    grant. -/
theorem settled_counts {s : State} (hr : gate.Reach s) (hs : s.settled) :
    s.payload.ownershipTransition = none ∧
    ∀ o, s.payload.counters.count o =
      s.conns.countP fun c => c.pc == .readRelease o && c.clientOpen := by
  have hb := balanced_of_reach hr
  constructor
  · cases hl : s.payload.ownershipTransition with
    | none => rfl
    | some j =>
      have hj := hb.present j hl
      have hc : s.conns[j]? = some s.conns[j] := List.getElem?_eq_getElem hj
      obtain ⟨hlive, hclient, _⟩ := section_waits_not ((hb.holder j _ hc).mpr hl)
      rcases hs _ (List.getElem_mem hj) with h | h
      · exact absurd h hlive
      · rw [hclient] at h
        cases h
  · intro o
    rw [hb.counted o]
    congr 1
    refine List.countP_congr fun c hm => ?_
    rw [owns_iff]
    rcases hs c hm with h | h
    · simp [h, WorkerPc.standing]
    · unfold Connection.awaitsClient at h
      split at h
      · next hpc => simp [hpc, WorkerPc.standing]
      · next o' hpc =>
        have hopen : c.clientOpen = true := by
          unfold Connection.nextRead at h
          split at h <;> simp_all
        simp [hpc, hopen, WorkerPc.standing]
      · cases h

theorem settled_closed {s : State} (hs : s.settled)
    (hclosed : ∀ c ∈ s.conns, c.clientOpen = false) : ∀ c ∈ s.conns, c.pc = .closed := by
  intro c hm
  rcases hs c hm with h | h
  · exact h
  · have hc := hclosed c hm
    unfold Connection.awaitsClient Connection.nextRead at h
    split at h
    · split at h <;> simp_all
    · split at h <;> simp_all
    · cases h

theorem nextRead_clientOpen {c c₁ : Connection} {r : ReadFile}
    (h : c.nextRead = some (r, c₁)) : c₁.clientOpen = c.clientOpen := by
  unfold Connection.nextRead at h
  split at h <;> cases h <;> rfl

theorem Move.clientOpen {i : Nat} {p p' : Payload} {c c' : Connection} (h : Move i p c p' c') :
    c'.clientOpen = c.clientOpen := by
  cases h with
  | read _ hr | readRelease _ hr =>
    have := nextRead_clientOpen hr
    simpa only [Connection.goto] using this
  | _ => rfl

/-- No internal step opens a client end. -/
theorem clients_stay_closed {s s' : State} {e : Label} (ha : e.internal = true)
    (hclosed : ∀ c ∈ s.conns, c.clientOpen = false) (hs : gate.step s e = some s') :
    ∀ c ∈ s'.conns, c.clientOpen = false := by
  cases e with
  | accept h => cases ha
  | client i a => cases ha
  | worker i ch =>
    obtain ⟨c, p, c', hc, hm, rfl⟩ := step_worker hs
    intro d hd
    rcases List.mem_or_eq_of_mem_set hd with h | rfl
    · exact hclosed d h
    · rw [hm.clientOpen]
      exact hclosed c (List.mem_of_getElem? hc)
  | timer ch =>
    obtain ⟨k, t, _, rfl⟩ := step_timer hs
    exact hclosed
  | resolver j ch =>
    obtain ⟨k, run, rs, rfl⟩ := step_resolver hs
    exact hclosed
  | tick ms =>
    rw [step_tick hs]
    exact hclosed

/-- A program asks for a lease and dies while its worker is inside the section. -/
def leaseAbandoned : List Label :=
  [.accept .raw, .client 0 (.send (Request.new .acquireLease).toBytes), .worker 0 .go,
    .worker 0 (.install true false), .worker 0 .go, .worker 0 .go, .client 0 .close]

/-- The worker goes on to its end, past an unknown build's fallback. -/
def abandonedEnds : List Label :=
  [.worker 0 .go, .worker 0 .go, .worker 0 .go, .worker 0 (.flag false), .worker 0 (.flag false),
    .worker 0 .go, .worker 0 (.counts 0 0), .worker 0 (.flag true), .worker 0 .go, .worker 0 .go,
    .worker 0 .go, .worker 0 .go, .worker 0 .go, .worker 0 .go, .worker 0 .go, .worker 0 .go,
    .worker 0 (.layout none), .worker 0 .go, .worker 0 .go, .worker 0 .go]

/-- The payload comes to rest from every reachable state, whatever its clients do next. From there
    on, in any order of its own steps: the workers step no more than `s.rank` times in all; until
    every worker has ended or waits for its own client some worker can go on; some order leads to
    such a state; and there the lock is free and the counters count the connected holders. -/
theorem workers_settle {s s' : State} {es : List Label} (hr : gate.Reach s)
    (hes : es.all Label.internal = true) (hx : gate.exec s es = some s') :
    es.countP Label.ofWorker ≤ s.rank ∧
    (s'.settled ∨ ∃ ms i ch s'', gate.exec s' [.tick ms, .worker i ch] = some s'') ∧
    (∃ fs t, fs.all Label.internal = true ∧ gate.exec s' fs = some t ∧ t.settled) ∧
    (s'.settled → s'.payload.ownershipTransition = none ∧
      ∀ o, s'.payload.counters.count o =
        s'.conns.countP fun c => c.pc == .readRelease o && c.clientOpen) := by
  obtain ⟨hr', hle⟩ := workers_ranked.bounded hr hes hx
  refine ⟨by omega, ?_, ?_, settled_counts hr'⟩
  · by_cases hs : s'.settled
    · exact .inl hs
    · exact .inr (progress hr' hs)
  · refine workers_ranked.settles (fun t ht hs => ?_) hr'
    obtain ⟨ms, i, ch, t', h⟩ := progress ht hs
    exact ⟨_, t', rfl, by simp [Label.ofWorker], h⟩

theorem workers_settle_abandoned : ∃ s s', gate.Reach s ∧ s.blocking = true ∧
    gate.exec s abandonedEnds = some s' ∧ abandonedEnds.countP Label.ofWorker ≤ s.rank ∧
    (s'.settled ∨ ∃ ms i ch s'', gate.exec s' [.tick ms, .worker i ch] = some s'') := by
  obtain ⟨s, hr, hp⟩ := exists_reach_of_exec (T := gate) (s := .initial) leaseAbandoned
    (fun s => s.blocking && (gate.exec s abandonedEnds).isSome) rfl (by decide)
  rw [Bool.and_eq_true] at hp
  obtain ⟨s', hx⟩ := Option.isSome_iff_exists.mp hp.2
  obtain ⟨hle, hs, _⟩ := workers_settle hr (by decide) hx
  exact ⟨s, s', hr, hp.1, hx, hle, hs⟩

/-- Once every client end has closed (hosts exited or crashed), the payload drains: in any order of
    its own steps, either a worker can still go on, or every connection has ended, both counters
    are 0 and nothing is blocked. -/
theorem payload_drains {s s' : State} {es : List Label} (hr : gate.Reach s)
    (hclosed : ∀ c ∈ s.conns, c.clientOpen = false) (hes : es.all Label.internal = true)
    (hx : gate.exec s es = some s') :
    es.countP Label.ofWorker ≤ s.rank ∧
    ((∃ ms i ch s'', gate.exec s' [.tick ms, .worker i ch] = some s'') ∨
      ((∀ c ∈ s'.conns, c.pc = .closed) ∧
        s'.payload.counters = { leaseCount := 0, passThroughCount := 0 } ∧
        s'.blocking = false ∧ s'.payload.ownershipTransition = none)) := by
  obtain ⟨⟨hr', hclosed'⟩, hle⟩ :=
    (workers_ranked.and (J := fun s => ∀ c ∈ s.conns, c.clientOpen = false)
      fun _ _ _ _ hJ ha hs => clients_stay_closed ha hJ hs).bounded ⟨hr, hclosed⟩ hes hx
  refine ⟨by omega, ?_⟩
  by_cases hs : s'.settled
  case neg => exact .inl (progress hr' hs)
  right
  obtain ⟨hfree, hcounts⟩ := settled_counts hr' hs
  have hended := settled_closed hs hclosed'
  have hzero : ∀ o, s'.payload.counters.count o = 0 := by
    intro o
    rw [hcounts o, List.countP_eq_zero.mpr]
    · rfl
    · intro c hm
      simp [hended c hm]
  have hk : s'.payload.counters = { leaseCount := 0, passThroughCount := 0 } := by
    have hl := hzero .lease
    have hp := hzero .passThrough
    cases hc : s'.payload.counters
    rw [hc] at hl hp
    simp only [Counters.count] at hl hp
    rw [hl, hp]
  exact ⟨hended, hk, by rw [State.blocking, hk]; rfl, hfree⟩

theorem payload_drains_abandoned : ∃ s s', gate.Reach s ∧ s.blocking = true ∧
    gate.exec s abandonedEnds = some s' ∧
    ((∃ ms i ch s'', gate.exec s' [.tick ms, .worker i ch] = some s'') ∨
      ((∀ c ∈ s'.conns, c.pc = .closed) ∧
        s'.payload.counters = { leaseCount := 0, passThroughCount := 0 } ∧
        s'.blocking = false ∧ s'.payload.ownershipTransition = none)) := by
  obtain ⟨s, hr, hp⟩ := exists_reach_of_exec (T := gate) (s := .initial) leaseAbandoned
    (fun s => s.conns.all (!·.clientOpen) && (s.blocking && (gate.exec s abandonedEnds).isSome))
    rfl (by decide)
  simp only [Bool.and_eq_true, List.all_eq_true, Bool.not_eq_true'] at hp
  obtain ⟨hclosed, hb, hx⟩ := hp
  obtain ⟨s', hx⟩ := Option.isSome_iff_exists.mp hx
  exact ⟨s, s', hr, hb, hx, (payload_drains hr hclosed (by decide) hx).2⟩

end Gate
end SteamInputLease
