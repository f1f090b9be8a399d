import SteamInputLease.Gate.Resolution
import SteamInputLease.Lib.Count
import SteamInputLease.Proof.Gate.Notify
import SteamInputLease.Proof.Gate.Resolve

/-!
# One resolver, one layout, and where `-1.0` goes

`schedule_capability_resolution` claims its flag with a compare-exchange, so a claim finds no
resolution in flight and the flag counts exactly the one there is. `RECOVERY_LAYOUT` is set once, so
every thread that resolves works with the same layout, and an address at which a request stores is
an elected object plus that layout's offset.

Workers, the timer thread and the resolver thread all run the same request, each from a program
counter of its own, over caches that the others change between any two of their steps. So the
invariant is about each request in flight (`RequestPc.Sound`): the layout it has in hand is the one
that is set, and the address it is about to store at is one that was elected in the run. Neither is
ever unlearned, since the layout is final and elections are only added to (`CachesTurn`); that is
why a request stays sound while others move, and only the step of its own thread has cases.
`RequestTurn` brings the steps of the three kinds of thread under one form.
-/

namespace SteamInputLease
namespace Gate

open Lib Lib.System Protocol Recovery

/-! ## The steps of a resolver thread, by name -/

inductive ResolverMove (p : Payload) (r : Resolver) (ch : Choice) : Payload → Resolver → Prop
  | resolving {pc : ResolvePc} {x : ResolvePc ⊕ Option Nat} {k : Caches} (hpc : r.pc = some pc)
      (hr : resolveStep false p.caches pc ch = some (k, x)) :
      ResolverMove p r ch { p with caches := k } { r with pc := x.getLeft? }
  | cleared (hpc : r.pc = none) (hc : r.capability = true) :
      ResolverMove p r ch { p with capabilityResolutionRunning := false } { r with ended := true }
  | warmedUp (hpc : r.pc = none) (hc : r.capability = false) :
      ResolverMove p r ch p { r with ended := true }

theorem resolverStep_move {p p' : Payload} {r r' : Resolver} {ch : Choice}
    (h : resolverStep p r ch = some (p', r')) : r.ended = false ∧ ResolverMove p r ch p' r' := by
  unfold resolverStep at h
  split at h
  case isTrue => cases h
  case isFalse he =>
    refine ⟨by simpa using he, ?_⟩
    split at h
    case h_1 pc ch hpc =>
      split at h
      · next hr => cases h; exact .resolving hpc hr
      · next hr => cases h; exact .resolving hpc hr
      · cases h
    case h_2 hpc =>
      cases h
      by_cases hc : r.capability = true
      · rw [if_pos hc]
        exact .cleared hpc hc
      · rw [if_neg hc]
        exact .warmedUp hpc (by simpa using hc)
    case h_3 => cases h

theorem step_resolver_move {s s' : State} {j : Nat} {ch : Choice}
    (hs : gate.step s (.resolver j ch) = some s') :
    ∃ r p r', s.payload.resolvers[j]? = some r ∧ r.ended = false ∧
      ResolverMove s.payload r ch p r' ∧
      s' = { s with payload := { p with resolvers := p.resolvers.set j r' } } := by
  simp only [gate, step, Option.bind_eq_some_iff, Option.map_eq_some_iff] at hs
  obtain ⟨r, hr, ⟨p, r'⟩, hm, rfl⟩ := hs
  obtain ⟨he, hm⟩ := resolverStep_move hm
  exact ⟨r, p, r', hr, he, hm, rfl⟩

/-! ## `CAPABILITY_RESOLUTION_RUNNING` -/

/-- What a worker step does to the flag and to the resolutions it stands for. -/
inductive ResolutionEffect (p p' : Payload) (c c' : Connection) : Prop
  | quiet (hrun : p'.capabilityResolutionRunning = p.capabilityResolutionRunning)
      (hrs : p'.resolvers.countP (·.sweeping) = p.resolvers.countP (·.sweeping))
      (hc : c'.pc.spawning = c.pc.spawning)
  | claimed (hfree : p.capabilityResolutionRunning = false)
      (hrun : p'.capabilityResolutionRunning = true) (hrs : p'.resolvers = p.resolvers)
      (hc : c.pc.spawning = false) (hc' : c'.pc.spawning = true)
  | spawned (hrun : p'.capabilityResolutionRunning = p.capabilityResolutionRunning)
      (hrs : p'.resolvers = p.resolvers ++ [.start true])
      (hc : c.pc.spawning = true) (hc' : c'.pc.spawning = false)
  | notSpawned (hrun : p'.capabilityResolutionRunning = false) (hrs : p'.resolvers = p.resolvers)
      (hc : c.pc.spawning = true) (hc' : c'.pc.spawning = false)

/-- The compare-exchange of `schedule_capability_resolution` succeeds on a free flag only. -/
theorem claim_free {p p' : Payload} {i : Nat} {c c' : Connection} {ch : Choice} {r : Reply}
    (h : workerStep p i c ch = some (p', c')) (hpc : c.pc = .capabilities r)
    (hs : c'.pc.spawning = true) : p.capabilityResolutionRunning = false := by
  simp only [workerStep, hpc, WorkerPc.stage] at h
  unfold respondStep at h
  split at h
  case h_1 =>
    split at h
    · cases h; cases hs
    · split at h
      · cases h; cases hs
      · next hrun => simpa using hrun
  all_goals simp_all

@[simp] theorem spawning_dispatch (r : ReadFile) : (WorkerPc.dispatch r).spawning = false := by
  rcases dispatch_cases r with h | ⟨_, _, h⟩ | ⟨_, _, h⟩ | ⟨_, _, h⟩ <;> rw [h] <;> rfl

@[simp] theorem spawning_sectionNext (sec : Section) : sec.next.spawning = false := by
  cases sec with
  | granted o => rfl
  | gaveBack e => cases e <;> rfl

@[simp] theorem spawning_replyNext (r : Reply) : r.next.spawning = false := by
  cases r with
  | initial _ g => cases g <;> rfl
  | released => rfl

theorem worker_resolution {p p' : Payload} {i : Nat} {c c' : Connection} {ch : Choice}
    (h : workerStep p i c ch = some (p', c')) : ResolutionEffect p p' c c' := by
  cases workerStep_move h with
  | claimResolution hpc =>
    exact .claimed (claim_free h hpc rfl) rfl rfl (by rw [hpc]; rfl) rfl
  | resolverSpawned hpc => exact .spawned rfl rfl (by rw [hpc]; rfl) rfl
  | resolverNotSpawned hpc => exact .notSpawned rfl rfl (by rw [hpc]; rfl) rfl
  | hooksInstalled hpc _ hrs =>
    refine .quiet rfl ?_ (by rw [hpc]; rfl)
    rcases hrs with rfl | rfl
    · rfl
    · simp [Resolver.start, Resolver.sweeping]
  | read hpc _ => exact .quiet rfl rfl (by rw [hpc]; exact spawning_dispatch _)
  | unlock hpc => exact .quiet rfl rfl (by rw [hpc]; exact spawning_sectionNext _)
  | written hpc _ | notWritten hpc =>
    exact .quiet rfl rfl (by rw [hpc]; exact spawning_replyNext _)
  | hooksReady hpc _ | hooksRefused hpc _ | hooksFailed hpc _ | lockAcquire hpc _
  | readRelease hpc _ | lockRelease hpc _ | disconnect hpc | addLease hpc | leaseSweeps hpc _
  | leaseQuiet hpc _ | readBlocking hpc | addPassThrough hpc | passThroughNotifies hpc
  | passThroughQuiet hpc | readWasBlocking hpc | giveBack hpc | releaseSweeps hpc _
  | releaseNotifies hpc _ | releaseQuiet hpc | discovered hpc | notifying hpc _ | notified hpc _
  | recoveryReady hpc _ | recoveryPending hpc _ | readPassState hpc | readCounts hpc =>
    exact .quiet rfl rfl (by rw [hpc]; rfl)

/-- `CAPABILITY_RESOLUTION_RUNNING` counts the capability resolutions there are: however many
    replies ask for one at once, no more than one is in flight, and none while the flag is clear. -/
theorem one_capability_resolution {s : State} (hr : gate.Reach s) :
    s.resolutions = if s.payload.capabilityResolutionRunning then 1 else 0 := by
  refine ReachUnder.invariant (I := fun s : State =>
    s.resolutions = if s.payload.capabilityResolutionRunning then 1 else 0) ?_ ?_ hr
  · rintro _ rfl
    rfl
  · intro s e s' _ hi _ hs
    simp only [State.resolutions] at hi ⊢
    cases e with
    | accept h =>
      obtain ⟨_, _, rfl⟩ := step_accept hs
      simpa [List.countP_append, Connection.accepted, WorkerPc.spawning] using hi
    | client i a =>
      obtain ⟨c, c', hc, ha, rfl⟩ := step_client hs
      rwa [countP_set_same hc (by rw [clientStep_pc ha])]
    | worker i ch =>
      obtain ⟨c, p, c', hc, hw, rfl⟩ := step_workerStep hs
      cases worker_resolution hw with
      | quiet hrun hrs hsp =>
        rwa [countP_set_same hc hsp, hrun, hrs]
      | claimed hfree hrun hrs hsp hsp' =>
        have := countP_set_gain (p := (·.pc.spawning)) hc hsp hsp'
        rw [hfree] at hi
        simp only [hrun, hrs, if_true, Bool.false_eq_true, if_false] at hi ⊢
        omega
      -- the resolution goes over from the worker that spawns to the thread it spawned
      | spawned hrun hrs hsp hsp' =>
        have := countP_set_lose (p := (·.pc.spawning)) hc hsp hsp'
        rw [hrun, hrs, List.countP_append]
        rw [← hi]
        simp only [Resolver.start, Resolver.sweeping, List.countP_singleton] at *
        simp only [Bool.not_false, Bool.and_self, if_true]
        omega
      | notSpawned hrun hrs hsp hsp' =>
        have hlose := countP_set_lose (p := (·.pc.spawning)) hc hsp hsp'
        simp only [hrun, hrs, Bool.false_eq_true, if_false]
        split at hi <;> omega
    | timer ch =>
      obtain ⟨k, t, _, rfl⟩ := step_timer hs
      exact hi
    | resolver j ch =>
      obtain ⟨r, p, r', hj, he, hm, rfl⟩ := step_resolver_move hs
      cases hm with
      | @resolving pc x k hpc hx =>
        have := countP_set_same (p := (·.sweeping)) (b := { r with pc := x.getLeft? }) hj rfl
        simpa only [this] using hi
      -- the thread that clears the flag is the one that was counted
      | cleared hpc hc =>
        have := countP_set_lose (p := (·.sweeping)) (b := { r with ended := true }) hj
          (by simp [Resolver.sweeping, hc, he]) (by simp [Resolver.sweeping])
        simp only [Bool.false_eq_true, if_false]
        split at hi <;> omega
      | warmedUp hpc hc =>
        simpa only [countP_set_same (p := (·.sweeping)) (b := { r with ended := true }) hj
          (by simp [Resolver.sweeping, hc])] using hi
    | tick ms =>
      rw [step_tick hs]
      exact hi

/-- Two programs ask for the status at once; both replies find a stale cache. -/
def statusTwice : List Label :=
  [.accept .raw, .accept .raw, .client 0 (.send (Request.new .queryStatus).toBytes),
    .client 1 (.send (Request.new .queryStatus).toBytes), .worker 0 .go, .worker 1 .go,
    .worker 0 (.flag false), .worker 1 (.flag false), .worker 0 (.flag true)]

theorem one_capability_resolution_twice : ∃ s, gate.Reach s ∧ s.conns.length = 2 ∧
    s.payload.capabilityResolutionRunning = true ∧
    s.resolutions = if s.payload.capabilityResolutionRunning then 1 else 0 := by
  obtain ⟨s, hr, hp⟩ := exists_reach_of_exec (T := gate) (s := .initial) statusTwice
    (fun s => s.conns.length == 2 && s.payload.capabilityResolutionRunning) rfl (by decide)
  rw [Bool.and_eq_true, beq_iff_eq] at hp
  exact ⟨s, hr, hp.1, hp.2, one_capability_resolution hr⟩

/-! ## The caches and the requests -/

/-- A step changes the caches only so: the layout stays once it is set, and a new address is 0 or
    was elected in this step. -/
structure CachesTurn (c : Caches) (ch : Choice) (c' : Caches) : Prop where
  layout : ∀ rt, c.recoveryLayout = some rt → c'.recoveryLayout = some rt
  address : c'.hidThreadAddress = c.hidThreadAddress ∨ c'.hidThreadAddress = 0 ∨
    c'.hidThreadAddress ∈ ch.electedAddress

theorem CachesTurn.same (c : Caches) (ch : Choice) : CachesTurn c ch c where
  layout _ h := h
  address := .inl rfl

theorem CachesTurn.reset (c : Caches) (ch : Choice) : CachesTurn c ch c.resetAttempts where
  layout _ h := h
  address := .inl rfl

theorem resolve_cachesTurn {b : Bool} {c c' : Caches} {r : ResolvePc} {ch : Choice}
    {x : ResolvePc ⊕ Option Nat} (h : resolveStep b c r ch = some (c', x)) :
    CachesTurn c ch c' := by
  refine ⟨fun rt hl => ?_, ?_⟩
  · cases resolveStep_move h <;> simp_all
  · unfold resolveStep at h
    split at h <;> try split at h
    all_goals try split at h
    all_goals cases h
    all_goals simp [Choice.electedAddress]

/-- From a layout that every thread shares, the next step has that layout in hand. -/
theorem ResolveMove.layoutInHand {c c' : Caches} {r r' : ResolvePc} {rt : RuntimeRecoveryLayout}
    (h : ResolveMove c r c' (.inl r')) (hr : ∀ rt, r.layoutInHand = some rt →
      c.recoveryLayout = some rt) (hr' : r'.layoutInHand = some rt) :
    c'.recoveryLayout = some rt := by
  cases h <;> simp_all [ResolvePc.layoutInHand]

/-- The deadline a resolution ends with is at the address it leaves in the cache: the cached one, or
    the one elected in this step. -/
theorem resolve_deadline {b : Bool} {c c' : Caches} {r : ResolvePc} {ch : Choice} {d : Nat}
    (h : resolveStep b c r ch = some (c', .inr (some d))) :
    ∃ rt, r.layoutInHand = some rt ∧ c'.recoveryLayout = c.recoveryLayout ∧
      d = c'.hidThreadAddress + rt.layout.discoveryDeadlineOffset ∧
      ((c'.hidThreadAddress = c.hidThreadAddress ∧ c.hidThreadAddress ≠ 0) ∨
        c'.hidThreadAddress ∈ ch.electedAddress) := by
  unfold resolveStep at h
  split at h <;> try split at h
  all_goals try split at h
  all_goals cases h
  case h_4.isTrue rt valid hv =>
    exact ⟨rt, rfl, rfl, rfl, .inl ⟨rfl, by simp_all⟩⟩
  case h_5 rt a => exact ⟨rt, rfl, rfl, rfl, .inr (by simp [Choice.electedAddress])⟩

/-- What a request has in hand agrees with `RECOVERY_LAYOUT`, and its target is an elected object's
    deadline. -/
structure RequestPc.Sound (l : Option RuntimeRecoveryLayout) (found : List Nat)
    (r : RequestPc) : Prop where
  agrees : ∀ rt, r.layoutInHand = some rt → l = some rt
  aims : ∀ d, r.target = some d → d % 8 = 0 ∧ ∃ a ∈ found, ∃ rt, l = some rt ∧
    d = a + rt.layout.discoveryDeadlineOffset

theorem RequestPc.Sound.start (l : Option RuntimeRecoveryLayout) (found : List Nat) :
    RequestPc.Sound l found .start where
  agrees _ h := by cases h
  aims _ h := by cases h

/-- The layout never changes once it is set, and elections are not forgotten. -/
theorem RequestPc.Sound.mono {l l' : Option RuntimeRecoveryLayout}
    {found found' : List Nat} {r : RequestPc} (h : r.Sound l found)
    (hl : ∀ rt, l = some rt → l' = some rt) (hf : ∀ a ∈ found, a ∈ found') :
    r.Sound l' found' where
  agrees rt hr := hl rt (h.agrees rt hr)
  aims d hd := by
    obtain ⟨h8, a, ha, rt, hrt, he⟩ := h.aims d hd
    exact ⟨h8, a, hf a ha, rt, hl rt hrt, he⟩

theorem request_cachesTurn {c c' : Caches} {r : RequestPc} {ch : Choice} {x : RequestPc ⊕ Bool}
    (h : requestStep c r ch = some (c', x)) : CachesTurn c ch c' := by
  unfold requestStep at h
  split at h
  case h_1 =>
    split at h
    · next hr => cases h; exact resolve_cachesTurn hr
    · next hr => cases h; exact resolve_cachesTurn hr
    · next hr => cases h; exact resolve_cachesTurn hr
    · cases h
  case h_2 => cases h; exact .same _ _
  case h_3 => cases h

theorem request_sound {c c' : Caches} {r r' : RequestPc} {ch : Choice} {found : List Nat}
    (h : requestStep c r ch = some (c', .inl r'))
    (ha : c.hidThreadAddress ≠ 0 → c.hidThreadAddress ∈ found)
    (hr : r.Sound c.recoveryLayout found) :
    r'.Sound c'.recoveryLayout (ch.electedAddress ++ found) := by
  unfold requestStep at h
  split at h
  case h_1 =>
    split at h
    case h_1 hx =>
      cases h
      refine ⟨fun rt hrt => ?_, nofun⟩
      exact (resolveStep_move hx).layoutInHand hr.agrees hrt
    case h_2 d hx =>
      split at h
      case isTrue h8 =>
        cases h
        obtain ⟨rt, hrt, hl, rfl, hfound⟩ := resolve_deadline hx
        refine ⟨nofun, fun d hd => ?_⟩
        cases hd
        refine ⟨h8, _, ?_, rt, hl.trans (hr.agrees rt hrt), rfl⟩
        rcases hfound with ⟨he, hne⟩ | he
        · rw [he]
          exact List.mem_append_right _ (ha hne)
        · exact List.mem_append_left _ he
      case isFalse => cases h
    case h_3 => cases h
    case h_4 => cases h
  case h_2 => cases h
  case h_3 => cases h

/-! ## What a step of a thread does to its request -/

/-- A thread's request before and after one of its steps. -/
inductive RequestTurn (c : Caches) (ch : Choice) (q : Option RequestPc) (c' : Caches)
    (q' : Option RequestPc) : Prop
  | outside (hc : c' = c ∨ c' = c.resetAttempts) (hq : q' = none ∨ q' = some .start)
  | inside {r : RequestPc} {x : RequestPc ⊕ Bool} (hr : q = some r)
      (h : requestStep c r ch = some (c', x)) (hq : ∀ r', q' = some r' → x = .inl r')

theorem RequestTurn.caches {c c' : Caches} {ch : Choice} {q q' : Option RequestPc}
    (h : RequestTurn c ch q c' q') : CachesTurn c ch c' := by
  cases h with
  | outside hc _ =>
    rcases hc with rfl | rfl
    · exact .same _ _
    · exact .reset _ _
  | inside _ h _ => exact request_cachesTurn h

theorem RequestTurn.sound {c c' : Caches} {ch : Choice} {q q' : Option RequestPc}
    {found : List Nat} (h : RequestTurn c ch q c' q')
    (ha : c.hidThreadAddress ≠ 0 → c.hidThreadAddress ∈ found)
    (hq : ∀ r, q = some r → r.Sound c.recoveryLayout found) {r' : RequestPc}
    (hr' : q' = some r') : r'.Sound c'.recoveryLayout (ch.electedAddress ++ found) := by
  cases h with
  | outside _ hn =>
    rcases hn with rfl | rfl
    · cases hr'
    · cases hr'
      exact .start _ _
  | inside hr h hx =>
    obtain rfl := hx r' hr'
    exact request_sound h ha (hq _ hr)

theorem notify_turn {k : Counters} {now : Nat} {c c' : Caches} {t t' : RescanTimer} {n : NotifyPc}
    {n' : Option NotifyPc} {ch : Choice} (h : notifyStep k now c t n ch = some (c', t', n')) :
    RequestTurn c ch n.inRequest c' (n'.bind (·.inRequest)) ∧
      (t'.thread.inRequest = none ∨ t'.thread = t.thread) := by
  unfold notifyStep at h
  split at h
  case h_3 =>
    split at h
    · next hr => cases h; exact ⟨.inside rfl hr (by rintro _ ⟨⟩; rfl), .inr rfl⟩
    · next hr => cases h; exact ⟨.inside rfl hr (by rintro _ ⟨⟩), .inr rfl⟩
    · next hr => cases h; exact ⟨.inside rfl hr (by rintro _ ⟨⟩), .inr rfl⟩
    · cases h
  case h_10 =>
    split at h
    · next hr => cases h; exact ⟨.inside rfl hr (by rintro _ ⟨⟩; rfl), .inr rfl⟩
    · next hr => cases h; exact ⟨.inside rfl hr (by rintro _ ⟨⟩), .inr rfl⟩
    · cases h
  case h_5 => cases h; exact ⟨.outside (.inl rfl) (.inl rfl), .inl rfl⟩
  case h_1 | h_4 =>
    split at h <;> cases h <;> exact ⟨.outside (.inl rfl) (.inl rfl), .inr rfl⟩
  case h_8 =>
    split at h
    · cases h; exact ⟨.outside (.inl rfl) (.inl rfl), .inr rfl⟩
    · cases h
  case h_9 =>
    split at h <;> cases h
    · exact ⟨.outside (.inl rfl) (.inl rfl), .inr rfl⟩
    · exact ⟨.outside (.inl rfl) (.inr rfl), .inr rfl⟩
  case h_2 => cases h; exact ⟨.outside (.inl rfl) (.inr rfl), .inr rfl⟩
  case h_6 | h_7 | h_11 => cases h; exact ⟨.outside (.inl rfl) (.inl rfl), .inr rfl⟩
  case h_12 => cases h

theorem timer_turn {k : Counters} {now : Nat} {c c' : Caches} {t t' : RescanTimer} {ch : Choice}
    (h : timerStep k now c t ch = some (c', t')) :
    RequestTurn c ch t.thread.inRequest c' t'.thread.inRequest := by
  unfold timerStep at h
  split at h
  case h_1 =>
    split at h
    · cases h; exact .outside (.inl rfl) (.inl rfl)
    · split at h <;> cases h <;> exact .outside (.inl rfl) (.inl rfl)
  case h_2 | h_3 => cases h; exact .outside (.inl rfl) (.inl rfl)
  case h_4 =>
    split at h <;> cases h
    · exact .outside (.inl rfl) (.inl rfl)
    · exact .outside (.inl rfl) (.inr rfl)
  case h_5 ht =>
    split at h
    · next hr => cases h; exact .inside (by rw [ht]; rfl) hr (by rintro _ ⟨⟩; rfl)
    · next hr => cases h; exact .inside (by rw [ht]; rfl) hr (by rintro _ ⟨⟩)
    · cases h
  case h_6 => cases h

theorem inRequest_of_stage {pc : WorkerPc} (h : pc.stage ≠ .inSection) : pc.inRequest = none := by
  cases pc <;> first | rfl | exact absurd rfl h

theorem worker_turn {p p' : Payload} {i : Nat} {c c' : Connection} {ch : Choice}
    (h : workerStep p i c ch = some (p', c')) :
    RequestTurn p.caches ch c.pc.inRequest p'.caches c'.pc.inRequest ∧
      (p'.timer.thread.inRequest = none ∨ p'.timer.thread = p.timer.thread) ∧
      (p'.resolvers = p.resolvers ∨ ∃ b, p'.resolvers = p.resolvers ++ [.start b]) := by
  by_cases hn : ∃ n sec, c.pc = .notify n sec
  case pos =>
    obtain ⟨n, sec, hpc⟩ := hn
    simp only [workerStep, hpc, WorkerPc.stage, sectionStep] at h
    split at h
    · next hx =>
      cases h
      obtain ⟨ht, hthread⟩ := notify_turn hx
      exact ⟨by rw [hpc]; exact ht, hthread, .inl rfl⟩
    · next hx =>
      cases h
      obtain ⟨ht, hthread⟩ := notify_turn hx
      exact ⟨by rw [hpc]; exact ht, hthread, .inl rfl⟩
    · cases h
  case neg =>
    -- outside a notification a worker touches the caches only by a reset of the attempts
    have quiet : ∀ {q : Option RequestPc}, (p'.caches = p.caches ∨ p'.caches =
        p.caches.resetAttempts) → c'.pc.inRequest = none → p'.timer = p.timer →
        RequestTurn p.caches ch q p'.caches c'.pc.inRequest ∧
          (p'.timer.thread.inRequest = none ∨ p'.timer.thread = p.timer.thread) :=
      fun hk hq ht => ⟨.outside hk (.inl hq), .inr (by rw [ht])⟩
    cases workerStep_move h with
    | notifying hpc _ | notified hpc _ => exact absurd ⟨_, _, hpc⟩ hn
    | read _ _ =>
      obtain ⟨ht, hth⟩ := quiet (.inl rfl) (inRequest_of_stage (stage_dispatch _)) rfl
      exact ⟨ht, hth, .inl rfl⟩
    | unlock _ =>
      obtain ⟨ht, hth⟩ := quiet (.inl rfl) (inRequest_of_stage (stage_sectionNext _)) rfl
      exact ⟨ht, hth, .inl rfl⟩
    | written _ _ | notWritten _ =>
      obtain ⟨ht, hth⟩ := quiet (.inl rfl) (inRequest_of_stage (stage_replyNext _)) rfl
      exact ⟨ht, hth, .inl rfl⟩
    | hooksInstalled _ _ hrs =>
      obtain ⟨ht, hth⟩ := quiet (.inl rfl) rfl rfl
      refine ⟨ht, hth, ?_⟩
      rcases hrs with rfl | rfl
      · exact .inl rfl
      · exact .inr ⟨false, rfl⟩
    | resolverSpawned _ =>
      obtain ⟨ht, hth⟩ := quiet (.inl rfl) rfl rfl
      exact ⟨ht, hth, .inr ⟨true, rfl⟩⟩
    | leaseSweeps _ _ | releaseSweeps _ _ =>
      obtain ⟨ht, hth⟩ := quiet (.inr rfl) rfl rfl
      exact ⟨ht, hth, .inl rfl⟩
    | hooksReady _ _ | hooksRefused _ _ | hooksFailed _ _ | lockAcquire _ _ | readRelease _ _
    | lockRelease _ _ | disconnect _ | addLease _ | leaseQuiet _ _ | readBlocking _
    | addPassThrough _ | passThroughNotifies _ | passThroughQuiet _ | readWasBlocking _
    | giveBack _ | releaseNotifies _ _ | releaseQuiet _ | discovered _ | recoveryReady _ _
    | recoveryPending _ _ | claimResolution _ | resolverNotSpawned _ | readPassState _
    | readCounts _ =>
      obtain ⟨ht, hth⟩ := quiet (.inl rfl) rfl rfl
      exact ⟨ht, hth, .inl rfl⟩

/-! ## One layout -/

/-- Every thread that resolves agrees with `RECOVERY_LAYOUT`, and the cached address was elected. -/
structure OneLayout (s : State) (found : List Nat) : Prop where
  address : s.payload.caches.hidThreadAddress ≠ 0 → s.payload.caches.hidThreadAddress ∈ found
  workers : ∀ (i : Nat) (c : Connection), s.conns[i]? = some c → ∀ q, c.pc.inRequest = some q →
    q.Sound s.payload.caches.recoveryLayout found
  timer : ∀ q, s.payload.timer.thread.inRequest = some q →
    q.Sound s.payload.caches.recoveryLayout found
  resolvers : ∀ (j : Nat) (x : Resolver), s.payload.resolvers[j]? = some x → ∀ pc,
    x.pc = some pc → ∀ rt, pc.layoutInHand = some rt → s.payload.caches.recoveryLayout = some rt

theorem oneLayout_initial : OneLayout .initial [] where
  address h := absurd rfl h
  workers i c hc := by simp [State.initial] at hc
  timer q hq := by cases hq
  resolvers j x hx := by simp [State.initial, Payload.initial] at hx

theorem CachesTurn.elected {c c' : Caches} {ch : Choice} {found : List Nat}
    (h : CachesTurn c ch c') (ha : c.hidThreadAddress ≠ 0 → c.hidThreadAddress ∈ found) :
    c'.hidThreadAddress ≠ 0 → c'.hidThreadAddress ∈ ch.electedAddress ++ found := by
  intro hne
  rcases h.address with he | he | he
  · rw [he] at hne ⊢
    exact List.mem_append_right _ (ha hne)
  · exact absurd he hne
  · exact List.mem_append_left _ he

/-- The requests a step did not touch stay sound. -/
theorem RequestPc.Sound.keep {c c' : Caches} {ch : Choice} {found : List Nat} {q : RequestPc}
    (hq : q.Sound c.recoveryLayout found) (h : CachesTurn c ch c') :
    q.Sound c'.recoveryLayout (ch.electedAddress ++ found) :=
  hq.mono h.layout fun _ ha => List.mem_append_right _ ha

/-- Threads may be added to the resolvers; the ones there are agree with a layout that has not
    changed. -/
theorem OneLayout.resolvers_keep {s : State} {found : List Nat} {c : Caches} {ch : Choice}
    {rs : List Resolver} (hi : OneLayout s found) (hk : CachesTurn s.payload.caches ch c)
    (hrs : rs = s.payload.resolvers ∨ ∃ b, rs = s.payload.resolvers ++ [.start b]) :
    ∀ (j : Nat) (x : Resolver), rs[j]? = some x → ∀ pc, x.pc = some pc → ∀ rt,
      pc.layoutInHand = some rt → c.recoveryLayout = some rt := by
  have hold : ∀ (j : Nat) (x : Resolver), s.payload.resolvers[j]? = some x → ∀ pc,
      x.pc = some pc → ∀ rt, pc.layoutInHand = some rt → c.recoveryLayout = some rt :=
    fun j x hx pc hpc rt hrt => hk.layout rt (hi.resolvers j x hx pc hpc rt hrt)
  rcases hrs with rfl | ⟨b, rfl⟩
  · exact hold
  · refine forall_concat hold fun pc hpc rt hrt => ?_
    cases hpc
    cases hrt

theorem oneLayout_of_reach {s : State} {found : List Nat}
    (hr : (gate.observed [] observeElections).Reach (s, found)) : OneLayout s found := by
  refine observed_invariant (C := fun _ _ => True) ?_ ?_ hr
  · rintro _ rfl
    exact oneLayout_initial
  · intro s found e s' _ hi _ hs
    cases e with
    | accept h =>
      obtain ⟨_, _, rfl⟩ := step_accept hs
      exact ⟨hi.address, forall_concat hi.workers nofun, hi.timer, hi.resolvers⟩
    | client i a =>
      obtain ⟨c, c', hc, ha, rfl⟩ := step_client hs
      refine ⟨hi.address, forall_set hc (fun j d _ hd => hi.workers j d hd) ?_, hi.timer,
        hi.resolvers⟩
      rw [clientStep_pc ha]
      exact hi.workers i c hc
    | worker i ch =>
      obtain ⟨c, p, c', hc, hw, rfl⟩ := step_workerStep hs
      -- the worker's own request keeps its layout, and no other thread's changes hands
      obtain ⟨ht, hthread, hrs⟩ := worker_turn hw
      refine ⟨ht.caches.elected hi.address, forall_set hc (fun j d _ hd q hq =>
        (hi.workers j d hd q hq).keep ht.caches) fun q hq => ht.sound hi.address
          (hi.workers i c hc) hq, fun q hq => ?_, hi.resolvers_keep ht.caches hrs⟩
      rcases hthread with h | h
      · rw [h] at hq
        cases hq
      · exact (hi.timer q (h ▸ hq)).keep ht.caches
    | timer ch =>
      obtain ⟨k, t, hx, rfl⟩ := step_timer hs
      have ht := timer_turn hx
      exact ⟨ht.caches.elected hi.address, fun j d hd q hq =>
        (hi.workers j d hd q hq).keep ht.caches, fun q hq => ht.sound hi.address hi.timer hq,
        hi.resolvers_keep ht.caches (.inl rfl)⟩
    | resolver j ch =>
      obtain ⟨r, p, r', hj, _, hm, rfl⟩ := step_resolver_move hs
      cases hm with
      | @resolving pc x k hpc hx =>
        have hk := resolve_cachesTurn hx
        refine ⟨hk.elected hi.address, fun i d hd q hq => (hi.workers i d hd q hq).keep hk,
          fun q hq => (hi.timer q hq).keep hk, forall_set hj (fun i y _ hy =>
            hi.resolvers_keep hk (.inl rfl) i y hy) fun pc' hpc' rt hrt => ?_⟩
        rcases x with pc'' | d
        · cases hpc'
          exact (resolveStep_move hx).layoutInHand (hi.resolvers j r hj pc hpc) hrt
        · cases hpc'
      | cleared hpc _ | warmedUp hpc _ =>
        have hk := CachesTurn.same s.payload.caches ch
        refine ⟨hk.elected hi.address, fun i d hd q hq => (hi.workers i d hd q hq).keep hk,
          fun q hq => (hi.timer q hq).keep hk, forall_set hj (fun i y _ hy =>
            hi.resolvers i y hy) fun pc' hpc' => ?_⟩
        rw [hpc] at hpc'
        cases hpc'
    | tick ms =>
      rw [step_tick hs]
      exact ⟨hi.address, hi.workers, hi.timer, hi.resolvers⟩

/-- `RECOVERY_LAYOUT` is set once: no later step of the payload changes it. -/
theorem layout_set_once {s s' : State} {e : Label} {rt : RuntimeRecoveryLayout}
    (hl : s.payload.caches.recoveryLayout = some rt) (hs : gate.step s e = some s') :
    s'.payload.caches.recoveryLayout = some rt := by
  cases e with
  | accept h =>
    obtain ⟨_, _, rfl⟩ := step_accept hs
    exact hl
  | client i a =>
    obtain ⟨c, c', _, _, rfl⟩ := step_client hs
    exact hl
  | worker i ch =>
    obtain ⟨c, p, c', hc, hw, rfl⟩ := step_workerStep hs
    exact (worker_turn hw).1.caches.layout rt hl
  | timer ch =>
    obtain ⟨k, t, hx, rfl⟩ := step_timer hs
    exact (timer_turn hx).caches.layout rt hl
  | resolver j ch =>
    obtain ⟨r, p, r', hj, _, hm, rfl⟩ := step_resolver_move hs
    cases hm with
    | resolving _ hx => exact (resolve_cachesTurn hx).layout rt hl
    | cleared _ _ | warmedUp _ _ => exact hl
  | tick ms =>
    rw [step_tick hs]
    exact hl

/-- In every run, whatever the threads and however their resolutions race: the layout any thread
    works with is the one in `RECOVERY_LAYOUT`, which no later step changes; and wherever a thread
    is about to store `-1.0`, the address is 8-aligned and is an object elected in this run plus
    that layout's deadline offset. -/
theorem one_layout {s : State} {found : List Nat}
    (hr : (gate.observed [] observeElections).Reach (s, found)) :
    (∀ rt, s.UsesLayout rt → s.payload.caches.recoveryLayout = some rt) ∧
    (∀ d, s.Requests (.store d) → d % 8 = 0 ∧ ∃ a ∈ found, ∃ rt,
      s.payload.caches.recoveryLayout = some rt ∧
        d = a + rt.layout.discoveryDeadlineOffset) ∧
    ∀ rt, s.payload.caches.recoveryLayout = some rt → ∀ (es : List Label) (s' : State),
      gate.exec s es = some s' → s'.payload.caches.recoveryLayout = some rt := by
  have hi := oneLayout_of_reach hr
  have hreq : ∀ q, s.Requests q → q.Sound s.payload.caches.recoveryLayout found := by
    intro q hq
    cases hq with
    | worker hc hq => exact hi.workers _ _ hc q hq
    | timer hq => exact hi.timer q hq
  refine ⟨fun rt hu => ?_, fun d hd => (hreq _ hd).aims d rfl, fun rt hl es s' hx => ?_⟩
  · cases hu with
    | request hq hrt => exact (hreq _ hq).agrees rt hrt
    | resolver hx hpc hrt => exact hi.resolvers _ _ hx _ hpc rt hrt
  · exact exec_preserves (I := fun s : State => s.payload.caches.recoveryLayout = some rt)
      (fun _ _ _ hl hs => layout_set_once hl hs) hl hx

theorem one_layout_elected : ∃ s found, (gate.observed [] observeElections).Reach (s, found) ∧
    s.Requests (.store 0x20040) ∧ ∃ a ∈ found, ∃ rt, s.payload.caches.recoveryLayout = some rt ∧
      0x20040 = a + rt.layout.discoveryDeadlineOffset := by
  obtain ⟨⟨s, found⟩, hr, hp⟩ := exists_reach_of_exec (T := gate.observed [] observeElections)
    (s := (.initial, [])) (leaseGone ++ (notifyArms 0).take 6)
    (fun q => (q.1.conns[0]?).any (·.pc.inRequest == some (.store 0x20040))) ⟨rfl, rfl⟩ (by decide)
  simp only [Option.any_eq_true_iff_get, beq_iff_eq] at hp
  obtain ⟨hc, hq⟩ := hp
  have hreq : s.Requests (.store 0x20040) := .worker (Option.eq_some_of_isSome hc) hq
  exact ⟨s, found, hr, hreq, ((one_layout hr).2.1 _ hreq).2⟩

end Gate
end SteamInputLease
