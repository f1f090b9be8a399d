import SteamInputLease.Proof.Gate.LeaseAccounting

/-!
# What a response says about its own lease

`response` runs after `OWNERSHIP_TRANSITION` is dropped, so the counters it reads are those of the
moment, not of the section. Its worker still owns what it granted, hence the first response of a
lease counts that lease and the first response of a claim reports pass-through as active.

The truth of a response is fixed at the instant its counters are read, and by the time the host sees
it the counters may be different. So what is kept along a run is not that a response agrees with the
state but that it grants what its worker owns (`Honest`): in the making, built, in the pipe, and in
the hands of the library. The exact count belongs to the step that reads it, and there it is the
balance of `Accounting`; that no unit is lost on the way into a 32-bit field is the bound on the
connections again.
-/

namespace SteamInputLease
namespace Gate

open Lib Lib.System Protocol Recovery

/-- The unit the reply answers the grant of. -/
def Reply.grant : Reply → Option Owner
  | .initial _ g => g
  | .released => none

/-- A response in which a holder of `o` finds its own unit. -/
def CountsGrant (r : Response) : Owner → Prop
  | .lease => r.leaseCount ≠ 0
  | .passThrough => r.capabilities &&& statePassThroughActive ≠ 0

/-- The counters have been read in part, or the response is built. -/
def WorkerPc.building : WorkerPc → Bool
  | .counts _ _ | .write _ _ => true
  | _ => false

/-- What a connection's response, in the making, built or on its way, says about its own unit. -/
structure Connection.Honest (c : Connection) : Prop where
  state : ∀ r caps, c.pc = .counts r caps → r.grant = some .passThrough →
    caps &&& statePassThroughActive ≠ 0
  built : ∀ r response o, c.pc = .write r response → r.grant = some o → CountsGrant response o
  received : ∀ o st response, c.host = .acquiring o st → response ∈ c.responses →
    response.result = ResultCode.ok.code → CountsGrant response o

theorem Connection.Honest.accepted {h : HostEnd} : (Connection.accepted h).Honest where
  state r caps hpc := by simp [Connection.accepted] at hpc
  built r response o hpc := by simp [Connection.accepted] at hpc
  received o st response _ hm := by simp [Connection.accepted] at hm

/-- A step that builds no response and sends none. -/
theorem Connection.Honest.quiet {c c' : Connection} (hc : c.Honest) (hh : c'.host = c.host)
    (hr : c'.responses = c.responses) (hb : c'.pc.building = false) : c'.Honest where
  state r caps hpc := by simp [hpc, WorkerPc.building] at hb
  built r response o hpc := by simp [hpc, WorkerPc.building] at hb
  received o st response h hm := hc.received o st response (hh ▸ h) (hr ▸ hm)

theorem Connection.Honest.client {c c' : Connection} {a : ClientAct} (hc : c.Honest)
    (hs : c.Served) (h : clientStep c a = some c') : c'.Honest := by
  have hpc := clientStep_pc h
  refine ⟨fun r caps hp => hc.state r caps (hpc ▸ hp),
    fun r response o hp => hc.built r response o (hpc ▸ hp), ?_⟩
  intro o st response hh hm
  unfold clientStep at h
  split at h
  · cases h
  split at h
  case h_3 o' st' hidle =>
    -- nothing is in the pipe when the library sends its acquire request
    cases h
    simp only [Connection.Served, hidle] at hs
    rw [hs.2.2.2] at hm
    cases hm
  case h_1 hraw => cases h; simp_all
  case h_2 hraw _ => cases h; simp_all
  case h_4 => split at h <;> cases h <;> cases hh
  case h_5 => cases h; cases hh
  case h_6 => split at h <;> cases h <;> cases hh
  case h_7 => cases h; cases hh
  case h_8 => cases h; cases hh
  case h_9 => cases h

/-- A worker that owns a unit finds it in the counter. -/
theorem Balanced.counts_own {s : State} {i : Nat} {c : Connection} {o : Owner} (hb : Balanced s)
    (hc : s.conns[i]? = some c) (ho : c.pc.standing = .owning o) :
    0 < s.payload.counters.count o := by
  have hpos : 0 < s.conns.countP (·.owns o) :=
    List.countP_pos_iff.mpr ⟨c, List.mem_of_getElem? hc, owns_iff.mpr ho⟩
  rw [hb.counted o]
  omega

theorem standing_of_grant {r : Reply} {o : Owner} (h : r.grant = some o) :
    r.standing = .owning o := by
  cases r with
  | initial result g =>
    obtain rfl : g = some o := h
    rfl
  | released => cases h

theorem capabilityWord_active (recovery : Bool) :
    capabilityWord recovery true &&& statePassThroughActive ≠ 0 := by
  cases recovery <;> decide

/-- A counter's field is the counter, as long as it fits. -/
theorem countField_toNat {n : Nat} (h : n < 2 ^ 32) : (countField (n : Int)).toNat = n := by
  simp only [countField, Int.toNat_natCast, UInt32.toNat_ofNat']
  omega

@[simp] theorem building_dispatch (r : ReadFile) : (WorkerPc.dispatch r).building = false := by
  rcases dispatch_cases r with h | ⟨_, _, h⟩ | ⟨_, _, h⟩ | ⟨_, _, h⟩ <;> rw [h] <;> rfl

@[simp] theorem building_sectionNext (sec : Section) : sec.next.building = false := by
  cases sec with
  | granted o => rfl
  | gaveBack e => cases e <;> rfl

@[simp] theorem building_replyNext (r : Reply) : r.next.building = false := by
  cases r with
  | initial _ g => cases g <;> rfl
  | released => rfl

/-- The message a worker reads is the client's, and nothing else of the connection changes. -/
theorem nextRead_frame {c c₁ : Connection} {r : ReadFile} (h : c.nextRead = some (r, c₁)) :
    c₁.host = c.host ∧ c₁.responses = c.responses := by
  unfold Connection.nextRead at h
  split at h <;> cases h <;> exact ⟨rfl, rfl⟩

/-- The first response to the library's acquire request is the one that counts its unit, unless
    the request was refused. -/
theorem Connection.Served.grant_of_write {c : Connection} {o : Owner} {st : Bool} {r : Reply}
    {response : Response} (hs : c.Served) (hh : c.host = .acquiring o st)
    (hpc : c.pc = .write r response) (hres : response.result = r.result.code)
    (hok : response.result = ResultCode.ok.code) : r.grant = some o := by
  simp only [Connection.Served, hh, hpc] at hs
  obtain ⟨_, ⟨hp, _⟩ | ⟨ha, _⟩ | ⟨_, r', _, hp | ⟨hp, _⟩⟩⟩ := hs
  · cases hp
  · cases r with
    | initial result g => cases g with
      | some o' => exact congrArg some ha.1
      | none =>
        have hne : result ≠ .ok := ha
        rw [hok] at hres
        cases result <;> simp_all [Reply.result, ResultCode.code]
    | released => exact ha.elim
  · cases hp
  · rcases r with ⟨_, _ | _⟩ | _ <;> simp [WorkerPc.standing, Reply.standing] at hp

theorem Connection.Honest.worker {s : State} {i : Nat} {p' : Payload} {c c' : Connection}
    (hc : c.Honest) (hb : Balanced s) (hs : c.Served) (ha : c.Answers) (hi : s.conns[i]? = some c)
    (h : Move i s.payload c p' c') : c'.Honest := by
  cases h with
  | @readPassState r recovery hpc =>
    refine ⟨fun r' caps hp hg => ?_, fun r' response o hp => (nomatch hp), hc.received⟩
    cases hp
    -- the worker that builds a grant owns a unit, so the count it reads is at least one
    have hown := hb.counts_own hi (by rw [hpc]; exact standing_of_grant hg)
    rw [show s.payload.counters.passThroughCount = s.payload.counters.count .passThrough from rfl,
      decide_eq_true hown]
    exact capabilityWord_active recovery
  | @readCounts r caps hid revoked hpc =>
    refine ⟨fun r' caps hp => (nomatch hp), fun r' response o hp hg => ?_, hc.received⟩
    cases hp
    cases o with
    | lease =>
      have hown := hb.counts_own hi (by rw [hpc]; exact standing_of_grant hg)
      -- the field is 32 bits wide; the number of workers is below that, so none is lost
      have hlt := hb.count_lt .lease
      have hn := hb.counted .lease
      intro hz
      have hz := congrArg UInt32.toNat hz
      simp only [buildResponse,
        show s.payload.counters.leaseCount = s.payload.counters.count .lease from rfl, hn] at hz
      rw [countField_toNat (by omega)] at hz
      simp only [UInt32.toNat_zero] at hz
      omega
    | passThrough => exact hc.state r caps hpc hg
  | @written r response hpc ho =>
    refine ⟨fun r' caps hp => ?_, fun r' resp o hp => ?_, fun o st resp hh hm hok => ?_⟩
    · have := building_replyNext r
      simp only at hp
      rw [hp] at this
      cases this
    · have := building_replyNext r
      simp only at hp
      rw [hp] at this
      cases this
    · rcases List.mem_append.mp hm with hm | hm
      · exact hc.received o st resp hh hm hok
      · rw [List.mem_singleton] at hm
        subst hm
        exact hc.built r resp o hpc (hs.grant_of_write hh hpc (ha r resp hpc) hok)
  | read _ hr =>
    obtain ⟨hh, hresp⟩ := nextRead_frame hr
    exact hc.quiet hh hresp (building_dispatch _)
  | readRelease _ hr =>
    obtain ⟨hh, hresp⟩ := nextRead_frame hr
    exact hc.quiet hh hresp rfl
  | unlock _ => exact hc.quiet rfl rfl (building_sectionNext _)
  | notWritten _ => exact hc.quiet rfl rfl (building_replyNext _)
  | _ => exact hc.quiet rfl rfl rfl

theorem honest_of_reach {s : State} (hr : gate.Reach s) :
    ∀ (i : Nat) (c : Connection), s.conns[i]? = some c → c.Honest := by
  refine ReachUnder.invariant
    (I := fun s => ∀ (i : Nat) (c : Connection), s.conns[i]? = some c → c.Honest) ?_ ?_ hr
  · rintro s rfl i c h
    simp [State.initial] at h
  intro s e s' hr ih _ hs
  cases e with
  | accept h =>
    obtain ⟨_, _, rfl⟩ := step_accept hs
    exact forall_concat ih .accepted
  | client i a =>
    obtain ⟨c, c', hc, ha, rfl⟩ := step_client hs
    exact forall_set hc (fun j d _ hd => ih j d hd)
      ((ih i c hc).client (served_of_reach hr i c hc).1 ha)
  | worker i ch =>
    obtain ⟨c, p, c', hc, hm, rfl⟩ := step_worker hs
    obtain ⟨hserved, hanswers⟩ := served_of_reach hr i c hc
    exact forall_set hc (fun j d _ hd => ih j d hd)
      ((ih i c hc).worker (balanced_of_reach hr) hserved hanswers hc hm)
  | timer ch =>
    obtain ⟨k, t, _, rfl⟩ := step_timer hs
    exact ih
  | resolver j ch =>
    obtain ⟨k, run, rs, rfl⟩ := step_resolver hs
    exact ih
  | tick ms =>
    rw [step_tick hs]
    exact ih

/-- No discovery request reads the handle counters. -/
theorem requestStep_counts (c : Caches) (r : RequestPc) (hid revoked : Int) :
    requestStep c r (.counts hid revoked) = none := by
  cases r with
  | resolve r => cases r <;> rfl
  | store d => rfl

theorem notifyStep_counts (k : Counters) (now : Nat) (c : Caches) (t : RescanTimer) (n : NotifyPc)
    (hid revoked : Int) : notifyStep k now c t n (.counts hid revoked) = none := by
  cases n with
  | first r | second r => simp only [notifyStep, requestStep_counts]
  | _ => rfl

/-- The step that reads the counters into a response. -/
theorem step_counts {s s' : State} {i : Nat} {hid revoked : Int}
    (hs : gate.step s (.worker i (.counts hid revoked)) = some s') :
    ∃ c r caps response, s.conns[i]? = some c ∧ c.pc = .counts r caps ∧
      response = buildResponse r caps s.payload.counters.leaseCount hid revoked ∧
      s' = { s with conns := s.conns.set i (c.goto (.write r response)) } := by
  simp only [gate, step, Option.bind_eq_some_iff, Option.map_eq_some_iff] at hs
  obtain ⟨c, hc, ⟨p, c'⟩, hw, rfl⟩ := hs
  simp only [workerStep] at hw
  generalize hpc : c.pc = pc at hw
  cases pc with
  | counts r caps =>
    cases hw
    exact ⟨c, r, caps, _, hc, hpc, rfl, rfl⟩
  | notify n sec => simp [WorkerPc.stage, sectionStep, notifyStep_counts] at hw
  | ensureHooks =>
    simp only [WorkerPc.stage, outsideStep] at hw
    cases hh : s.payload.hooks with
    | none => simp [hh] at hw
    | some b => cases b <;> simp [hh] at hw
  | acquire o => cases o <;> simp [WorkerPc.stage, sectionStep] at hw
  | _ => simp [WorkerPc.stage, outsideStep, sectionStep, respondStep] at hw

/-- Every response tells the truth about leases, whatever else runs: its `lease_count` is the number
    of workers that own a lease at the instant it is read, without loss; the answer to a granted
    lease counts that lease, the answer to a granted claim reports pass-through as active; and so
    does the answer the host library accepts. -/
theorem response_counts_grant {s : State} (hr : gate.Reach s) :
    (∀ i hid revoked s', gate.step s (.worker i (.counts hid revoked)) = some s' →
      ∃ c r response, s'.conns[i]? = some c ∧ c.pc = .write r response ∧
        response.leaseCount.toNat = s.conns.countP (·.owns .lease)) ∧
    (∀ (i : Nat) (c : Connection) (r : Reply) (response : Response) (o : Owner),
      s.conns[i]? = some c → c.pc = .write r response → r.grant = some o →
        CountsGrant response o) ∧
    (∀ (i : Nat) (c : Connection) (o : Owner) (st : Bool) (response : Response),
      s.conns[i]? = some c → c.host = .acquiring o st → response ∈ c.responses →
        response.isValid = true → CountsGrant response o) := by
  have hb := balanced_of_reach hr
  refine ⟨fun i hid revoked s' hs => ?_, fun i c r response o hc hpc hg =>
    (honest_of_reach hr i c hc).built r response o hpc hg,
    fun i c o st response hc hh hm hv => ?_⟩
  · obtain ⟨c, r, caps, response, hc, hpc, he, rfl⟩ := step_counts hs
    refine ⟨c.goto (.write r response), r, response,
      List.getElem?_set_self (List.getElem?_eq_some_iff.mp hc).1, rfl, ?_⟩
    have hlt := hb.count_lt .lease
    have hn := hb.counted .lease
    subst he
    simp only [buildResponse,
      show s.payload.counters.leaseCount = s.payload.counters.count .lease from rfl, hn]
    exact countField_toNat (by omega)
  · refine (honest_of_reach hr i c hc).received o st response hh hm ?_
    simp only [Response.isValid, Bool.and_eq_true, beq_iff_eq] at hv
    exact hv.2

/-- The library takes a lease on Steam, and its answer is in the pipe. -/
def leaseAnswered : List Label :=
  [.accept (.idle .lease true), .client 0 .acquire, .worker 0 .go, .worker 0 (.install true false)]
  ++ .replicate 5 (.worker 0 .go)
  ++ [.worker 0 (.flag false), .worker 0 (.flag false), .worker 0 .go, .worker 0 (.counts 0 0),
    .worker 0 (.flag true)]

theorem response_counts_grant_answered : ∃ s c response, gate.Reach s ∧ s.conns[0]? = some c ∧
    response ∈ c.responses ∧ CountsGrant response .lease := by
  obtain ⟨s, hr, hp⟩ := exists_reach_of_exec (T := gate) (s := .initial) leaseAnswered
    (fun s => (s.conns[0]?).any fun c => c.host == .acquiring .lease true &&
      c.responses.any (·.isValid)) rfl (by decide)
  simp only [Option.any_eq_true_iff_get, Bool.and_eq_true, beq_iff_eq, List.any_eq_true] at hp
  obtain ⟨hc, hh, response, hm, hv⟩ := hp
  have hc' := Option.eq_some_of_isSome hc
  exact ⟨s, _, response, hr, hc', hm, (response_counts_grant hr).2.2 0 _ .lease true response hc' hh
    hm hv⟩

end Gate
end SteamInputLease
