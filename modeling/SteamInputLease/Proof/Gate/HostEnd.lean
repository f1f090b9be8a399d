import SteamInputLease.Proof.Gate.Accounting

/-!
# The host library against its worker

`Served` pairs the state of a host library call with where its worker is and what is in the pipe. It
is why a `Lease` object means a counted unit: while the object lives, its worker waits in the second
read with nothing left to read.

The library and its worker share a pipe of two directions and nothing else, and each side steps
without asking the other. So the invariant has to say, for each state of the library's call, every
place the worker may have got to meanwhile and what is then on its way. It stays small because the
protocol is strict: a library connection carries one request, one answer, and at most one release,
and the worker answers before it reads again. `Traffic` reduces the worker's forty transitions to
the four that the pipe can tell apart. Of a raw client, which may send anything, and of a call that
is over `Served` asks nothing.
-/

namespace SteamInputLease
namespace Gate

open Lib Lib.System Protocol Recovery

/-! ## What a worker step does to the pipe -/

/-- The second message has been read and the unit is still counted. -/
def WorkerPc.inRelease : WorkerPc → Bool
  | .lockRelease _ _ | .release _ _ | .releaseRead _ _ _ => true
  | _ => false

/-- On the way from an acquire request for `o` to its answer, or past a refusal. -/
def WorkerPc.acquires (o : Owner) (pc : WorkerPc) : Prop :=
  match pc.standing with
  | .asking o' => o' = o
  | .owning o' => o' = o ∧ pc.inRelease = false
  | .answered result => result ≠ .ok
  | .ended => True
  | _ => False

/-- On the way from the second message to the end. -/
def WorkerPc.releases (pc : WorkerPc) : Prop :=
  pc.inRelease = true ∨ pc.standing = .returned ∨ pc.standing = .ended

/-- A worker reads one of its two messages, answers, or leaves the pipe alone. -/
inductive Traffic (c c' : Connection) : Prop
  | readRequest {r : ReadFile} {c₁ : Connection} (hpc : c.pc = .readRequest)
      (hr : c.nextRead = some (r, c₁)) (hc : c' = c₁.goto (.dispatch r))
  | readRelease {o : Owner} {e : Bool} {r : ReadFile} {c₁ : Connection}
      (hpc : c.pc = .readRelease o) (hr : c.nextRead = some (r, c₁))
      (hc : c' = c₁.goto (.lockRelease o e))
  | sent {r : Reply} {response : Response} (hpc : c.pc = .write r response)
      (hc : c' = { c with responses := c.responses ++ [response], pc := r.next })
  | silent {pc : WorkerPc} (hpc : c.pc ≠ .readRequest) (hpc' : ∀ o, c.pc ≠ .readRelease o)
      (hc : c' = c.goto pc) (ha : ∀ o, c.pc.acquires o → pc.acquires o)
      (hr : c.pc.releases → pc.releases) (ho : c.pc.standing = .ended → pc.standing = .ended)

theorem acquires_sectionNext {o : Owner} {sec : Section} (h : (WorkerPc.unlock sec).acquires o) :
    sec.next.acquires o := by
  cases sec with
  | granted o' => exact ⟨h.1, rfl⟩
  | gaveBack e => exact absurd h (by simp [WorkerPc.acquires, WorkerPc.standing, Section.standing])

theorem releases_sectionNext {sec : Section} (h : (WorkerPc.unlock sec).releases) :
    sec.next.releases := by
  cases sec with
  | granted o =>
    simp [WorkerPc.releases, WorkerPc.inRelease, WorkerPc.standing, Section.standing] at h
  | gaveBack e => cases e with
    | true => exact .inr (.inl rfl)
    | false => exact .inr (.inr rfl)

theorem acquires_replyNext {o : Owner} {r : Reply} {response : Response}
    (h : (WorkerPc.write r response).acquires o) : r.next.acquires o := by
  cases r with
  | initial result g => cases g with
    | some o' => exact ⟨h.1, rfl⟩
    | none => trivial
  | released => trivial

theorem releases_replyNext {r : Reply} {response : Response}
    (h : (WorkerPc.write r response).releases) : r.next.releases := by
  cases r with
  | initial result g =>
    cases g <;> simp [WorkerPc.releases, WorkerPc.inRelease, WorkerPc.standing,
      Reply.standing] at h
  | released => exact .inr (.inr rfl)

/-- A silent step that changes neither the standing nor the side of the second read. -/
theorem Traffic.same {c c' : Connection} {pc : WorkerPc} (hc : c' = c.goto pc)
    (hpc : c.pc ≠ .readRequest) (hpc' : ∀ o, c.pc ≠ .readRelease o)
    (hst : pc.standing = c.pc.standing) (hin : pc.inRelease = c.pc.inRelease) : Traffic c c' := by
  refine .silent hpc hpc' hc ?_ ?_ ?_
  · intro o ha
    rw [WorkerPc.acquires, hst, hin]
    exact ha
  · intro hr
    rw [WorkerPc.releases, hst, hin]
    exact hr
  · intro ho
    rw [hst, ho]

theorem Move.traffic {i : Nat} {p p' : Payload} {c c' : Connection} (h : Move i p c p' c') :
    Traffic c c' := by
  cases h with
  | read hpc hr => exact .readRequest hpc hr rfl
  | readRelease hpc hr => exact .readRelease hpc hr rfl
  | written hpc _ => exact .sent hpc rfl
  | notWritten hpc =>
    refine .silent (by simp [hpc]) (by simp [hpc]) rfl ?_ ?_ ?_
    · intro o ha
      exact acquires_replyNext (hpc ▸ ha)
    · intro hr
      exact releases_replyNext (hpc ▸ hr)
    · rw [hpc]
      -- the reply that failed ends the connection, and its claim with it
      rename_i r _
      rcases r with ⟨_, _ | _⟩ | _ <;> simp [WorkerPc.standing, Reply.standing]
  | unlock hpc =>
    refine .silent (by simp [hpc]) (by simp [hpc]) rfl ?_ ?_ ?_
    · intro o ha
      exact acquires_sectionNext (hpc ▸ ha)
    · intro hr
      exact releases_sectionNext (hpc ▸ hr)
    · rw [hpc]
      rename_i sec
      cases sec <;> simp [WorkerPc.standing, Section.standing]
  | hooksRefused hpc _ | hooksFailed hpc _ =>
    refine .silent (by simp [hpc]) (by simp [hpc]) rfl ?_ ?_ ?_
    · intro o _
      simp [WorkerPc.acquires, WorkerPc.standing, Reply.standing]
    · rw [hpc]
      simp [WorkerPc.releases, WorkerPc.inRelease, WorkerPc.standing]
    · rw [hpc]
      simp [WorkerPc.standing]
  | addLease hpc | addPassThrough hpc =>
    refine .silent (by simp [hpc]) (by simp [hpc]) rfl ?_ ?_ ?_
    · rw [hpc]
      simp [WorkerPc.acquires, WorkerPc.inRelease, WorkerPc.standing]
    · rw [hpc]
      simp [WorkerPc.releases, WorkerPc.inRelease, WorkerPc.standing]
    · rw [hpc]
      simp [WorkerPc.standing]
  | giveBack hpc =>
    refine .silent (by simp [hpc]) (by simp [hpc]) rfl ?_ ?_ ?_
    · rw [hpc]
      simp [WorkerPc.acquires, WorkerPc.inRelease, WorkerPc.standing]
    · intro _
      exact .inr (.inl rfl)
    · rw [hpc]
      simp [WorkerPc.standing]
  | hooksInstalled hpc _ _ =>
    exact .same rfl (by simp [hpc]) (by simp [hpc]) (by rw [hpc]; rfl) (by rw [hpc]; rfl)
  | hooksReady hpc _ | lockAcquire hpc _ | lockRelease hpc _ | leaseSweeps hpc _
  | leaseQuiet hpc _ | releaseSweeps hpc _ | releaseNotifies hpc _ | notifying hpc _
  | notified hpc _ | recoveryReady hpc _ | recoveryPending hpc _ =>
    exact .same rfl (by simp [hpc]) (by simp [hpc]) (by rw [hpc]; rfl) (by rw [hpc]; rfl)
  | disconnect hpc | readBlocking hpc | passThroughNotifies hpc | passThroughQuiet hpc
  | readWasBlocking hpc | releaseQuiet hpc | discovered hpc | claimResolution hpc
  | resolverSpawned hpc | resolverNotSpawned hpc | readPassState hpc | readCounts hpc =>
    exact .same rfl (by simp [hpc]) (by simp [hpc]) (by rw [hpc]; rfl) (by rw [hpc]; rfl)

/-! ## The response a worker has built -/

/-- A response that waits to be written carries the result of its reply. -/
def Connection.Answers (c : Connection) : Prop :=
  ∀ r response, c.pc = .write r response → response.result = r.result.code

theorem Move.answers {i : Nat} {p p' : Payload} {c c' : Connection} (h : Move i p c p' c') :
    c'.Answers := by
  intro r response hw
  cases h with
  | readCounts hpc =>
    simp only [Connection.goto_pc, WorkerPc.write.injEq] at hw
    rw [← hw.2, ← hw.1]
    rfl
  | read hpc hr =>
    simp only [Connection.goto_pc] at hw
    rcases dispatch_cases _ with hd | ⟨_, _, hd⟩ | ⟨_, _, hd⟩ | ⟨_, _, hd⟩ <;> rw [hd] at hw <;>
      simp at hw
  | unlock hpc =>
    rename_i sec
    rcases sec with _ | ⟨_ | _⟩ <;> simp [Section.next] at hw
  | @written r' _ hpc _ => rcases r' with ⟨_, _ | _⟩ | _ <;> simp [Reply.next] at hw
  | @notWritten r' _ hpc => rcases r' with ⟨_, _ | _⟩ | _ <;> simp [Reply.next] at hw
  | _ => simp at hw

/-! ## The host's calls -/

/-- Nothing is on its way in either direction. -/
def Connection.drained (c : Connection) : Prop := c.requests = [] ∧ c.responses = []

/-- Where the worker is and what is in the pipe, while the library is in one of its calls. -/
def Connection.Served (c : Connection) : Prop :=
  match c.host with
  | .raw | .gone | .released _ => True
  | .idle _ _ => c.clientOpen = true ∧ c.pc = .readRequest ∧ c.drained
  | .acquiring o _ => c.clientOpen = true ∧
    ((c.pc = .readRequest ∧ c.requests = [(Request.new o.acquireCommand).toBytes] ∧
        c.responses = []) ∨
      (c.pc.acquires o ∧ c.drained) ∨
      (c.requests = [] ∧ ∃ r, c.responses = [r] ∧
        (c.pc = .readRelease o ∨ (c.pc.standing = .ended ∧ r.result ≠ ResultCode.ok.code))))
  | .holding o _ => c.clientOpen = true ∧ c.pc = .readRelease o ∧ c.drained
  | .releasing o _ => c.clientOpen = true ∧
    ((c.pc = .readRelease o ∧ c.requests = [(Request.new o.releaseCommand).toBytes] ∧
        c.responses = []) ∨
      (c.pc.releases ∧ c.drained) ∨
      (c.pc.standing = .ended ∧ c.requests = [] ∧ ∃ r, c.responses = [r]))

theorem served_accepted {h : HostEnd} (hf : h.fresh = true) : (Connection.accepted h).Served := by
  cases h with
  | raw => trivial
  | idle o st => exact ⟨rfl, rfl, rfl, rfl⟩
  | _ => simp [HostEnd.fresh] at hf

/-- The library's own steps. -/
theorem Connection.Served.client {c c' : Connection} {a : ClientAct} (hc : c.Served)
    (h : clientStep c a = some c') : c'.Served := by
  unfold clientStep at h
  split at h
  · cases h
  next hopen =>
  have hopen : c.clientOpen = true := by simpa using hopen
  split at h
  case h_1 hh => cases h; simp [Connection.Served, hh]
  case h_2 hh _ => cases h; simp [Connection.Served, hh]
  case h_3 o st hh =>
    -- the acquire request is on its way
    cases h
    simp only [Connection.Served, hh] at hc
    obtain ⟨_, hpc, hreq, hresp⟩ := hc
    exact ⟨hopen, .inl ⟨hpc, by rw [hreq]; rfl, hresp⟩⟩
  case h_4 o st r rest hh hr =>
    simp only [Connection.Served, hh] at hc
    obtain ⟨_, ⟨_, _, h₀⟩ | ⟨_, _, h₀⟩ | ⟨hreq, r', hr', hpc⟩⟩ := hc
    · simp [h₀] at hr
    · simp [h₀] at hr
    rw [hr', List.cons.injEq] at hr
    obtain ⟨rfl, rfl⟩ := hr
    split at h <;> cases h
    · next hv =>
      -- a valid response carries `Ok`, so the worker waits in its second read
      have hok : r'.result = ResultCode.ok.code := by
        simp only [Response.isValid, Bool.and_eq_true, beq_iff_eq] at hv
        exact hv.2
      rcases hpc with hpc | ⟨_, hne⟩
      · exact ⟨hopen, hpc, hreq, rfl⟩
      · exact absurd hok hne
    · trivial
  case h_5 o st hh =>
    cases h
    simp only [Connection.Served, hh] at hc
    obtain ⟨_, hpc, hreq, hresp⟩ := hc
    exact ⟨hopen, .inl ⟨hpc, by rw [hreq]; rfl, hresp⟩⟩
  case h_6 => split at h <;> cases h <;> trivial
  case h_7 => cases h; trivial
  case h_8 => cases h; trivial
  case h_9 => cases h

/-- A read of an open pipe takes the first message. -/
theorem nextRead_open {c c₁ : Connection} {r : ReadFile} (ho : c.clientOpen = true)
    (h : c.nextRead = some (r, c₁)) :
    ∃ m rest, c.requests = m :: rest ∧ r = readFile (some m) ∧
      c₁ = { c with requests := rest } := by
  unfold Connection.nextRead at h
  split at h
  · next _ m rest hm =>
    simp only [Option.some.injEq, Prod.mk.injEq] at h
    exact ⟨m, rest, hm, h.1.symm, h.2.symm⟩
  · next hf => simp [ho] at hf
  · cases h

theorem nextRead_host {c c₁ : Connection} {r : ReadFile} (h : c.nextRead = some (r, c₁)) :
    c₁.host = c.host := by
  unfold Connection.nextRead at h
  split at h <;> cases h <;> rfl

/-- The library's acquire request gets its worker on the way to a unit of its kind. -/
theorem acquires_dispatch_new (o : Owner) :
    (WorkerPc.dispatch (readFile (some (Request.new o.acquireCommand).toBytes))).acquires o := by
  rw [readFile_new]
  cases o <;> exact rfl

theorem Connection.Served.readRequest {c c₁ : Connection} {r : ReadFile} (hc : c.Served)
    (hpc : c.pc = .readRequest) (hr : c.nextRead = some (r, c₁)) :
    (c₁.goto (.dispatch r)).Served := by
  have hh := nextRead_host hr
  unfold Connection.Served at hc
  split at hc
  case h_1 h => simp [Connection.Served, Connection.goto, hh, h]
  case h_2 h => simp [Connection.Served, Connection.goto, hh, h]
  case h_3 h => simp [Connection.Served, Connection.goto, hh, h]
  case h_4 =>
    obtain ⟨ho, _, hd⟩ := hc
    obtain ⟨m, rest, hm, _⟩ := nextRead_open ho hr
    exact absurd (hd.1.symm.trans hm) (by simp)
  case h_5 o st h =>
    obtain ⟨ho, hc⟩ := hc
    obtain ⟨m, rest, hm, rfl, rfl⟩ := nextRead_open ho hr
    rcases hc with ⟨_, hreq, hresp⟩ | ⟨_, hd⟩ | ⟨hreq, _⟩
    · rw [hreq, List.cons.injEq] at hm
      obtain ⟨rfl, rfl⟩ := hm
      simp only [Connection.Served, Connection.goto, h]
      exact ⟨ho, .inr (.inl ⟨acquires_dispatch_new o, rfl, hresp⟩)⟩
    · exact absurd (hd.1.symm.trans hm) (by simp)
    · exact absurd (hreq.symm.trans hm) (by simp)
  case h_6 => exact absurd (hpc.symm.trans hc.2.1) (by simp)
  case h_7 o st h =>
    obtain ⟨_, ⟨hp, _⟩ | ⟨hp, _⟩ | ⟨hp, _⟩⟩ := hc
    · exact absurd (hpc.symm.trans hp) (by simp)
    · simp [WorkerPc.releases, hpc, WorkerPc.inRelease, WorkerPc.standing] at hp
    · simp [hpc, WorkerPc.standing] at hp

theorem Connection.Served.readRelease {c c₁ : Connection} {r : ReadFile} {o : Owner} {e : Bool}
    (hc : c.Served) (hpc : c.pc = .readRelease o) (hr : c.nextRead = some (r, c₁)) :
    (c₁.goto (.lockRelease o e)).Served := by
  have hh := nextRead_host hr
  -- every call but an explicit release leaves the pipe empty while its worker waits here
  have hempty : c.clientOpen = true → c.requests = [] → False := by
    intro ho hreq
    obtain ⟨m, rest, hm, _⟩ := nextRead_open ho hr
    exact absurd (hreq.symm.trans hm) (by simp)
  unfold Connection.Served at hc
  split at hc
  case h_1 h => simp [Connection.Served, Connection.goto, hh, h]
  case h_2 h => simp [Connection.Served, Connection.goto, hh, h]
  case h_3 h => simp [Connection.Served, Connection.goto, hh, h]
  case h_4 => exact (hempty hc.1 hc.2.2.1).elim
  case h_5 =>
    obtain ⟨ho, ⟨hp, _⟩ | ⟨_, hd⟩ | ⟨hreq, _⟩⟩ := hc
    · exact absurd (hpc.symm.trans hp) (by simp)
    · exact (hempty ho hd.1).elim
    · exact (hempty ho hreq).elim
  case h_6 => exact (hempty hc.1 hc.2.2.1).elim
  case h_7 o' st h =>
    obtain ⟨ho, ⟨_, hreq, hresp⟩ | ⟨_, hd⟩ | ⟨_, hreq, _⟩⟩ := hc
    · obtain ⟨m, rest, hm, rfl, rfl⟩ := nextRead_open ho hr
      rw [hreq, List.cons.injEq] at hm
      obtain ⟨rfl, rfl⟩ := hm
      simp only [Connection.Served, Connection.goto, h]
      exact ⟨ho, .inr (.inl ⟨.inl rfl, rfl, hresp⟩)⟩
    · exact (hempty ho hd.1).elim
    · exact (hempty ho hreq).elim

theorem Connection.Served.sent {c : Connection} {r : Reply} {response : Response}
    (hc : c.Served) (hpc : c.pc = .write r response)
    (hres : response.result = r.result.code) :
    ({ c with responses := c.responses ++ [response], pc := r.next } : Connection).Served := by
  unfold Connection.Served at hc
  split at hc
  case h_1 h => simp [Connection.Served, h]
  case h_2 h => simp [Connection.Served, h]
  case h_3 h => simp [Connection.Served, h]
  case h_4 => exact absurd (hpc.symm.trans hc.2.1) (by simp)
  case h_5 o st h =>
    simp only [Connection.Served, h]
    obtain ⟨ho, ⟨hp, _⟩ | ⟨ha, hd⟩ | ⟨_, r', hr', hp⟩⟩ := hc
    · exact absurd (hpc.symm.trans hp) (by simp)
    · refine ⟨ho, .inr (.inr ⟨hd.1, response, by rw [hd.2]; rfl, ?_⟩)⟩
      rw [hpc] at ha
      cases r with
      | initial result g => cases g with
        | some o' =>
          obtain rfl : o' = o := ha.1
          exact .inl rfl
        | none =>
          refine .inr ⟨rfl, ?_⟩
          have hne : result ≠ .ok := ha
          rw [hres]
          cases result <;> simp_all [Reply.result, ResultCode.code]
      | released => exact ha.elim
    · rcases hp with hp | ⟨hp, _⟩
      · exact absurd (hpc.symm.trans hp) (by simp)
      · rw [hpc] at hp
        rcases r with ⟨_, _ | _⟩ | _ <;> simp [WorkerPc.standing, Reply.standing] at hp
  case h_6 => exact absurd (hpc.symm.trans hc.2.1) (by simp)
  case h_7 o st h =>
    simp only [Connection.Served, h]
    obtain ⟨ho, ⟨hp, _⟩ | ⟨hrel, hd⟩ | ⟨hp, _⟩⟩ := hc
    · exact absurd (hpc.symm.trans hp) (by simp)
    · refine ⟨ho, .inr (.inr ⟨?_, hd.1, response, by rw [hd.2]; rfl⟩)⟩
      rw [hpc] at hrel
      cases r with
      | initial result g =>
        cases g <;> simp [WorkerPc.releases, WorkerPc.inRelease, WorkerPc.standing,
          Reply.standing] at hrel
      | released => rfl
    · rw [hpc] at hp
      rcases r with ⟨_, _ | _⟩ | _ <;> simp [WorkerPc.standing, Reply.standing] at hp

theorem Connection.Served.silent {c : Connection} {pc : WorkerPc} (hc : c.Served)
    (hpc : c.pc ≠ .readRequest) (hpc' : ∀ o, c.pc ≠ .readRelease o)
    (ha : ∀ o, c.pc.acquires o → pc.acquires o) (hr : c.pc.releases → pc.releases)
    (hov : c.pc.standing = .ended → pc.standing = .ended) : (c.goto pc).Served := by
  unfold Connection.Served at hc
  split at hc
  case h_1 h => simp [Connection.Served, Connection.goto, h]
  case h_2 h => simp [Connection.Served, Connection.goto, h]
  case h_3 h => simp [Connection.Served, Connection.goto, h]
  case h_4 => exact absurd hc.2.1 hpc
  case h_5 o st h =>
    simp only [Connection.Served, Connection.goto, h]
    obtain ⟨ho, ⟨hp, _⟩ | ⟨hacq, hd⟩ | ⟨hreq, r', hr', hp⟩⟩ := hc
    · exact absurd hp hpc
    · exact ⟨ho, .inr (.inl ⟨ha o hacq, hd⟩)⟩
    · rcases hp with hp | ⟨hp, hne⟩
      · exact absurd hp (hpc' o)
      · exact ⟨ho, .inr (.inr ⟨hreq, r', hr', .inr ⟨hov hp, hne⟩⟩)⟩
  case h_6 => exact absurd hc.2.1 (hpc' _)
  case h_7 o st h =>
    simp only [Connection.Served, Connection.goto, h]
    obtain ⟨ho, ⟨hp, _⟩ | ⟨hrel, hd⟩ | ⟨hp, hrest⟩⟩ := hc
    · exact absurd hp (hpc' o)
    · exact ⟨ho, .inr (.inl ⟨hr hrel, hd⟩)⟩
    · exact ⟨ho, .inr (.inr ⟨hov hp, hrest⟩)⟩

theorem Connection.Served.worker {c c' : Connection} (hc : c.Served) (hans : c.Answers)
    (h : Traffic c c') : c'.Served := by
  cases h with
  | readRequest hpc hr hc' => exact hc' ▸ hc.readRequest hpc hr
  | readRelease hpc hr hc' => exact hc' ▸ hc.readRelease hpc hr
  | sent hpc hc' => exact hc' ▸ hc.sent hpc (hans _ _ hpc)
  | silent hpc hpc' hc' ha hr ho => exact hc' ▸ hc.silent hpc hpc' ha hr ho

theorem clientStep_answers {c c' : Connection} {a : ClientAct} (h : clientStep c a = some c')
    (hc : c.Answers) : c'.Answers := by
  intro r response hpc
  exact hc r response (clientStep_pc h ▸ hpc)

/-- In every reachable state, every connection is served. -/
theorem served_of_reach {C : State → Label → Prop} {s : State} (hr : gate.ReachUnder C s) :
    ∀ (i : Nat) (c : Connection), s.conns[i]? = some c → c.Served ∧ c.Answers := by
  refine ReachUnder.invariant
    (I := fun s => ∀ (i : Nat) (c : Connection), s.conns[i]? = some c → c.Served ∧ c.Answers)
    ?_ ?_ hr
  · rintro s rfl i c h
    simp [State.initial] at h
  intro s e s' _ ih _ hs
  cases e with
  | accept h =>
    obtain ⟨hf, _, rfl⟩ := step_accept hs
    refine forall_concat ih ⟨served_accepted hf, ?_⟩
    intro r response hpc
    simp [Connection.accepted] at hpc
  | client i a =>
    obtain ⟨c, c', hc, ha, rfl⟩ := step_client hs
    exact forall_set hc (fun j d _ hd => ih j d hd)
      ⟨(ih i c hc).1.client ha, clientStep_answers ha (ih i c hc).2⟩
  | worker i ch =>
    obtain ⟨c, p, c', hc, hm, rfl⟩ := step_worker hs
    exact forall_set hc (fun j d _ hd => ih j d hd)
      ⟨(ih i c hc).1.worker (ih i c hc).2 hm.traffic, hm.answers⟩
  | timer ch =>
    obtain ⟨k, t, _, rfl⟩ := step_timer hs
    exact ih
  | resolver j ch =>
    obtain ⟨k, run, rs, rfl⟩ := step_resolver hs
    exact ih
  | tick ms =>
    rw [step_tick hs]
    exact ih

/-- Behind a `Lease` or a `PassThrough` object there is a counted unit of its kind. -/
theorem Connection.Served.owns_of_holds {c : Connection} {o : Owner} (hc : c.Served)
    (h : c.holds o = true) : c.owns o = true := by
  unfold Connection.holds at h
  split at h
  · next o' st hh =>
    simp only [Connection.Served, hh] at hc
    rw [beq_iff_eq] at h
    subst h
    rw [owns_iff, hc.2.1]
    rfl
  · cases h

end Gate
end SteamInputLease
