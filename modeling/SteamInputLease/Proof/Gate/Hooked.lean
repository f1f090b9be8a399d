import SteamInputLease.Gate.Hooked
import SteamInputLease.Proof.Gate.Hooks
import SteamInputLease.Proof.Gate.HostEnd

/-!
# The verdict on the hooks

The payload stores a verdict once; until it is `true` nobody who asks for a lease gets one.

The installation and the payload are one system here: the worker that waits for `install_hooks` is
held up until the calls of the installation have run, and Steam's threads may enter a hooked
function after any of them. A run of it is a run of the payload as it is elsewhere
(`gate_of_hooked`), so what is known of the payload need not be proved again. The refusals are
followed through the messages: a worker that has read an acquire request without the verdict is on
the way to a refusal and stays there, whatever other workers do to the verdict meanwhile, because
only one that waits for it can store it. What a call of the installation itself may do to the hooks
is the business of `Hooks`.
-/

namespace SteamInputLease
namespace Gate

open Lib Lib.System Protocol

/-! ## The verdict in the payload -/

theorem Move.hooks {i : Nat} {p p' : Payload} {c c' : Connection} (h : Move i p c p' c') :
    p'.hooks = p.hooks ∨ p.hooks = none ∧ c.pc = .ensureHooks := by
  cases h with
  | hooksInstalled hpc hh _ => exact .inr ⟨hh, hpc⟩
  | hooksFailed hpc hh => exact .inr ⟨hh, hpc⟩
  | _ => exact .inl rfl

/-- Without a verdict a worker waits for `install_hooks`, and what that returns is the verdict. -/
theorem workerStep_install {p p' : Payload} {i : Nat} {c c' : Connection} {ch : Choice}
    (hpc : c.pc = .ensureHooks) (hh : p.hooks = none)
    (h : workerStep p i c ch = some (p', c')) :
    ∃ installed spawned, ch = .install installed spawned ∧ p'.hooks = some installed := by
  rw [workerStep, hpc] at h
  simp only [WorkerPc.stage, outsideStep, hh] at h
  cases ch with
  | install installed spawned =>
    cases installed with
    | true =>
      cases h
      exact ⟨true, spawned, rfl, rfl⟩
    | false =>
      cases h
      exact ⟨false, spawned, rfl, rfl⟩
  | go => cases h
  | flag b => cases h
  | layout l => cases h
  | elected a => cases h
  | counts hid revoked => cases h

/-- Only a worker that waits for a verdict stores one. -/
theorem step_hooks {s s' : State} {e : Label} (hs : gate.step s e = some s') :
    s'.payload.hooks = s.payload.hooks ∨
      ∃ i installed spawned, e = .worker i (.install installed spawned) ∧
        s.payload.hooks = none ∧ s.pc i = .ensureHooks ∧ s'.payload.hooks = some installed := by
  cases e with
  | accept h =>
    obtain ⟨_, _, rfl⟩ := step_accept hs
    exact .inl rfl
  | client i a =>
    obtain ⟨c, c', _, _, rfl⟩ := step_client hs
    exact .inl rfl
  | worker i ch =>
    have hstep := hs
    simp only [gate, step, Option.bind_eq_some_iff, Option.map_eq_some_iff] at hstep
    obtain ⟨c, hc, ⟨p, c'⟩, hw, rfl⟩ := hstep
    rcases (workerStep_move hw).hooks with h | ⟨hh, hpc⟩
    · exact .inl h
    · obtain ⟨installed, spawned, rfl, hverdict⟩ := workerStep_install hpc hh hw
      exact .inr ⟨i, installed, spawned, rfl, hh, (pc_eq hc).trans hpc, hverdict⟩
  | timer ch =>
    obtain ⟨k, t, _, rfl⟩ := step_timer hs
    exact .inl rfl
  | resolver j ch =>
    obtain ⟨k, run, rs, rfl⟩ := step_resolver hs
    exact .inl rfl
  | tick ms =>
    rw [step_tick hs]
    exact .inl rfl

/-- A verdict is final. -/
theorem step_verdict {s s' : State} {e : Label} {b : Bool} (hs : gate.step s e = some s')
    (hb : s.payload.hooks = some b) : s'.payload.hooks = some b := by
  rcases step_hooks hs with h | ⟨_, _, _, _, hnone, _⟩
  · exact h.trans hb
  · rw [hb] at hnone
    cases hnone

theorem step_install {s s' : State} {i : Nat} {ch : Choice}
    (hs : gate.step s (.worker i ch) = some s') (hnone : s.payload.hooks = none)
    (hpc : s.pc i = .ensureHooks) :
    ∃ installed spawned, ch = .install installed spawned ∧ s'.payload.hooks = some installed := by
  simp only [gate, step, Option.bind_eq_some_iff, Option.map_eq_some_iff] at hs
  obtain ⟨c, hc, ⟨p, c'⟩, hw, rfl⟩ := hs
  exact workerStep_install ((pc_eq hc).symm.trans hpc) hnone hw

/-- While there is no verdict, a worker that waits for one does not move by itself. -/
theorem step_waits {s s' : State} {e : Label} {i : Nat} (hs : gate.step s e = some s')
    (hnone : s'.payload.hooks = none) (hpc : s.pc i = .ensureHooks) : s'.pc i = .ensureHooks := by
  by_cases hw : ∀ j ch, e ≠ .worker j ch
  · rw [pc_background hs hw, hpc]
  · simp only [not_forall, not_not] at hw
    obtain ⟨j, ch, rfl⟩ := hw
    have hbefore : s.payload.hooks = none := by
      rcases step_hooks hs with h | ⟨_, _, _, _, hh, _⟩
      · exact h.symm.trans hnone
      · exact hh
    by_cases hi : i = j
    · subst hi
      obtain ⟨installed, _, _, hverdict⟩ := step_install hs hbefore hpc
      rw [hnone] at hverdict
      cases hverdict
    · obtain ⟨c, p, c', _, _, rfl⟩ := step_worker hs
      rw [pc_set_ne hi, hpc]

/-! ## Who asks for a lease -/

/-- On the way from an acquire request to its refusal, or past it. -/
def WorkerPc.refusing : WorkerPc → Bool
  | .ensureHooks | .disconnect | .closed => true
  | .capabilities r | .spawnResolver r | .passState r _ | .counts r _ | .write r _ =>
    r == .initial .hookInstallFailed none
  | _ => false

theorem refusing_next {r : Reply} {response : Protocol.Response}
    (h : (WorkerPc.write r response).refusing = true) : r.next.refusing = true := by
  have hr : r = .initial .hookInstallFailed none := beq_iff_eq.mp h
  rw [hr]
  rfl

/-- Without the verdict `true` a refused worker stays refused. -/
theorem Move.refusing {i : Nat} {p p' : Payload} {c c' : Connection} (h : Move i p c p' c')
    (hno : p'.hooks ≠ some true) (hr : c.pc.refusing = true) : c'.pc.refusing = true := by
  cases h with
  | hooksReady hpc hh => exact absurd hh hno
  | hooksInstalled hpc hh hrs => exact absurd rfl hno
  | hooksRefused hpc hh => rfl
  | hooksFailed hpc hh => rfl
  | disconnect hpc => rfl
  | written hpc ho => exact refusing_next (hpc ▸ hr)
  | notWritten hpc => exact refusing_next (hpc ▸ hr)
  | _ => simp_all [WorkerPc.refusing]

/-- An acquire request waits for the hooks. -/
theorem refusing_dispatch {r : ReadFile} (hv : r.valid = true)
    (hcmd : r.request.command = Command.acquireLease.code) :
    (WorkerPc.dispatch r).refusing = true := by
  rw [WorkerPc.dispatch, hv, hcmd]
  rfl

/-- Every connection that has asked for a lease is being refused. -/
def Refusing (s : State) (l : Ledger) : Prop :=
  ∀ i c, s.conns[i]? = some c → l.requested i .acquireLease → c.pc.refusing = true

/-- A step of the worker of connection `i`, whose first read the ledger then has. -/
theorem Refusing.worker {s : State} {l : Ledger} {i : Nat} {c c' : Connection} {p : Payload}
    {ch : Choice} (ih : Refusing s l) (hc : s.conns[i]? = some c) (hm : Move i s.payload c p c')
    (hfresh : c.pc = .readRequest → l.first i = none) (hno : p.hooks ≠ some true) :
    Refusing { payload := p, conns := s.conns.set i c' }
      (l.observe s (.worker i ch) { payload := p, conns := s.conns.set i c' }) := by
  intro j d hd hreq
  obtain ⟨r, hfirst, hv, hcmd⟩ := hreq
  by_cases hj : j = i
  · subst hj
    have hdc : d = c' := by
      rw [List.getElem?_set_self (List.getElem?_eq_some_iff.mp hc).1] at hd
      exact (Option.some.inj hd).symm
    subst hdc
    rw [(Ledger.observe_worker_self l s _ j ch).2.2] at hfirst
    by_cases hpc : c.pc = .readRequest
    · rw [hfresh hpc, Option.none_or] at hfirst
      cases hm with
      | read hpc' hr =>
        simp only [firstRead, hc, Option.bind_some, if_pos hpc, hr, Option.map_some,
          Option.some.injEq] at hfirst
        subst hfirst
        exact refusing_dispatch hv hcmd
      | _ => simp_all
    · rw [firstRead_none hc hpc, Option.or_none] at hfirst
      exact hm.refusing hno (ih j c hc ⟨r, hfirst, hv, hcmd⟩)
  · rw [List.getElem?_set_ne (Ne.symm hj)] at hd
    refine ih j d hd ⟨r, ?_, hv, hcmd⟩
    simpa [Ledger.observe, hj] using hfirst

/-- Without the verdict `true`, whoever asks for a lease is refused. -/
theorem refusing_of_reach {s : State} {l : Ledger}
    (hr : (gate.observed .empty Ledger.observe).Reach (s, l)) :
    s.payload.hooks ≠ some true → Refusing s l := by
  refine ReachUnder.invariant (T := gate.observed .empty Ledger.observe)
    (I := fun p => p.1.payload.hooks ≠ some true → Refusing p.1 p.2) ?_ ?_ hr
  · rintro ⟨s, l⟩ ⟨rfl, _⟩ _ i c hc
    simp [State.initial] at hc
  rintro ⟨s, l⟩ e ⟨s', l'⟩ hr ih _ ho hno
  obtain ⟨hs, hl⟩ := observed_step.mp ho
  obtain rfl : l' = l.observe s e s' := hl
  have hbefore : s.payload.hooks ≠ some true := fun h => hno (step_verdict hs h)
  by_cases hw : ∀ i ch, e ≠ .worker i ch
  · have hledger : l.observe s e s' = l := by
      cases e with
      | worker i ch => exact absurd rfl (hw i ch)
      | _ => rfl
    intro i c hc hreq
    show c.pc.refusing = true
    rw [hledger] at hreq
    rw [← pc_eq hc, pc_background hs hw i]
    cases hi : s.conns[i]? with
    | some c₀ =>
      rw [pc_eq hi]
      exact ih hbefore i c₀ hi hreq
    | none =>
      -- a connection that has just been accepted has not asked for anything
      have haccount := accounted_of_reach (C := fun _ _ => True) hr i
      rw [State.standing, State.pc, hi] at haccount
      obtain ⟨r, hfirst, _⟩ := hreq
      rw [haccount.2.2] at hfirst
      cases hfirst
  · simp only [not_forall, not_not] at hw
    obtain ⟨i, ch, rfl⟩ := hw
    obtain ⟨c, p, c', hc, hm, rfl⟩ := step_worker hs
    show Refusing { payload := p, conns := s.conns.set i c' }
      (l.observe s (.worker i ch) { payload := p, conns := s.conns.set i c' })
    refine Refusing.worker (ih hbefore) hc hm (fun hpc => ?_) hno
    have haccount := accounted_of_reach (C := fun _ _ => True) hr i
    rw [State.standing, pc_eq hc, hpc] at haccount
    exact haccount.2.2

/-- Without the verdict `true` no lease is counted. -/
theorem uncounted_of_reach {s : State} {l : Ledger}
    (hr : (gate.observed .empty Ledger.observe).Reach (s, l))
    (hno : s.payload.hooks ≠ some true) : s.payload.counters.leaseCount = 0 := by
  have hreach : gate.Reach s := ReachUnder.of_observed (C := fun _ _ => True) hr
  have hcount := (balanced_of_reach hreach).counted .lease
  have hzero : s.conns.countP (·.owns .lease) = 0 := by
    rw [List.countP_eq_zero]
    intro c hc howns
    obtain ⟨i, hi⟩ := List.getElem?_of_mem hc
    have hstanding := owns_iff.mp howns
    have haccount := accounted_of_reach (C := fun _ _ => True) hr i
    rw [State.standing, pc_eq hi, hstanding] at haccount
    have hrefusing := refusing_of_reach hr hno i c hi haccount.2.2
    generalize c.pc = pc at hstanding hrefusing
    cases pc <;> simp_all [WorkerPc.refusing, WorkerPc.standing, Reply.standing]
  rw [hzero] at hcount
  exact hcount

/-! ## The system -/

section

variable {s s' : HookedState} {e : HookedLabel}

/-- A step is one of the payload's, or leaves the payload alone. -/
theorem hooked_gate (hs : hooked.step s e = some s') :
    s.gateLabel e = none ∧ s'.gate = s.gate ∨
      ∃ l, s.gateLabel e = some l ∧ gate.step s.gate l = some s'.gate := by
  simp only [hooked, hookedStep] at hs
  cases e with
  | gate l =>
    dsimp only at hs
    split at hs
    · cases hs
    next label hlabel =>
    obtain ⟨g, hg, rfl⟩ := Option.map_eq_some_iff.mp hs
    exact .inr ⟨label, hlabel, hg⟩
  | start i =>
    dsimp only at hs
    split at hs
    · cases hs
      exact .inl ⟨rfl, rfl⟩
    · cases hs
  | call a =>
    dsimp only at hs
    split at hs
    · obtain ⟨k, _, rfl⟩ := Option.map_eq_some_iff.mp hs
      exact .inl ⟨rfl, rfl⟩
    · cases hs
  | finish spawned =>
    dsimp only at hs
    split at hs
    · cases hs
    next label hlabel =>
    obtain ⟨g, hg, rfl⟩ := Option.map_eq_some_iff.mp hs
    exact .inr ⟨label, hlabel, hg⟩
  | enter detour =>
    dsimp only at hs
    split at hs
    · cases hs
      exact .inl ⟨rfl, rfl⟩
    · cases hs

/-- A run of the system is a run of the payload, with the same ledger. -/
theorem gate_of_hooked {l : Ledger} (hr : (hooked.observed .empty hookedObserve).Reach (s, l)) :
    (gate.observed .empty Ledger.observe).Reach (s.gate, l) := by
  refine observed_invariant (C := fun _ _ => True)
    (I := fun s l => (gate.observed .empty Ledger.observe).Reach (s.gate, l)) ?_ ?_ hr
  · rintro s rfl
    exact .init ⟨rfl, rfl⟩
  intro s l e s' _ ih _ hs
  rcases hooked_gate hs with ⟨hnone, hsame⟩ | ⟨label, hlabel, hg⟩
  · rw [hookedObserve, hnone, hsame]
    exact ih
  · rw [hookedObserve, hlabel]
    exact ih.next (observed_step.mpr ⟨hg, rfl⟩)

/-- The verdict is final. -/
theorem hooked_verdict {b : Bool} (hs : hooked.step s e = some s') (hb : s.verdict = some b) :
    s'.verdict = some b := by
  rcases hooked_gate hs with ⟨_, hsame⟩ | ⟨label, _, hg⟩
  · rw [HookedState.verdict, hsame]
    exact hb
  · exact step_verdict hg hb

theorem exec_verdict {b : Bool} {es : List HookedLabel} (hb : s.verdict = some b)
    (hx : hooked.exec s es = some s') : s'.verdict = some b :=
  exec_preserves (I := fun t => t.verdict = some b) (fun _ _ _ hb hs => hooked_verdict hs hb) hb hx

/-- How far the installation has come, and what Steam may find. -/
structure Installation (s : HookedState) : Prop where
  before : s.installer = none → s.verdict = none → s.installs = 0 ∧ s.hooking = .initial
  during : ∀ i p, s.installer = some (i, p) → s.verdict = none ∧ s.gate.pc i = .ensureHooks ∧
    s.installs = 1 ∧ p.Ensures Hooking.act Publishes Finished s.hooking
  after : ∀ b, s.verdict = some b → s.installs = 1 ∧ Finished b s.hooking
  published : ∀ h ∈ s.hooking.hooks, h.enabled = true → s.hooking.slots h.detour ≠ 0
  entered : ∀ detour ∈ s.entered, s.hooking.slots detour ≠ 0

theorem installation_initial : Installation .initial where
  before _ _ := ⟨rfl, rfl⟩
  during i p h := by cases h
  after b h := by cases h
  published h hmem := absurd hmem List.not_mem_nil
  entered detour hmem := absurd hmem List.not_mem_nil

theorem Installation.gate {l : Label} (h : Installation s)
    (hs : hooked.step s (.gate l) = some s') : Installation s' := by
  simp only [hooked, hookedStep] at hs
  split at hs
  · cases hs
  next label hlabel =>
  obtain ⟨g, hg, rfl⟩ := Option.map_eq_some_iff.mp hs
  have hsame : g.payload.hooks = s.gate.payload.hooks := by
    rcases step_hooks hg with hsame | ⟨i, installed, spawned, rfl, _⟩
    · exact hsame
    · cases l with
      | worker j ch => cases ch <;> cases hlabel
      | _ => cases hlabel
  refine ⟨fun hinst hnone => h.before hinst (hsame.symm.trans hnone), ?_, ?_, h.published,
    h.entered⟩
  · intro i p hinst
    obtain ⟨hnone, hpc, hinstalls, hprog⟩ := h.during i p hinst
    exact ⟨hsame.trans hnone, step_waits hg (hsame.trans hnone) hpc, hinstalls, hprog⟩
  · intro b hb
    exact h.after b (hsame.symm.trans hb)

theorem Installation.start {i : Nat} (h : Installation s)
    (hs : hooked.step s (.start i) = some s') : Installation s' := by
  simp only [hooked, hookedStep] at hs
  split at hs
  · next hwaits =>
    obtain ⟨hpc, hnone, hfree⟩ := hwaits
    rw [Option.isNone_iff_eq_none] at hfree
    obtain ⟨hinstalls, hhooking⟩ := h.before hfree hnone
    cases hs
    refine ⟨fun hinst => absurd hinst (by simp), ?_, ?_, h.published, h.entered⟩
    · rintro j p ⟨⟩
      refine ⟨hnone, hpc, by rw [hinstalls], ?_⟩
      rw [hhooking]
      exact installHooks_ensures
    · intro b hb
      cases (show s.verdict = some b from hb).symm.trans hnone
  · cases hs

theorem Installation.call {a : HookAnswer} (h : Installation s)
    (hs : hooked.step s (.call a) = some s') : Installation s' := by
  simp only [hooked, hookedStep] at hs
  split at hs
  · next i c next hinst =>
    obtain ⟨k, hact, rfl⟩ := Option.map_eq_some_iff.mp hs
    obtain ⟨hnone, hpc, hinstalls, hprog⟩ := h.during i _ hinst
    obtain ⟨hpublishes, hnext⟩ := hprog a k hact
    refine ⟨fun hinst => absurd hinst (by simp), ?_, ?_, hpublishes.guarded, ?_⟩
    · rintro j p ⟨⟩
      exact ⟨hnone, hpc, hinstalls, hnext⟩
    · intro b hb
      cases (show s.verdict = some b from hb).symm.trans hnone
    · intro detour hmem
      exact hpublishes.stays detour (h.entered detour hmem)
  · cases hs

theorem Installation.finish {spawned : Bool} (h : Installation s)
    (hs : hooked.step s (.finish spawned) = some s') : Installation s' := by
  simp only [hooked, hookedStep] at hs
  split at hs
  · cases hs
  next label hlabel =>
  obtain ⟨g, hg, rfl⟩ := Option.map_eq_some_iff.mp hs
  simp only [HookedState.gateLabel] at hlabel
  split at hlabel
  · next i installed hinst =>
    cases hlabel
    obtain ⟨hnone, hpc, hinstalls, hfinished⟩ := h.during i _ hinst
    obtain ⟨_, _, hch, hverdict⟩ := step_install hg hnone hpc
    cases hch
    refine ⟨fun _ hnone' => ?_, fun j p hinst' => ?_, fun b hb => ?_, h.published, h.entered⟩
    · cases (show g.payload.hooks = none from hnone').symm.trans hverdict
    · cases hinst'
    · cases hverdict.symm.trans (show g.payload.hooks = some b from hb)
      exact ⟨hinstalls, hfinished⟩
  · cases hlabel

theorem Installation.enter {detour : Detour} (h : Installation s)
    (hs : hooked.step s (.enter detour) = some s') : Installation s' := by
  simp only [hooked, hookedStep] at hs
  split at hs
  · next hhooked =>
    obtain ⟨hook, hmem, rfl, henabled⟩ := hhooked
    cases hs
    refine ⟨h.before, h.during, h.after, h.published, ?_⟩
    exact List.forall_mem_cons.mpr ⟨h.published hook hmem henabled, h.entered⟩
  · cases hs

theorem installation_of_reach (hr : hooked.Reach s) : Installation s := by
  refine ReachUnder.invariant (I := Installation) ?_ ?_ hr
  · rintro s rfl
    exact installation_initial
  intro s e s' _ ih _ hs
  cases e with
  | gate l => exact ih.gate hs
  | start i => exact ih.start hs
  | call a => exact ih.call hs
  | finish spawned => exact ih.finish hs
  | enter detour => exact ih.enter hs

end

/-! ## The theorem -/

/-- In every run installation is all or nothing, and its verdict is final. -/
theorem hookInstallation {s : HookedState} {l : Ledger}
    (hr : (hooked.observed .empty hookedObserve).Reach (s, l)) : AllOrNothing s l := by
  have hinstallation : Installation s :=
    installation_of_reach (ReachUnder.of_observed (C := fun _ _ => True) hr)
  have hgate := gate_of_hooked hr
  have hno : s.verdict = some false → s.gate.payload.hooks ≠ some true := by
    intro hfalse htrue
    cases (show s.gate.payload.hooks = some false from hfalse).symm.trans htrue
  refine ⟨?_, fun b hb es s' hx => exec_verdict hb hx, fun htrue => ?_, fun hfalse => ?_,
    fun hfalse => ?_, fun hfalse => ?_, hinstallation.published, hinstallation.entered⟩
  · cases hverdict : s.verdict with
    | some b => rw [(hinstallation.after b hverdict).1]
    | none =>
      cases hinst : s.installer with
      | none => rw [(hinstallation.before hinst hverdict).1]; exact Nat.zero_le 1
      | some p => rw [(hinstallation.during p.1 p.2 hinst).2.2.1]
  · exact (hinstallation.after true htrue).2.complete rfl
  · exact (hinstallation.after false hfalse).2.undone rfl
  · have hcount := uncounted_of_reach hgate (hno hfalse)
    exact ⟨hcount, by simp [State.blocking, Counters.blocking, hcount]⟩
  · intro i c r response hc hpc hreq
    have hrefusing := refusing_of_reach hgate (hno hfalse) i c hc hreq
    rw [hpc] at hrefusing
    have hreach : gate.Reach s.gate := ReachUnder.of_observed (C := fun _ _ => True) hgate
    rw [(served_of_reach hreach i c hc).2 r response hpc, beq_iff_eq.mp hrefusing]
    rfl

/-- The first acquire request installs the hooks; no XInput module is there. -/
def hooksInstalled : List HookedLabel :=
  let answered : Nat → HookedLabel := fun address => .call ⟨true, UInt64.ofNat address, []⟩
  ([.gate (.accept (.idle .lease true)), .gate (.client 0 .acquire), .gate (.worker 0 .go),
    .start 0] : List HookedLabel)
  ++ (List.range' 1 9).map answered ++ [answered 4, answered 6]
  ++ (List.range' 100 36).map answered ++ List.replicate 5 (answered 0)
  ++ ([answered 1, .enter .ntClose, .finish false] : List HookedLabel)

theorem hookInstallation_installed : ∃ s l, (hooked.observed .empty hookedObserve).Reach (s, l) ∧
    s.verdict = some true ∧ s.entered = [.ntClose] ∧ AllOrNothing s l := by
  obtain ⟨s, hr, hp⟩ := exists_reach_of_exec (T := hooked) (s := .initial) hooksInstalled
    (fun s => s.verdict == some true && s.entered == [.ntClose]) rfl (by decide +kernel)
  obtain ⟨l, hl⟩ := reach_observed .empty hookedObserve hr
  simp only [Bool.and_eq_true, beq_iff_eq] at hp
  exact ⟨s, l, hl, hp.1, hp.2, hookInstallation hl⟩

end Gate
end SteamInputLease
