import SteamInputLease.Proof.Gate.HostEnd

/-!
# The counters over a whole run

`LeaseAccounting` is what the two counters mean to a client, in terms of the ledger of the run and
of the host objects alive; `leaseAccounting` proves it of every reachable state.

All the work is in the files before: `Accounting` has the counters as numbers of owners and the
ledger's account of each connection, and `HostEnd` has the owner behind each object of the library.
Here the accounts are read. Over all connections they add up to the counters; an account holds no
unit or one of the kind that was asked for; when a connection has ended its account is level; and an
object that lives has its unit on it. A connection asks once, by its first message, so the kind that
an account is about is well defined.
-/

namespace SteamInputLease
namespace Gate

open Lib Lib.System Protocol

/-- What holds between the counters, the ledger of the run so far and the host library. -/
structure LeaseAccounting (s : State) (l : Ledger) : Prop where
  /-- A counter is the number of workers granted a unit of its kind and still owing it. -/
  counted : ∀ o, s.payload.counters.count o = s.conns.countP (·.owns o)
  nonneg : ∀ o, 0 ≤ s.payload.counters.count o
  /-- A worker owes exactly what it took and has not given back. -/
  owed : ∀ i c o, s.conns[i]? = some c →
    l.taken i o = l.given i o + if c.owns o then 1 else 0
  /-- Over its whole life a connection is granted at most one unit, of one kind. -/
  single : ∀ i, l.taken i .lease + l.taken i .passThrough ≤ 1
  /-- However a connection ended, it gave back what it was granted. -/
  givenBack : ∀ i c, s.conns[i]? = some c → c.pc = .closed → l.given i = l.taken i
  /-- Only a well-formed acquire request moves a counter, and only its own. -/
  requested : ∀ i o, ¬l.requested i o.acquireCommand → l.taken i o = 0 ∧ l.given i o = 0
  /-- A response that grants nothing comes from a worker that changed nothing. -/
  refused : ∀ i c result response, s.conns[i]? = some c →
    c.pc = .write (.initial result none) response → l.taken i = noUnit ∧ l.given i = noUnit
  /-- `Ok` answers an acquire request while its unit is counted. -/
  acquireOk : ∀ i c o result granted response, s.conns[i]? = some c →
    c.pc = .write (.initial result granted) response → response.result = ResultCode.ok.code →
    l.requested i o.acquireCommand → c.owns o = true ∧ l.taken i o = l.given i o + 1
  /-- An explicit release is answered after its unit was given back. -/
  releaseResponse : ∀ i c response, s.conns[i]? = some c → c.pc = .write .released response →
    ∃ o, l.requested i o.acquireCommand ∧ l.taken i = oneUnit o ∧ l.given i = oneUnit o
  /-- There are no more `Lease` and `PassThrough` objects than units. -/
  hostObjects : ∀ o, (s.conns.countP (·.holds o) : Int) ≤ s.payload.counters.count o
  /-- When every connection has ended the counters are back where they started. -/
  ended : (∀ (i : Nat) (c : Connection), s.conns[i]? = some c → c.pc = .closed) →
    ∀ o, s.payload.counters.count o = 0

/-! ## Reading an account -/

theorem Ledger.Account.owed {l : Ledger} {i : Nat} {a : Standing} (h : l.Account i a)
    (o : Owner) : l.taken i o = l.given i o + if a.owns = some o then 1 else 0 := by
  cases a with
  | fresh => simp [h.1, h.2.1, Standing.owns]
  | asking o' => simp [h.1, h.2.1, Standing.owns]
  | answered r => simp [h.1, h.2.1, Standing.owns]
  | owning o' => simp [h.1, h.2.1, Standing.owns, oneUnit, noUnit, eq_comm]
  | returned =>
    obtain ⟨o', h₁, h₂, _⟩ := h
    simp [h₁, h₂, Standing.owns]
  | ended => simp [h.1, Standing.owns]

/-- An account holds no unit, or one of the kind its connection asked for. -/
theorem Ledger.Account.units {l : Ledger} {i : Nat} {a : Standing} (h : l.Account i a) :
    l.taken i = noUnit ∨ ∃ o, l.taken i = oneUnit o ∧ l.requested i o.acquireCommand := by
  cases a with
  | fresh => exact .inl h.1
  | asking o => exact .inl h.1
  | answered r => exact .inl h.1
  | owning o => exact .inr ⟨o, h.1, h.2.2⟩
  | returned =>
    obtain ⟨o, h₁, _, h₂⟩ := h
    exact .inr ⟨o, h₁, h₂⟩
  | ended => exact h.2

/-- One connection has one first message. -/
theorem Ledger.requested_unique {l : Ledger} {i : Nat} {c c' : Command}
    (h : l.requested i c) (h' : l.requested i c') : c.code = c'.code := by
  obtain ⟨r, hr, _, hc⟩ := h
  obtain ⟨r', hr', _, hc'⟩ := h'
  rw [hr, Option.some.injEq] at hr'
  subst hr'
  exact hc.symm.trans hc'

theorem acquireCommand_injective {o o' : Owner}
    (h : o.acquireCommand.code = o'.acquireCommand.code) : o = o' := by
  cases o <;> cases o' <;> first | rfl | exact absurd h (by decide)

/-- The lease accounting of every run. -/
theorem leaseAccounting {s : State} {l : Ledger}
    (hr : (gate.observed .empty Ledger.observe).Reach (s, l)) : LeaseAccounting s l := by
  have hacc : ∀ i, l.Account i (s.standing i) := accounted_of_reach (C := fun _ _ => True) hr
  have hreach : gate.Reach s := ReachUnder.of_observed (C := fun _ _ => True) hr
  have hb : Balanced s := balanced_of_reach hreach
  have hserved := served_of_reach hreach
  have haccount : ∀ {i c}, s.conns[i]? = some c → l.Account i c.pc.standing := by
    intro i c hc
    rw [← pc_eq hc]
    exact hacc i
  refine ⟨hb.counted, hb.nonneg, ?_, ?_, ?_, ?_, ?_, ?_, ?_, ?_, ?_⟩
  · intro i c o hc
    rw [(haccount hc).owed o]
    simp [Connection.owns]
  · intro i
    rcases (hacc i).units with h | ⟨o, h, _⟩
    · simp [h, noUnit]
    · cases o <;> simp [h, oneUnit]
  · intro i c hc hpc
    have h := haccount hc
    rw [hpc] at h
    exact h.1
  · intro i o hno
    have htaken : l.taken i o = 0 := by
      rcases (hacc i).units with h | ⟨o', h, hreq⟩
      · simp [h, noUnit]
      · have hne : o ≠ o' := fun ho => hno (ho ▸ hreq)
        simp [h, oneUnit, hne]
    have howed := (hacc i).owed o
    omega
  · intro i c result response hc hpc
    have h := haccount hc
    rw [hpc] at h
    exact ⟨h.1, h.2.1⟩
  · intro i c o result granted response hc hpc hok hreq
    have h := haccount hc
    have hans := (hserved i c hc).2 _ _ hpc
    rw [hok] at hans
    rw [hpc] at h
    cases granted with
    | some o' =>
      obtain ⟨h₁, h₂, hreq'⟩ := h
      obtain rfl := acquireCommand_injective (Ledger.requested_unique hreq hreq')
      refine ⟨owns_iff.mpr (by rw [hpc]; rfl), ?_⟩
      simp [h₁, h₂, oneUnit, noUnit]
    | none =>
      -- `Ok` without a unit answers a status request, which is not an acquire request
      have hres : result = .ok := by
        cases result with
        | ok => rfl
        | _ => exact absurd hans (by decide)
      have := Ledger.requested_unique hreq (h.2.2 hres)
      cases o <;> exact absurd this (by decide)
  · intro i c response hc hpc
    have h := haccount hc
    rw [hpc] at h
    obtain ⟨o, h₁, h₂, hreq⟩ := h
    exact ⟨o, hreq, h₁, h₂⟩
  · intro o
    rw [hb.counted o, Nat.cast_le]
    refine List.countP_mono_left fun c hc hh => ?_
    obtain ⟨i, hi⟩ := List.getElem?_of_mem hc
    exact (hserved i c hi).1.owns_of_holds hh
  · intro hclosed o
    rw [hb.counted o, Nat.cast_eq_zero, List.countP_eq_zero]
    intro c hc
    obtain ⟨i, hi⟩ := List.getElem?_of_mem hc
    rw [owns_iff, hclosed i c hi]
    simp [WorkerPc.standing]

/-- The library acquires a lease. -/
def leaseAcquired : List Label :=
  [.accept (.idle .lease true), .client 0 .acquire, .worker 0 .go, .worker 0 (.install true false)]
  ++ .replicate 5 (.worker 0 .go)
  ++ [.worker 0 (.flag false), .worker 0 (.flag true), .worker 0 .go, .worker 0 (.counts 0 0),
    .worker 0 (.flag true), .client 0 .acquired]

/-- The accounting while the library holds a lease. -/
theorem leaseAccounting_held : ∃ s l, (gate.observed .empty Ledger.observe).Reach (s, l) ∧
    s.payload.counters.leaseCount = 1 ∧ s.conns.countP (·.holds .lease) = 1 ∧
    LeaseAccounting s l := by
  obtain ⟨s, hr, hp⟩ := exists_reach_of_exec (T := gate) (s := .initial) leaseAcquired
    (fun s => s.payload.counters.leaseCount == 1 && s.conns.countP (·.holds .lease) == 1)
    rfl (by decide)
  obtain ⟨l, hl⟩ := reach_observed .empty Ledger.observe hr
  simp only [Bool.and_eq_true, beq_iff_eq] at hp
  exact ⟨s, l, hl, hp.1, hp.2, leaseAccounting hl⟩

end Gate
end SteamInputLease
