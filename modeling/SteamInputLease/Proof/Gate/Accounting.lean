import SteamInputLease.Lib.Count
import SteamInputLease.Proof.Gate.Effect

/-!
# Lease accounting

`Balanced` is the invariant of the counters: at most one worker is inside a section, each counter is
the number of workers that own a unit of its kind, and there are too few connections for a 32-bit
counter to wrap. The ledger's invariant says, standing by standing, what the worker of a connection
has put on the counters and taken off them.

Owning is not a field of the worker. It is where the worker stands: from the update in its section
until the update that takes the unit back. So the number of owners changes with a step of one worker
by what that worker's standing does, and `Effect` says just that. Fewer than `2^31` connections are
live at a time, since each takes a handle of the process; only so can the counter, a wrapping 32-bit
integer, be compared with a number of workers at all. The ledger is written down by an observer that
sees messages and counter updates, and its account of a connection is the history of which the
standing is the present.
-/

namespace SteamInputLease
namespace Gate

open Lib Lib.System Protocol Recovery

/-! ## The counters are balanced -/

structure Balanced (s : State) : Prop where
  holder : ∀ i c, s.conns[i]? = some c →
    (c.pc.stage = .inSection ↔ s.payload.ownershipTransition = some i)
  present : ∀ i, s.payload.ownershipTransition = some i → i < s.conns.length
  counted : ∀ o, s.payload.counters.count o = s.conns.countP (·.owns o)
  bounded : s.conns.countP (·.live) < 2 ^ 31

theorem Connection.live_of_owns {o : Owner} {c : Connection} (h : c.owns o = true) :
    c.live = true := by
  by_contra hl
  have hpc : c.pc = .closed := by simpa [Connection.live] using hl
  simp [Connection.owns, hpc, WorkerPc.standing, Standing.owns] at h

/-- There are fewer units of one kind than a counter can count. -/
theorem Balanced.count_lt {s : State} (hb : Balanced s) (o : Owner) :
    s.payload.counters.count o < 2 ^ 31 := by
  have hle : s.conns.countP (·.owns o) ≤ s.conns.countP (·.live) :=
    List.countP_mono_left fun _ _ h => Connection.live_of_owns h
  have := hb.bounded
  have := hb.counted o
  omega

theorem Balanced.nonneg {s : State} (hb : Balanced s) (o : Owner) :
    0 ≤ s.payload.counters.count o := by
  rw [hb.counted o]
  exact Int.natCast_nonneg _

theorem balanced_initial : Balanced .initial where
  holder i c h := by simp [State.initial] at h
  present i h := by simp [State.initial, Payload.initial] at h
  counted o := by cases o <;> rfl
  bounded := by simp [State.initial]

/-- A step that moves no worker keeps the balance. -/
theorem Balanced.background {s s' : State} {e : Label} (hb : Balanced s)
    (hs : gate.step s e = some s') (hw : ∀ i ch, e ≠ .worker i ch) : Balanced s' := by
  obtain ⟨hk, hl, hconns⟩ := step_background hs hw
  rcases hconns with ⟨h, hlt, hc⟩ | ⟨i, c, c', hi, hpc, hc⟩ | hc
  · refine ⟨?_, ?_, ?_, ?_⟩
    · rw [hc, hl]
      refine forall_concat hb.holder ?_
      have hne : s.payload.ownershipTransition ≠ some s.conns.length := fun hp =>
        absurd (hb.present _ hp) (Nat.lt_irrefl _)
      simp [Connection.accepted, WorkerPc.stage, hne]
    · intro i hi
      rw [hl] at hi
      rw [hc, List.length_append]
      exact Nat.lt_add_right _ (hb.present i hi)
    · intro o
      rw [hk, hc, hb.counted o]
      simp [Connection.owns, Connection.accepted, WorkerPc.standing, Standing.owns]
    · rw [hc]
      simpa [Connection.live, Connection.accepted] using hlt
  · have hlive : c'.live = c.live := by simp [Connection.live, hpc]
    refine ⟨?_, ?_, ?_, ?_⟩
    · rw [hc, hl]
      exact forall_set hi (fun j d _ hd => hb.holder j d hd) (by rw [hpc]; exact hb.holder i c hi)
    · intro j hj
      rw [hl] at hj
      rw [hc, List.length_set]
      exact hb.present j hj
    · intro o
      rw [hk, hc, hb.counted o, countP_set_same hi (by simp [Connection.owns, hpc])]
    · rw [hc, countP_set_same hi hlive]
      exact hb.bounded
  · exact ⟨by rw [hc, hl]; exact hb.holder, by rw [hc, hl]; exact hb.present,
      by rw [hc, hk]; exact hb.counted, by rw [hc]; exact hb.bounded⟩

/-- A turn without a change of a counter leaves the unit where it is. -/
theorem Turn.owns {a b : Standing} (h : Turn a b) : b.owns = a.owns := by
  cases h <;> rfl

theorem owns_of_standing {c c' : Connection} (h : c'.pc.standing.owns = c.pc.standing.owns)
    (o : Owner) : c'.owns o = c.owns o := by
  rw [Connection.owns, Connection.owns, h]

theorem owns_iff {o : Owner} {c : Connection} : c.owns o = true ↔ c.pc.standing = .owning o := by
  unfold Connection.owns
  cases c.pc.standing <;> simp [Standing.owns]

/-- A worker that is not owning `o` is not counted for it. -/
theorem owns_false {o : Owner} {c : Connection} {a : Standing} (h : c.pc.standing = a)
    (hne : a ≠ .owning o) : c.owns o = false := by
  rw [Bool.eq_false_iff, ne_eq, owns_iff, h]
  exact hne

theorem Counters.add_one {k : Counters} {o : Owner} (h₀ : 0 ≤ k.count o)
    (h : k.count o + 1 < 2 ^ 31) (o' : Owner) :
    (k.add 1 o).count o' = k.count o' + (oneUnit o o' : Nat) := by
  by_cases ho : o' = o
  · subst ho
    rw [Counters.add_count_self, i32_of_range (by omega) (by omega)]
    simp [oneUnit]
  · simp [Counters.add_count_ne _ _ ho, oneUnit, ho]

theorem Counters.sub_one {k : Counters} {o : Owner} (h₀ : 0 ≤ k.count o)
    (h : k.count o < 2 ^ 31) (o' : Owner) :
    (k.add (-1) o).count o' = k.count o' - (oneUnit o o' : Nat) := by
  by_cases ho : o' = o
  · subst ho
    rw [Counters.add_count_self, i32_of_range (by omega) (by omega)]
    simp only [oneUnit, if_true]
    omega
  · simp [Counters.add_count_ne _ _ ho, oneUnit, ho]

/-- There is room for the unit a worker is about to be granted: it is not counted yet, and with
    it the units are still no more than the connections. -/
theorem Balanced.room {s : State} {i : Nat} {c : Connection} {o : Owner} (hb : Balanced s)
    (hc : s.conns[i]? = some c) (hlive : c.live = true) (ha : c.pc.standing = .asking o) :
    s.payload.counters.count o + 1 < 2 ^ 31 := by
  have hgain := countP_set_gain (p := (·.owns o)) (b := c.goto (.readRelease o)) hc
    (owns_false ha (by simp)) (owns_iff.mpr rfl)
  have hle : (s.conns.set i (c.goto (.readRelease o))).countP (·.owns o) ≤
      (s.conns.set i (c.goto (.readRelease o))).countP (·.live) :=
    List.countP_mono_left fun _ _ h => Connection.live_of_owns h
  have := countP_set_le (p := (·.live)) (b := c.goto (.readRelease o)) hc fun _ => hlive
  have := hb.bounded
  have := hb.counted o
  omega

theorem owners_grant {s : State} {i : Nat} {c c' : Connection} {o : Owner}
    (hc : s.conns[i]? = some c) (ha : c.pc.standing = .asking o)
    (ha' : c'.pc.standing = .owning o) (o' : Owner) :
    (s.conns.set i c').countP (·.owns o') = s.conns.countP (·.owns o') + oneUnit o o' := by
  by_cases ho : o' = o
  · subst ho
    simpa [oneUnit] using
      countP_set_gain (p := (·.owns o')) hc (owns_false ha (by simp)) (owns_iff.mpr ha')
  · rw [countP_set_same hc ((owns_false ha' (by simpa using Ne.symm ho)).trans
        (owns_false ha (by simp)).symm)]
    simp [oneUnit, ho]

theorem owners_giveBack {s : State} {i : Nat} {c c' : Connection} {o : Owner}
    (hc : s.conns[i]? = some c) (ha : c.pc.standing = .owning o)
    (ha' : c'.pc.standing = .returned) (o' : Owner) :
    (s.conns.set i c').countP (·.owns o') + oneUnit o o' = s.conns.countP (·.owns o') := by
  by_cases ho : o' = o
  · subst ho
    simpa [oneUnit] using
      countP_set_lose (p := (·.owns o')) hc (owns_iff.mpr ha) (owns_false ha' (by simp))
  · rw [countP_set_same hc ((owns_false ha' (by simp)).trans
        (owns_false ha (by simpa using Ne.symm ho)).symm)]
    simp [oneUnit, ho]

/-- A worker's step keeps the balance: only inside its own section does it change a counter,
    and only from outside does it take the lock. -/
theorem Balanced.worker {s : State} {i : Nat} {c c' : Connection} {p : Payload}
    (hb : Balanced s) (hc : s.conns[i]? = some c) (hm : Move i s.payload c p c') :
    Balanced { payload := p, conns := s.conns.set i c' } := by
  have hi : i < s.conns.length := (List.getElem?_eq_some_iff.mp hc).1
  have hlive : (s.conns.set i c').countP (·.live) < 2 ^ 31 :=
    lt_of_le_of_lt (countP_set_le hc fun _ => hm.live) hb.bounded
  have hmine := hb.holder i c hc
  -- the holder clause when the lock stays, and the count clause when the counters do
  have hsame : p.ownershipTransition = s.payload.ownershipTransition →
      (c'.pc.stage = .inSection ↔ c.pc.stage = .inSection) →
      ∀ j d, (s.conns.set i c')[j]? = some d →
        (d.pc.stage = .inSection ↔ p.ownershipTransition = some j) := by
    intro hl hs
    rw [hl]
    exact forall_set hc (fun j d _ hd => hb.holder j d hd) (hs.trans hmine)
  have hpresent : p.ownershipTransition = s.payload.ownershipTransition →
      ∀ j, p.ownershipTransition = some j → j < (s.conns.set i c').length := by
    intro hl j hj
    rw [List.length_set]
    exact hb.present j (hl ▸ hj)
  have hcount : p.counters = s.payload.counters → c'.pc.standing.owns = c.pc.standing.owns →
      ∀ o, p.counters.count o = ((s.conns.set i c').countP (·.owns o) : Nat) := by
    intro hk hst o
    rw [hk, hb.counted o, countP_set_same hc (owns_of_standing hst o)]
  cases hm.effect with
  | read hpc hr hk hl hpc' =>
    have hst : c'.pc.standing.owns = c.pc.standing.owns := by
      rw [hpc, hpc']
      rcases standing_dispatch _ with h | ⟨h, _⟩ | ⟨o, h, _⟩ <;> rw [h] <;> rfl
    refine ⟨hsame hl ?_, hpresent hl, hcount hk hst, hlive⟩
    exact iff_of_false (by rw [hpc']; simp) (by simp [hpc, WorkerPc.stage])
  | quiet _ hk hl ht hs => exact ⟨hsame hl hs, hpresent hl, hcount hk ht.owns, hlive⟩
  | enter _ hk hfree hl ht hs hs' =>
    refine ⟨?_, ?_, hcount hk (by rw [ht]), hlive⟩
    · refine forall_set hc (fun j d hj hd => ?_) (by simp [hl, hs'])
      have hno := hb.holder j d hd
      rw [hfree] at hno
      simp [hl, Ne.symm hj, hno]
    · intro j hj
      rw [List.length_set]
      rw [hl, Option.some.injEq] at hj
      exact hj ▸ hi
  | leave hk hl ht hs hs' =>
    refine ⟨?_, ?_, hcount hk ht.owns, hlive⟩
    · refine forall_set hc (fun j d hj hd => ?_) (by simp [hl, hs'])
      have hno := hb.holder j d hd
      rw [hmine.mp hs] at hno
      simp [hl, Ne.symm hj, hno]
    · intro j hj
      simp [hl] at hj
  | grant o hk hl ha ha' hs hs' =>
    refine ⟨hsame hl (by simp [hs, hs']), hpresent hl, fun o' => ?_, hlive⟩
    rw [hk, Counters.add_one (hb.nonneg o) (hb.room hc hm.live ha), hb.counted,
      owners_grant hc ha ha', Nat.cast_add]
  | giveBack o hk hl ha ha' hs hs' =>
    refine ⟨hsame hl (by simp [hs, hs']), hpresent hl, fun o' => ?_, hlive⟩
    rw [hk, Counters.sub_one (hb.nonneg o) (hb.count_lt o), hb.counted,
      ← owners_giveBack hc ha ha' o', Nat.cast_add, add_sub_cancel_right]

theorem Balanced.step {s s' : State} {e : Label} (hb : Balanced s)
    (hs : gate.step s e = some s') : Balanced s' := by
  cases e with
  | worker i ch =>
    obtain ⟨c, p, c', hc, hm, rfl⟩ := step_worker hs
    exact hb.worker hc hm
  | accept h => exact hb.background hs (by simp)
  | client i a => exact hb.background hs (by simp)
  | timer ch => exact hb.background hs (by simp)
  | resolver j ch => exact hb.background hs (by simp)
  | tick ms => exact hb.background hs (by simp)

/-- Every reachable state is balanced. -/
theorem balanced_of_reach {C : State → Label → Prop} {s : State} (hr : gate.ReachUnder C s) :
    Balanced s :=
  ReachUnder.invariant (fun _ h => h ▸ balanced_initial) (fun _ _ _ _ hb _ hs => hb.step hs) hr

/-! ## The ledger's accounts -/

/-- What stands in the ledger about a connection, by its standing. -/
def Ledger.Account (l : Ledger) (i : Nat) : Standing → Prop
  | .fresh => l.taken i = noUnit ∧ l.given i = noUnit ∧ l.first i = none
  | .asking o => l.taken i = noUnit ∧ l.given i = noUnit ∧ l.requested i o.acquireCommand
  | .answered result =>
    l.taken i = noUnit ∧ l.given i = noUnit ∧ (result = .ok → l.requested i .queryStatus)
  | .owning o => l.taken i = oneUnit o ∧ l.given i = noUnit ∧ l.requested i o.acquireCommand
  | .returned =>
    ∃ o, l.taken i = oneUnit o ∧ l.given i = oneUnit o ∧ l.requested i o.acquireCommand
  | .ended => l.given i = l.taken i ∧
    (l.taken i = noUnit ∨ ∃ o, l.taken i = oneUnit o ∧ l.requested i o.acquireCommand)

/-- A turn changes no account. -/
theorem Ledger.Account.turn {l : Ledger} {i : Nat} {a b : Standing} (h : l.Account i a)
    (ht : Turn a b) : l.Account i b := by
  cases ht with
  | same => exact h
  | refused => exact ⟨h.1, h.2.1, by simp⟩
  | answeredEnds => exact ⟨h.2.1.trans h.1.symm, .inl h.1⟩
  | returnedEnds =>
    obtain ⟨o, ht, hg, hr⟩ := h
    exact ⟨hg.trans ht.symm, .inr ⟨o, ht, hr⟩⟩

/-- An account is about what the ledger has under `i`, and nothing else. -/
theorem Ledger.Account.congr {l l' : Ledger} {i : Nat} {a : Standing} (h : l.Account i a)
    (ht : l'.taken i = l.taken i) (hg : l'.given i = l.given i) (hf : l'.first i = l.first i) :
    l'.Account i a := by
  have hreq : ∀ {c}, l.requested i c → l'.requested i c := fun ⟨r, hr⟩ => ⟨r, by rw [hf]; exact hr⟩
  cases a with
  | fresh => exact ⟨ht.trans h.1, hg.trans h.2.1, hf.trans h.2.2⟩
  | asking o => exact ⟨ht.trans h.1, hg.trans h.2.1, hreq h.2.2⟩
  | answered r => exact ⟨ht.trans h.1, hg.trans h.2.1, fun hr => hreq (h.2.2 hr)⟩
  | owning o => exact ⟨ht.trans h.1, hg.trans h.2.1, hreq h.2.2⟩
  | returned =>
    obtain ⟨o, h₁, h₂, h₃⟩ := h
    exact ⟨o, ht.trans h₁, hg.trans h₂, hreq h₃⟩
  | ended =>
    obtain ⟨h₁, h₂⟩ := h
    refine ⟨by rw [ht, hg, h₁], h₂.imp (ht.trans ·) ?_⟩
    intro hm
    obtain ⟨o, h₂, h₃⟩ := hm
    exact ⟨o, ht.trans h₂, hreq h₃⟩

/-- One observed worker step. -/
theorem Ledger.observe_worker_self (l : Ledger) (s s' : State) (i : Nat) (ch : Choice) :
    (l.observe s (.worker i ch) s').taken i = (fun o => l.taken i o +
      (s'.payload.counters.count o - s.payload.counters.count o).toNat) ∧
    (l.observe s (.worker i ch) s').given i = (fun o => l.given i o +
      (-(s'.payload.counters.count o - s.payload.counters.count o)).toNat) ∧
    (l.observe s (.worker i ch) s').first i = (l.first i).or (firstRead s i) := by
  simp [Ledger.observe]

theorem Ledger.Account.observe_other {l : Ledger} {s s' : State} {i j : Nat} {ch : Choice}
    {a : Standing} (h : l.Account j a) (hj : j ≠ i) : (l.observe s (.worker i ch) s').Account j a :=
  h.congr (by simp [Ledger.observe, hj]) (by simp [Ledger.observe, hj])
    (by simp [Ledger.observe, hj])

theorem firstRead_none {s : State} {i : Nat} {c : Connection} (hc : s.conns[i]? = some c)
    (hpc : c.pc ≠ .readRequest) : firstRead s i = none := by
  simp [firstRead, hc, hpc]

/-- The worker's own account after its step. -/
theorem Ledger.Account.observe_self {l : Ledger} {s : State} {i : Nat} {c c' : Connection}
    {p : Payload} {ch : Choice} (hb : Balanced s) (hc : s.conns[i]? = some c)
    (hm : Move i s.payload c p c') (h : l.Account i c.pc.standing) :
    (l.observe s (.worker i ch) { payload := p, conns := s.conns.set i c' }).Account i
      c'.pc.standing := by
  obtain ⟨ht, hg, hf⟩ :=
    Ledger.observe_worker_self l s { payload := p, conns := s.conns.set i c' } i ch
  generalize l.observe s (.worker i ch) { payload := p, conns := s.conns.set i c' } = l' at *
  have hstill : p.counters = s.payload.counters → l'.taken i = l.taken i ∧ l'.given i = l.given i := by
    intro hk
    rw [ht, hg, hk]
    simp
  have hfirst : c.pc ≠ .readRequest → l'.first i = l.first i := by
    intro hpc
    rw [hf, firstRead_none hc hpc, Option.or_none]
  -- only `grant` and `giveBack` move a unit; every other step leaves what was taken and given
  cases hm.effect with
  | @read r c₁ hpc hr hk hl hpc' =>
    obtain ⟨hst, hsg⟩ := hstill hk
    rw [hpc] at h
    obtain ⟨h₁, h₂, h₃⟩ := h
    have hfirst : l'.first i = some r := by
      rw [hf, h₃]
      simp [firstRead, hc, hpc, hr]
    rw [hpc']
    rcases standing_dispatch r with hd | ⟨hd, hv, hcmd⟩ | ⟨o, hd, hv, hcmd⟩
    · rw [hd]
      exact ⟨hst.trans h₁, hsg.trans h₂, by simp⟩
    · rw [hd]
      exact ⟨hst.trans h₁, hsg.trans h₂, fun _ => ⟨_, hfirst, hv, hcmd⟩⟩
    · rw [hd]
      exact ⟨hst.trans h₁, hsg.trans h₂, _, hfirst, hv, hcmd⟩
  | quiet hpc hk hl htn hs =>
    exact (h.turn htn).congr (hstill hk).1 (hstill hk).2 (hfirst hpc)
  | enter hpc hk hfree hl htn hs hs' =>
    exact (htn ▸ h : l.Account i c'.pc.standing).congr (hstill hk).1 (hstill hk).2 (hfirst hpc)
  | leave hk hl htn hs hs' =>
    refine (h.turn htn).congr (hstill hk).1 (hstill hk).2 (hfirst ?_)
    rintro hpc
    simp [hpc, WorkerPc.stage] at hs
  | grant o hk hl ha ha' hs hs' =>
    rw [ha] at h
    rw [ha']
    obtain ⟨h₁, h₂, r, hr⟩ := h
    -- the counter gains exactly one, which `Balanced` says does not wrap
    have hchange : ∀ o', p.counters.count o' - s.payload.counters.count o' = (oneUnit o o' : Nat) := by
      intro o'
      rw [hk, Counters.add_one (hb.nonneg o) (hb.room hc hm.live ha)]
      omega
    refine ⟨?_, ?_, r, ?_, hr.2⟩
    · rw [ht, h₁]
      funext o'
      simp [hchange, noUnit]
    · rw [hg, h₂]
      funext o'
      simp [hchange, noUnit]
    · rw [hf, hr.1, Option.some_or]
  | giveBack o hk hl ha ha' hs hs' =>
    rw [ha] at h
    rw [ha']
    obtain ⟨h₁, h₂, r, hr⟩ := h
    have hchange : ∀ o', p.counters.count o' - s.payload.counters.count o' = -(oneUnit o o' : Nat) := by
      intro o'
      rw [hk, Counters.sub_one (hb.nonneg o) (hb.count_lt o)]
      omega
    refine ⟨o, ?_, ?_, r, ?_, hr.2⟩
    · rw [ht, h₁]
      funext o'
      simp [hchange]
    · rw [hg, h₂]
      funext o'
      simp [hchange, noUnit]
    · rw [hf, hr.1, Option.some_or]

/-- The ledger of a run accounts for every connection by its standing. -/
theorem accounted_of_reach {C : State → Label → Prop} {s : State} {l : Ledger}
    (hr : (gate.observed .empty Ledger.observe).ReachUnder (fun q e => C q.1 e) (s, l)) :
    ∀ i, l.Account i (s.standing i) := by
  refine observed_invariant (I := fun s l => ∀ i, l.Account i (s.standing i)) ?_ ?_ hr
  · rintro s rfl i
    exact ⟨rfl, rfl, rfl⟩
  intro s l e s' hr ih _ hs j
  by_cases hw : ∀ i ch, e ≠ .worker i ch
  · rw [State.standing, pc_background hs hw]
    cases e with
    | worker i ch => exact absurd rfl (hw i ch)
    | _ => exact ih j
  · simp only [not_forall, not_not] at hw
    obtain ⟨i, ch, rfl⟩ := hw
    obtain ⟨c, p, c', hc, hm, rfl⟩ := step_worker hs
    by_cases hj : j = i
    · subst hj
      have h := ih j
      rw [State.standing, pc_eq hc] at h
      rw [State.standing, pc_set_self hc]
      exact h.observe_self (balanced_of_reach hr) hc hm
    · rw [State.standing, pc_set_ne hj]
      exact (ih j).observe_other hj

end Gate
end SteamInputLease
