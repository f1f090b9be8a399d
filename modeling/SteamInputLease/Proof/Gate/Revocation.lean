import SteamInputLease.Gate.Revocation
import SteamInputLease.Proof.Gate.Notify
import SteamInputLease.Proof.Gate.Sweep

/-!
# What a sweep leaves open

Between the snapshot of a sweep and the end of blocking no detoured open gets past its check, so the
handles a sweep has to close are the ones its snapshot has, if no open was under way when the
snapshot was taken (`Leftover`). An open that was under way then is in no snapshot, and nothing
closes its handle (`open_survives_sweep`).

`Leftover` is the loop invariant of the sweep: the HID handles that a detoured open gave and that
are open are among the entries still to be swept. Each entry takes its own handle out of that, and
any other step can only close handles or open them past the detours; at the end the list is empty.
That opens stay away rests on `blocking()` alone, which the workers' sections keep on. A sweep here
is one step of the system for each entry, while the source makes a dozen calls there. The last part
of the file is the bridge: with the kernel's answers for the entry, the calls of a round leave the
table that the step leaves, so that the sweep of `Sweep` and the sweep of this file are the same.
-/

namespace SteamInputLease
namespace Gate

open Lib Lib.System Protocol

/-- Blocking is on, no detoured open is under way, and the HID handles such opens gave are among
    the values of `l`. -/
structure Leftover (s : SteamState) (l : List UInt64) : Prop where
  blocking : s.gate.blocking = true
  openings : s.openings = 0
  listed : ∀ h o, s.kernel.find h = some o → o.kind = .hid → o.detoured = true → h ∈ l

structure Sweeping (s : SteamState) (swept : Bool) : Prop where
  reached : gate.Reach s.gate
  running : ∀ i l, s.sweep = some (i, l) → (s.gate.pc i).sweeping = true ∧ Leftover s l
  swept : swept = true → Leftover s []

/-! ## The handles -/

section

variable {s : SteamState} {l : List UInt64} {h : UInt64} {k : Kernel} {t : HandleTable}

/-- Handles may close, and open by other ways than the detours. -/
theorem Leftover.kernel (hl : Leftover s l)
    (hk : ∀ v o, k.find v = some o → s.kernel.find v = some o ∨ o.detoured = false) :
    Leftover { s with kernel := k, table := t } l := by
  refine ⟨hl.blocking, hl.openings, fun v o ho hhid hd => ?_⟩
  rcases hk v o ho with ho | hn
  · exact hl.listed v o ho hhid hd
  · rw [hn] at hd
    cases hd

theorem Leftover.mono (hl : Leftover s l) {l' : List UInt64} (h : ∀ v ∈ l, v ∈ l') :
    Leftover s l' :=
  ⟨hl.blocking, hl.openings, fun v o ho hhid hd => h v (hl.listed v o ho hhid hd)⟩

theorem Leftover.resweep (hl : Leftover s l) {w : Option (Nat × List UInt64)} :
    Leftover { s with sweep := w } l :=
  ⟨hl.blocking, hl.openings, hl.listed⟩

theorem find_close_some {v : UInt64} {o : OpenHandle} (ho : (k.close h).find v = some o) :
    v ≠ h ∧ k.find v = some o := by
  rw [find_close] at ho
  split at ho
  · cases ho
  · next hv => exact ⟨hv, ho⟩

/-- The sweep at an entry closes it if it is a HID handle. -/
theorem Leftover.revoke (hl : Leftover s (h :: l)) : Leftover (s.revoke h) l := by
  have htail : (∀ o, s.kernel.find h = some o → o.kind ≠ .hid) → Leftover s l := by
    intro hno
    refine ⟨hl.blocking, hl.openings, fun v o ho hhid hd => ?_⟩
    rcases List.mem_cons.mp (hl.listed v o ho hhid hd) with rfl | hv
    · exact absurd hhid (hno o ho)
    · exact hv
  simp only [SteamState.revoke, Kernel.settle]
  split
  · by_cases hhid : s.kernel.probeFileHandle h = .hid
    · simp only [if_pos hhid]
      refine ⟨hl.blocking, hl.openings, fun v o ho hk hd => ?_⟩
      obtain ⟨hv, ho⟩ := find_close_some ho
      exact (List.mem_cons.mp (hl.listed v o ho hk hd)).resolve_left hv
    · simp only [if_neg hhid]
      exact (htail fun o ho hk => hhid (probeFileHandle_hid.mpr ⟨o, ho, hk⟩)).kernel
        fun v o ho => .inl ho
  · next hfile =>
    refine htail fun o ho hk => hfile ?_
    rw [Kernel.isFileObject, ho, Option.any_some, hk]
    rfl

theorem revoke_gate : (s.revoke h).gate = s.gate := by
  rw [SteamState.revoke]
  split <;> rfl

/-- The snapshot has every open handle. -/
theorem mem_snapshot {v : UInt64} {o : OpenHandle} (ho : k.find v = some o) :
    v ∈ k.handles.map (·.value) := by
  have := List.find?_some ho
  exact List.mem_map.mpr ⟨o, List.mem_of_find?_eq_some ho, by simpa using this⟩

end

/-! ## Runs -/

/-- A step of the payload leaves a running sweep running, except the one that ends it. -/
theorem sweeping_step {g g' : State} {e : Label} {i : Nat}
    (hs : gate.step g e = some g') (hi : (g.pc i).sweeping = true)
    (he : endsSweep g e = false) : (g'.pc i).sweeping = true := by
  cases e with
  | worker j ch =>
    obtain ⟨c, p, c', hc, hm, rfl⟩ := step_worker hs
    have hji : i ≠ j := by
      rintro rfl
      rw [endsSweep, hi] at he
      cases he
    rwa [pc_set_ne hji]
  | _ => rwa [pc_background hs (by simp)]

theorem Sweeping.gateStep {s : SteamState} {swept : Bool} {e : Label} {g : State}
    (hw : Sweeping s swept) (hs : gate.step s.gate e = some g) (he : endsSweep s.gate e = false) :
    Sweeping { s with gate := g } (swept && g.blocking) := by
  refine ⟨hw.reached.next hs, ?_, ?_⟩
  · intro i l hil
    obtain ⟨hi, hl⟩ := hw.running i l hil
    have hi' := sweeping_step hs hi he
    exact ⟨hi', sweeping_blocking (hw.reached.next hs) hi', hl.openings, hl.listed⟩
  · intro hb
    rw [Bool.and_eq_true] at hb
    have hl := hw.swept hb.1
    exact ⟨hb.2, hl.openings, hl.listed⟩

theorem Sweeping.endStep {s : SteamState} {swept : Bool} {e : Label} {g : State} {i : Nat}
    (hw : Sweeping s swept) (hs : gate.step s.gate e = some g) (hi : s.sweep = some (i, [])) :
    Sweeping { s with gate := g, sweep := none } g.blocking := by
  refine ⟨hw.reached.next hs, fun i l h => (by cases h), fun hb => ?_⟩
  obtain ⟨_, hl⟩ := hw.running i [] hi
  exact ⟨hb, hl.openings, hl.listed⟩

/-- A step that is none of the payload keeps what is said of the handles, if it keeps it for
    every list. -/
theorem Sweeping.handles {s s' : SteamState} {swept : Bool} (hw : Sweeping s swept)
    (hg : s'.gate = s.gate) (hsweep : s'.sweep = s.sweep)
    (hl : ∀ l, Leftover s l → Leftover s' l) : Sweeping s' swept := by
  refine ⟨hg ▸ hw.reached, ?_, fun hb => hl [] (hw.swept hb)⟩
  intro i l hil
  obtain ⟨hi, h⟩ := hw.running i l (hsweep ▸ hil)
  exact ⟨hg ▸ hi, hl l h⟩

theorem Sweeping.step {s s' : SteamState} {swept : Bool} {e : SteamLabel} (hw : Sweeping s swept)
    (hc : sweepUndisturbed s e = true) (hs : steam.step s e = some s') :
    Sweeping s' (sweptObserve swept s e s') := by
  cases e with
  | gate e =>
    simp only [steam, steamStep] at hs
    split at hs
    -- the payload's own step; one that ends a sweep comes only when its list is empty
    · next he =>
      split at hs
      · next i hi =>
        obtain ⟨g, hg, rfl⟩ := Option.map_eq_some_iff.mp hs
        rw [sweptObserve, he, Bool.or_true, Bool.true_and]
        exact hw.endStep hg hi
      · cases hs
    · next he =>
      rw [Bool.not_eq_true] at he
      obtain ⟨g, hg, rfl⟩ := Option.map_eq_some_iff.mp hs
      rw [sweptObserve, he, Bool.or_false]
      exact hw.gateStep hg he
  | openCheck =>
    simp only [steam, steamStep] at hs
    split at hs
    · cases hs
    split at hs
    · cases hs
      exact hw
    · next hb =>
      cases hs
      -- an open that saw no block started without one, so nothing is left over to speak of
      refine hw.handles rfl rfl fun l hl => ?_
      exact absurd hl.blocking hb
  | openDone h =>
    simp only [steam, steamStep] at hs
    split at hs
    · cases hs
    next ho =>
    obtain ⟨k, _, rfl⟩ := Option.map_eq_some_iff.mp hs
    exact hw.handles rfl rfl fun l hl => absurd hl.openings ho
  | openFails =>
    simp only [steam, steamStep] at hs
    split at hs
    · cases hs
    next ho =>
    cases hs
    exact hw.handles rfl rfl fun l hl => absurd hl.openings ho
  | openOther h kind =>
    obtain ⟨k, hk, rfl⟩ := Option.map_eq_some_iff.mp hs
    -- what is opened past the detours is not the sweep's to close
    obtain ⟨_, _, _, hd, hk⟩ := find_create hk
    refine hw.handles rfl rfl fun l hl => hl.kernel fun v o ho => ?_
    by_cases hv : v = h
    · rw [← hv, ho, Option.map_some, Option.some.injEq] at hd
      exact .inr hd
    · exact .inl (hk v hv ▸ ho)
  | close h =>
    cases hs
    exact hw.handles rfl rfl fun l hl => hl.kernel fun v o ho => .inl (find_close_some ho).2
  | snapshot i =>
    simp only [steam, steamStep] at hs
    split at hs
    · next hi =>
      cases hs
      rw [Bool.and_eq_true] at hi
      refine ⟨hw.reached, ?_, fun hb => (hw.swept hb).resweep⟩
      intro j l hjl
      cases hjl
      refine ⟨hi.1, sweeping_blocking hw.reached hi.1, by simpa [sweepUndisturbed] using hc, ?_⟩
      -- no open is under way when the snapshot is taken, so it lists all there is to close
      exact fun v o ho _ _ => mem_snapshot ho
    · cases hs
  | sweepEntry =>
    simp only [steam, steamStep] at hs
    split at hs
    · next i h rest hsweep =>
      cases hs
      obtain ⟨hi, hl⟩ := hw.running i _ hsweep
      have hg := revoke_gate (s := s) (h := h)
      refine ⟨show gate.Reach (s.revoke h).gate from hg ▸ hw.reached, ?_, ?_⟩
      · intro j l hjl
        cases hjl
        exact ⟨show ((s.revoke h).gate.pc i).sweeping = true from hg ▸ hi, hl.revoke.resweep⟩
      -- a sweep that runs once another has ended only closes handles
      · intro hb
        exact ((hw.swept hb).mono fun v hv => absurd hv List.not_mem_nil).revoke.resweep
    · cases hs

/-- **No controller handle survives into a block.** From the end of the sweep of the worker that
    turned blocking on until blocking ends, no HID handle is open that a detoured open gave. -/
theorem no_detoured_handle {s : SteamState}
    (hr : (steam.observed false sweptObserve).ReachUnder
      (fun q e => sweepUndisturbed q.1 e = true) (s, true)) :
    ∀ h o, s.kernel.find h = some o → o.kind = .hid → o.detoured = false := by
  have hw : Sweeping s true := by
    refine observed_invariant (C := fun s e => sweepUndisturbed s e = true) ?_ ?_ hr
    · rintro s rfl
      exact ⟨.init rfl, fun i l h => (by cases h), fun h => (by cases h)⟩
    · intro s swept e s' _ hw hc hs
      exact hw.step hc hs
  intro h o ho hk
  by_contra hd
  rw [Bool.not_eq_false] at hd
  exact absurd ((hw.swept rfl).listed h o ho hk hd) List.not_mem_nil

/-- A raw client asks for a lease, and the hooks are installed. -/
def leaseAsked : List SteamLabel :=
  [.gate (.accept .raw), .gate (.client 0 (.send (Request.new .acquireLease).toBytes)),
    .gate (.worker 0 .go), .gate (.worker 0 (.install true false))]

/-- Its worker takes the lease, sweeps the entries its snapshot has, and goes on. -/
def leaseSwept (entries : Nat) : List SteamLabel :=
  .replicate 3 (.gate (.worker 0 .go)) ++ [.snapshot 0] ++ .replicate entries .sweepEntry
  ++ [.gate (.worker 0 .go)]

/-- A controller that a detour opened before the lease is closed by its sweep. -/
theorem no_detoured_handle_swept : ∃ s, (steam.observed false sweptObserve).ReachUnder
      (fun q e => sweepUndisturbed q.1 e = true) (s, true) ∧
    ∀ h o, s.kernel.find h = some o → o.kind = .hid → o.detoured = false := by
  obtain ⟨⟨s, b⟩, hr, hp⟩ := exists_reachUnder_of_exec (T := steam.observed false sweptObserve)
    (s := (.initial, false)) (fun q e => sweepUndisturbed q.1 e)
    (leaseAsked ++ [SteamLabel.openCheck, .openDone 0x124, .openOther 0x128 .file] ++ leaseSwept 2)
    (fun p => p.2) ⟨rfl, rfl⟩ (by decide)
  cases hp
  exact ⟨s, hr, no_detoured_handle hr⟩

/-- The open asks before the lease is counted and opens after the sweep: Steam keeps the
    controller through the block. -/
theorem open_survives_sweep :
    ¬∀ s, (steam.observed false sweptObserve).Reach (s, true) →
      ∀ h o, s.kernel.find h = some o → o.kind = .hid → o.detoured = false := by
  intro hall
  obtain ⟨⟨s, b⟩, hr, hp⟩ := exists_reach_of_exec (T := steam.observed false sweptObserve)
    (s := (.initial, false))
    (leaseAsked ++ [SteamLabel.openCheck] ++ leaseSwept 0 ++ [SteamLabel.openDone 0x124])
    (fun p => p.2 && (p.1.kernel.find 0x124).any fun o => o.kind == .hid && o.detoured)
    ⟨rfl, rfl⟩ (by decide)
  simp only [Bool.and_eq_true] at hp
  obtain ⟨rfl, hk⟩ := hp
  cases ho : s.kernel.find 0x124 with
  | none =>
    rw [ho] at hk
    cases hk
  | some o =>
    rw [ho, Option.any_some, Bool.and_eq_true, beq_iff_eq] at hk
    have := hall s hr _ o ho hk.1
    rw [hk.2] at this
    cases this

/-! ## The entries, call by call

An entry is one step of `steam`. The calls of its round make up that step, as long as nothing else
happens to the handles in between. -/

/-- The table that the sweep works on is a sound one. -/
theorem tracked_of_steam {s : SteamState} (hr : steam.Reach s) : Tracked s.table := by
  refine ReachUnder.invariant (I := fun s : SteamState => Tracked s.table) ?_ ?_ hr
  · rintro s rfl
    exact tracked_initial
  intro s e s' _ ht _ hs
  cases e with
  | gate e =>
    simp only [steam, steamStep] at hs
    split at hs
    · split at hs
      · obtain ⟨g, _, rfl⟩ := Option.map_eq_some_iff.mp hs
        exact ht
      · cases hs
    · obtain ⟨g, _, rfl⟩ := Option.map_eq_some_iff.mp hs
      exact ht
  | openCheck =>
    simp only [steam, steamStep] at hs
    split at hs
    · cases hs
    split at hs <;> cases hs <;> exact ht
  | openDone h =>
    simp only [steam, steamStep] at hs
    split at hs
    · cases hs
    obtain ⟨k, _, rfl⟩ := Option.map_eq_some_iff.mp hs
    exact (ht.remember h .hid).1
  | openFails =>
    simp only [steam, steamStep] at hs
    split at hs <;> cases hs
    exact ht
  | openOther h kind =>
    obtain ⟨k, _, rfl⟩ := Option.map_eq_some_iff.mp hs
    exact ht
  | close h =>
    cases hs
    exact ht.forget.1
  | snapshot i =>
    simp only [steam, steamStep] at hs
    split at hs <;> cases hs
    exact ht
  | sweepEntry =>
    simp only [steam, steamStep] at hs
    split at hs
    · next i h rest _ =>
      cases hs
      show Tracked (s.revoke h).table
      rw [SteamState.revoke]
      split
      · -- an entry is remembered and may then be forgotten; both keep the table sound
        simp only [Kernel.settle]
        split
        · exact (ht.remember h _).1.forget.1
        · exact (ht.remember h _).1
      · exact ht
    · cases hs

section

variable {fileIndex : UInt32} {w : Sweep} {a : SweepAttempt} {s : SteamState}

theorem revoke_resweep {l : Option (Nat × List UInt64)} {h : UInt64} :
    ({ s with sweep := l } : SteamState).revoke h = { s.revoke h with sweep := l } := by
  simp only [SteamState.revoke]
  split <;> rfl

theorem EntriesMirror.resweep {l : Option (Nat × List UInt64)} :
    ∀ {entries : List SweepAttempt} {s : SteamState}, EntriesMirror fileIndex s entries →
      EntriesMirror fileIndex { s with sweep := l } entries
  | [], _, _ => trivial
  | _ :: _, _, h => ⟨h.1, revoke_resweep (l := l) ▸ h.2.resweep⟩

/-- One round leaves the table that one step of `steam` leaves. -/
theorem sweepEntry_revoke (hw : w.Kept fileIndex) (ht : w.table = s.table)
    (ha : a.Mirrors fileIndex s.kernel) :
    (sweepEntry w a).table = (s.revoke a.handle).table := by
  cases hfind : s.kernel.find a.handle with
  | none =>
    have hfile : s.kernel.isFileObject a.handle = false := by
      rw [Kernel.isFileObject, hfind]
      rfl
    rw [sweepEntry, ha.closed hfind, SteamState.revoke, hfile]
    exact ht
  | some o =>
    obtain ⟨hkind, hdup, hfirst, hsecond, -⟩ := ha.opened o hfind
    obtain ⟨d, hd⟩ := Option.isSome_iff_exists.mp hdup
    have hpinned : a.pinned = true := by
      rw [SweepAttempt.pinned, hdup, hfirst]
      rfl
    rw [sweepEntry_settle hfind hkind hd hfirst hsecond (ha.answered hpinned) (ha.index hpinned)
      hw.index, SteamState.revoke, ht]
    split <;> rfl

/-- The sweep at an entry closes it if it is a HID handle, and no other. -/
theorem find_revoke {h v : UInt64} : (s.revoke h).kernel.find v =
    if v = h ∧ s.kernel.probeFileHandle h = .hid then none else s.kernel.find v := by
  by_cases hhid : s.kernel.probeFileHandle h = .hid
  · obtain ⟨o, ho, hkind⟩ := probeFileHandle_hid.mp hhid
    have hfile : s.kernel.isFileObject h = true := by
      rw [Kernel.isFileObject, ho, Option.any_some, hkind]
      rfl
    simp only [SteamState.revoke, hfile, if_true, Kernel.settle, hhid, and_true]
    exact find_close
  · rw [if_neg fun h => hhid h.2, SteamState.revoke]
    split
    · simp only [Kernel.settle, if_neg hhid]
    · rfl

/-- One round closes what one step of `steam` closes. -/
theorem EntryShows.closes {new : List SweepEvent} {table : HandleTable} {v : UInt64}
    (hshows : EntryShows a new table) (ha : a.Mirrors fileIndex s.kernel) :
    v ∈ new.filterMap SweepEvent.closes ↔
      v = a.handle ∧ s.kernel.probeFileHandle a.handle = .hid := by
  rw [List.mem_filterMap, probeFileHandle_hid]
  constructor
  · rintro ⟨e, he, hcloses⟩
    cases e with
    | closedOriginal h status =>
      obtain ⟨rfl, -, -, hhid, -⟩ := hshows.closed h status he
      obtain ⟨-, hv⟩ := Option.ite_none_right_eq_some.mp hcloses
      cases hfind : s.kernel.find a.handle with
      | none =>
        -- what cannot be duplicated is not closed
        rcases hshows.balanced with ⟨-, rfl⟩ | ⟨d, middle, hd, -⟩
        · cases he
        · rw [ha.closed hfind] at hd
          cases hd
      | some o => exact ⟨(Option.some.inj hv).symm, o, rfl, (ha.opened o hfind).1 ▸ hhid⟩
    | _ => cases hcloses
  · rintro ⟨rfl, o, hfind, hhid⟩
    obtain ⟨hkind, hdup, hfirst, hsecond, hstatus⟩ := ha.opened o hfind
    exact ⟨_, hshows.revoked hdup hfirst hsecond (hkind.trans hhid), if_pos hstatus⟩

/-- The loop over the entries is a run of `steam` through them, which closes what the rest of the
    loop closes. -/
theorem sweepLoop_runs {i : Nat} {k : Kernel} : ∀ {entries : List SweepAttempt} {s : SteamState}
    {w : Sweep}, w.Kept fileIndex → w.table = s.table →
    (∀ v, s.kernel.find v = if v ∈ w.closes then none else k.find v) →
    EntriesMirror fileIndex s entries → s.sweep = some (i, entries.map (·.handle)) →
    ∃ s', steam.exec s (entries.map fun _ => SteamLabel.sweepEntry) = some s' ∧
      s'.sweep = some (i, []) ∧ s'.table = (sweepLoop entries w).table ∧
      ∀ v, s'.kernel.find v = if v ∈ (sweepLoop entries w).closes then none else k.find v := by
  intro entries
  induction entries with
  | nil =>
    intro s w _ ht hk _ hi
    exact ⟨s, rfl, hi, ht.symm, hk⟩
  | cons a rest ih =>
    intro s w hw ht hk hm hi
    obtain ⟨new, hkept, hlog, hshows, -⟩ := hw.round hm.1.answered hm.1.index
    have hstep : steam.step s .sweepEntry =
        some { s.revoke a.handle with sweep := some (i, rest.map (·.handle)) } := by
      show steamStep s .sweepEntry = _
      rw [steamStep, hi]
      rfl
    have hrest := hm.2.resweep (l := some (i, rest.map (·.handle)))
    have htable : (sweepEntry w a).table = ({ s.revoke a.handle with
        sweep := some (i, rest.map (·.handle)) } : SteamState).table := sweepEntry_revoke hw ht hm.1
    -- the round closes its entry just where the kernel has a HID device open there
    have hcloses : ∀ v, v ∈ (sweepEntry w a).closes ↔
        v ∈ w.closes ∨ v = a.handle ∧ s.kernel.probeFileHandle a.handle = .hid := by
      intro v
      rw [Sweep.closes, hlog, List.filterMap_append, List.mem_append, hshows.closes hm.1]
      exact Iff.rfl
    have hclosed : ∀ v, (s.revoke a.handle).kernel.find v =
        if v ∈ (sweepEntry w a).closes then none else k.find v := by
      intro v
      rw [find_revoke, hk]
      by_cases hold : v ∈ w.closes
      · rw [if_pos hold, if_pos ((hcloses v).mpr (.inl hold)), ite_self]
      · rw [if_neg hold]
        exact if_congr ((hcloses v).trans (or_iff_right hold)).symm rfl rfl
    obtain ⟨s', hexec, hend, htable, hclosed⟩ := ih hkept htable hclosed hrest rfl
    refine ⟨s', ?_, hend, htable, hclosed⟩
    rw [List.map_cons, System.exec, hstep]
    exact hexec

/-- **The sweep of `steam` is the sweep of the source**: where Windows answers by the handles that
    are open, the steps of `steam` through the entries of a snapshot leave the table that
    `discover_and_revoke_hid_handles` leaves, and close the handles that its log closes. -/
theorem sweep_simulated {i : Nat} {entries : List SweepAttempt} (hr : steam.Reach s)
    (hm : EntriesMirror fileIndex s entries) (hi : s.sweep = some (i, entries.map (·.handle))) :
    ∃ s', steam.exec s (entries.map fun _ => SteamLabel.sweepEntry) = some s' ∧
      s'.sweep = some (i, []) ∧
      s'.table = (discoverAndRevokeHidHandles s.table (some entries)).table ∧
      ∀ v, s'.kernel.find v =
        if v ∈ (discoverAndRevokeHidHandles s.table (some entries)).closes then none
        else s.kernel.find v :=
  sweepLoop_runs (.start (tracked_of_steam hr)) rfl (fun _ => (if_neg List.not_mem_nil).symm) hm hi

end

/-- The lease's worker sweeps one controller, which Steam has open. -/
theorem sweep_simulated_hid : ∃ s s', steam.Reach s ∧
    steam.exec s [SteamLabel.sweepEntry] = some s' ∧ s'.sweep = some (0, []) ∧
    s'.table = (discoverAndRevokeHidHandles s.table (some [hidEntry])).table ∧
    ∀ v, s'.kernel.find v =
      if v ∈ (discoverAndRevokeHidHandles s.table (some [hidEntry])).closes then none
      else s.kernel.find v := by
  obtain ⟨s, hr, hp⟩ := exists_reach_of_exec (T := steam) (s := .initial)
    (leaseAsked ++ [SteamLabel.openCheck, .openDone 0x128]
      ++ .replicate 3 (.gate (.worker 0 .go)) ++ [.snapshot 0])
    (fun s => s.sweep == some (0, [0x128]) && (s.kernel.find 0x128).any (·.kind == .hid))
    rfl (by decide)
  simp only [Bool.and_eq_true, beq_iff_eq] at hp
  obtain ⟨hi, hk⟩ := hp
  obtain ⟨o, ho, hkind⟩ := Option.any_eq_true _ _ |>.mp hk
  have hopen : s.kernel.find hidEntry.handle = some o := ho
  have hm : hidEntry.Mirrors 37 s.kernel := by
    refine ⟨fun h => ?_, fun o' h => ?_, fourEntries_answered hidEntry (by simp [fourEntries]),
      by decide⟩
    · rw [hopen] at h
      cases h
    · rw [hopen] at h
      cases h
      exact ⟨(beq_iff_eq.mp hkind).symm, rfl, rfl, rfl, by decide⟩
  have hmirror : EntriesMirror 37 s [hidEntry] := ⟨hm, trivial⟩
  obtain ⟨s', hexec, hend, htable, hclosed⟩ := sweep_simulated hr hmirror hi
  exact ⟨s, s', hr, hexec, hend, htable, hclosed⟩

end Gate
end SteamInputLease
