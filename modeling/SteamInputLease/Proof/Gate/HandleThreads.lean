import SteamInputLease.Gate.HandleThreads
import SteamInputLease.Proof.Gate.HandleTable

/-!
# Stale classifications

`classify_handle` takes no barrier between its probe and its remember, and `nt_close_detour` none
against a remember between its forget and its close, so a class can outlive its handle and meet
another object under the same value (`stale_class`). What `handleUndisturbed` asks is that neither
happens; then every handle classified `Hid` is open, on a HID device (`Current`).

The condition is put on a step and the state before it: no thread remembers a class that the handle
has lost since its probe, and none closes a handle that was remembered again since it was forgotten.
`Current` speaks of the table and the kernel at once, and a value counts for it as long as it is
classified `Hid`, so the operations of the kernel on all other values leave it alone. The sweep is
no exception: it closes an original and forgets it under the barrier, as the detour does.
-/

namespace SteamInputLease
namespace Gate

open Lib Lib.System

/-- A handle classified `Hid` is open on a HID device. -/
structure Current (s : HandleState) : Prop where
  tracked : Tracked s.table
  hid : ∀ h, s.table.map h = some .hid → ∃ o, s.kernel.find h = some o ∧ o.kind = .hid

/-! ## What the operations do to it -/

section

variable {s : HandleState} {h : UInt64} {c : HandleClass} {k : Kernel}

theorem Current.threads (hc : Current s) {b : Bool} {ts : List HandlePc} :
    Current { s with blocking := b, threads := ts } :=
  ⟨hc.tracked, hc.hid⟩

theorem Current.remember (hc : Current s)
    (hhid : c = .hid → ∃ o, s.kernel.find h = some o ∧ o.kind = .hid) :
    Current { s with table := s.table.rememberHandle h c } := by
  obtain ⟨ht, hmap⟩ := hc.tracked.remember h c
  refine ⟨ht, fun v hv => ?_⟩
  simp only [hmap] at hv
  split at hv
  · exact hc.hid v hv
  · by_cases hvh : v = h
    · subst hvh
      rw [Function.update_self, Option.some.injEq] at hv
      exact hhid hv
    · rw [Function.update_of_ne hvh] at hv
      exact hc.hid v hv

/-- A value that is forgotten may be opened and closed. -/
theorem Current.erase (hc : Current s) {t : HandleTable} (ht : Tracked t)
    (hmap : t.map = Function.update s.table.map h none)
    (hk : ∀ v, v ≠ h → k.find v = s.kernel.find v) :
    Current { s with table := t, kernel := k } := by
  refine ⟨ht, fun v hv => ?_⟩
  simp only [hmap] at hv
  by_cases hvh : v = h
  · rw [hvh, Function.update_self] at hv
    cases hv
  · rw [Function.update_of_ne hvh] at hv
    obtain ⟨o, ho⟩ := hc.hid v hv
    exact ⟨o, (hk v hvh).trans ho.1, ho.2⟩

/-- Values that are not `Hid` may be opened and closed. -/
theorem Current.kernel (hc : Current s) (hno : s.table.map h ≠ some .hid)
    (hk : ∀ v, v ≠ h → k.find v = s.kernel.find v) : Current { s with kernel := k } := by
  refine ⟨hc.tracked, fun v hv => ?_⟩
  have hvh : v ≠ h := fun e => hno (e ▸ hv)
  obtain ⟨o, ho⟩ := hc.hid v hv
  exact ⟨o, (hk v hvh).trans ho.1, ho.2⟩

theorem Current.not_open (hc : Current s) (hn : s.kernel.find h = none) :
    s.table.map h ≠ some .hid := by
  intro hm
  obtain ⟨o, ho, _⟩ := hc.hid h hm
  rw [hn] at ho
  cases ho

theorem Current.close (hc : Current s) (hno : s.table.lookupHandle h ≠ .hid) :
    Current { s with kernel := s.kernel.close h } :=
  hc.kernel (mt hc.tracked.lookup_hid.mpr hno) fun _ hv => find_close.trans (if_neg hv)

/-- The sweep forgets the handle it closes, whatever it remembered it as. -/
theorem Current.verify (hc : Current s) {d : UInt64} : Current (s.verify h d c) := by
  simp only [HandleState.verify, Kernel.settle]
  split
  · by_cases hhid : c = .hid
    · obtain ⟨ht, hremember⟩ := hc.tracked.remember h c
      obtain ⟨ht', hforget⟩ := ht.forget (h := h)
      simp only [if_pos hhid]
      refine hc.erase ht' ?_ fun v hv => find_close.trans (if_neg hv)
      rw [hforget, hremember]
      split
      · rfl
      · rw [Function.update_idem]
    · simp only [if_neg hhid]
      exact hc.remember fun h => absurd h hhid
  · exact hc

end

/-! ## Runs -/

theorem Current.threadStep {s s' : HandleState} {i : Nat} {pc : HandlePc} (hc : Current s)
    (hi : s.threads[i]? = some pc) (hu : handleUndisturbed s (.thread i) = true)
    (hs : handleThreadStep s i pc = some s') : Current s' := by
  rw [handleUndisturbed, hi] at hu
  cases pc with
  | probing h =>
    cases hs
    exact hc.threads
  | remembering h c =>
    cases hs
    refine (hc.remember (h := h) (c := c) fun hhid => ?_).threads
    subst hhid
    exact probeFileHandle_hid.mp (by simpa using hu)
  | closing h =>
    cases hs
    exact (hc.close (by simpa using hu)).threads
  | pinned h d =>
    rw [handleThreadStep] at hs
    split at hs <;> cases hs <;> exact hc.threads
  | verifying h d c =>
    rw [handleThreadStep] at hs
    split at hs
    · cases hs
      exact hc.verify.threads
    · cases hs
  | unpinning d =>
    cases hs
    exact (hc.close (by simpa using hu)).threads
  | finished => cases hs

theorem Current.step {s s' : HandleState} {e : HandleLabel} (hc : Current s)
    (hu : handleUndisturbed s e = true) (hs : handleThreads.step s e = some s') : Current s' := by
  cases e with
  | setBlocking b =>
    cases hs
    exact hc.threads
  | openHid h =>
    simp only [handleThreads, handleStep] at hs
    split at hs
    · cases hs
    obtain ⟨k, hk, rfl⟩ := Option.map_eq_some_iff.mp hs
    obtain ⟨_, hfree, hkind, _, hk⟩ := find_create hk
    refine (hc.kernel (hc.not_open hfree) hk).remember fun _ => ?_
    exact Option.map_eq_some_iff.mp hkind
  | openOther h kind =>
    obtain ⟨k, hk, rfl⟩ := Option.map_eq_some_iff.mp hs
    obtain ⟨_, hfree, _, _, hk⟩ := find_create hk
    exact hc.kernel (hc.not_open hfree) hk
  | io h =>
    simp only [handleThreads, handleStep] at hs
    split at hs <;> cases hs
    · exact hc.threads
    · exact hc
  | ntClose h =>
    cases hs
    obtain ⟨ht, hmap⟩ := hc.tracked.forget (h := h)
    exact (hc.erase ht hmap fun _ _ => rfl).threads
  | pin h d =>
    simp only [handleThreads, handleStep] at hs
    split at hs
    · obtain ⟨k, hk, rfl⟩ := Option.map_eq_some_iff.mp hs
      obtain ⟨hfree, hk⟩ := find_duplicate hk
      exact (hc.kernel (hc.not_open hfree) hk).threads
    · cases hs
  | thread i =>
    obtain ⟨pc, hi, hs⟩ := Option.bind_eq_some_iff.mp hs
    exact hc.threadStep hi hu hs

theorem current_of_reach {s : HandleState}
    (hr : handleThreads.ReachUnder (fun s e => handleUndisturbed s e = true) s) : Current s := by
  refine ReachUnder.invariant ?_ (fun s e s' _ hc hu hs => hc.step hu hs) hr
  rintro s rfl
  refine ⟨tracked_initial, fun h hm => ?_⟩
  obtain ⟨i, hi⟩ := tracked_initial.sound.get_eq_some.mp hm
  cases hi

/-- In an undisturbed run a handle that is classified `Hid` and open names a HID device, and so
    does every open handle whose I/O is denied. -/
theorem class_current {s : HandleState}
    (hr : handleThreads.ReachUnder (fun s e => handleUndisturbed s e = true) s) :
    (∀ h o, s.table.lookupHandle h = .hid → s.kernel.find h = some o → o.kind = .hid) ∧
    ∀ e h o, handleUndisturbed s e = true → denies s e = some h → s.kernel.find h = some o →
      o.kind = .hid := by
  have hc := current_of_reach hr
  have hlookup : ∀ h o, s.table.lookupHandle h = .hid → s.kernel.find h = some o →
      o.kind = .hid := by
    intro h o hl ho
    obtain ⟨o', ho', hkind⟩ := hc.hid h (hc.tracked.lookup_hid.mp hl)
    rw [ho, Option.some.injEq] at ho'
    exact ho' ▸ hkind
  refine ⟨hlookup, fun e h o hu hd ho => ?_⟩
  cases e with
  | io v =>
    rw [denies] at hd
    split at hd
    · next hb =>
      cases hd
      rw [Bool.and_eq_true, beq_iff_eq] at hb
      exact hlookup _ o hb.2 ho
    · cases hd
  | thread i =>
    rw [denies] at hd
    split at hd
    · next _ v hi =>
      cases hd
      rw [handleUndisturbed, hi, beq_iff_eq] at hu
      obtain ⟨o', ho', hkind⟩ := probeFileHandle_hid.mp hu
      rw [ho, Option.some.injEq] at ho'
      exact ho' ▸ hkind
    · cases hd
  | _ => cases hd

/-- A controller that was open before the hooks is read while a lease is held, and probed. -/
def controllerRead : List HandleLabel :=
  [.openOther 0x124 .hid, .setBlocking true, .io 0x124, .thread 0]

theorem class_current_read : ∃ s, handleThreads.ReachUnder (fun s e => handleUndisturbed s e = true) s ∧
    s.table.lookupHandle 0x124 = .hid ∧ (s.kernel.find 0x124).isSome ∧
    ∀ o, s.kernel.find 0x124 = some o → o.kind = .hid := by
  obtain ⟨s, hr, hp⟩ := exists_reachUnder_of_exec (T := handleThreads) (s := .initial)
    handleUndisturbed (controllerRead ++ [HandleLabel.thread 0])
    (fun s => s.table.lookupHandle 0x124 == .hid && (s.kernel.find 0x124).isSome) rfl (by decide)
  rw [Bool.and_eq_true, beq_iff_eq] at hp
  exact ⟨s, hr, hp.1, hp.2, fun o ho => (class_current hr).1 _ o hp.1 ho⟩

/-- The sweep closes the controller before the reading thread remembers it, and Steam opens a
    file under the same value. -/
def controllerRevoked : List HandleLabel :=
  [.pin 0x124 0x128, .thread 1, .thread 1, .thread 1, .openOther 0x124 .file, .thread 0]

/-- The table has an open file as `Hid`, and I/O on it is denied. -/
theorem stale_class :
    (¬∀ s h o, handleThreads.Reach s → s.table.lookupHandle h = .hid → s.kernel.find h = some o →
      o.kind = .hid) ∧
    ¬∀ s h o, handleThreads.Reach s → denies s (.io h) = some h → s.kernel.find h = some o →
      o.kind = .hid := by
  obtain ⟨s, hr, hp⟩ := exists_reach_of_exec (T := handleThreads) (s := .initial)
    (controllerRead ++ controllerRevoked)
    (fun s => s.table.lookupHandle 0x124 == .hid && s.blocking &&
      (s.kernel.find 0x124).any (·.kind == .file)) rfl (by decide)
  simp only [Bool.and_eq_true, beq_iff_eq] at hp
  obtain ⟨⟨hl, hb⟩, hk⟩ := hp
  cases ho : s.kernel.find 0x124 with
  | none =>
    rw [ho] at hk
    cases hk
  | some o =>
    rw [ho, Option.any_some, beq_iff_eq] at hk
    have hne : o.kind ≠ .hid := by
      rw [hk]
      decide
    have hdenied : denies s (.io 0x124) = some 0x124 := by
      rw [denies, hb, hl]
      rfl
    exact ⟨fun hall => hne (hall s _ o hr hl ho), fun hall => hne (hall s _ o hr hdenied ho)⟩

end Gate
end SteamInputLease
