import SteamInputLease.Gate.HandleMap
import SteamInputLease.Lib.Count
import SteamInputLease.Lib.ProbeTable

/-!
# The handle table refines a finite map

The slots, seen through `HandleSlot.view`, are an open-addressing table of the library; each loop of
the code is a search or an insertion there. From that the invariant of the table (`Tracked`) follows
operation by operation.

The code has four loops that walk the same window of slots, each with its own way of stopping:
`remember_handle` keeps the first free slot it passes and goes on to look for the key,
`lookup_handle` and both sections of `forget_handle` stop at an empty slot and pass over a
tombstone. What the four have in common is proved once, of tables that know no handles, in
`Lib.ProbeTable`. `Tracked` adds what is particular here: which keys are no handles, and that the
count of HID handles is the number of slots with that class. `Follows` compares the map a table
stands for with the map an observer keeps of the same operations, a dropped remember included, and
an operation's two locked sections count as steps of their own, with any other thread's between.
-/

namespace SteamInputLease
namespace Gate

open Lib Lib.System Lib.ProbeTable

/-! ## The table as an open-addressing table -/

/-- A slot of the table, by what its key says. -/
def HandleSlot.view (s : HandleSlot) : Slot UInt64 HandleClass :=
  if s.key = 0 then .empty else if s.key = tombstone then .tomb else .live s.key s.classification

def viewed (slots : Nat → HandleSlot) : Nat → Slot UInt64 HandleClass := fun i => (slots i).view

theorem zero_ne_tombstone : (0 : UInt64) ≠ tombstone := by decide

theorem tombstone_lt {k : UInt64} : tombstone < k ↔ k ≠ 0 ∧ k ≠ tombstone := by
  rw [UInt64.lt_iff_toNat_lt, ne_eq, ne_eq, ← UInt64.toNat_inj, ← UInt64.toNat_inj]
  simp only [tombstone, UInt64.toNat_ofNat]
  omega

theorem notTracked_eq_false {h : UInt64} :
    notTracked h = false ↔ h ≠ 0 ∧ h ≠ tombstone ∧ h ≠ invalidHandleValue := by
  rw [notTracked, Bool.or_eq_false_iff, decide_eq_false_iff_not, beq_eq_false_iff_ne,
    UInt64.not_le, tombstone_lt, and_assoc]

theorem view_live {s : HandleSlot} {k : UInt64} {c : HandleClass} :
    s.view = .live k c ↔ s.key = k ∧ s.classification = c ∧ k ≠ 0 ∧ k ≠ tombstone := by
  unfold HandleSlot.view
  split
  · next h => simp only [reduceCtorEq, false_iff]; rintro ⟨rfl, _, h0, _⟩; exact h0 h
  · split
    · next h => simp only [reduceCtorEq, false_iff]; rintro ⟨rfl, _, _, h1⟩; exact h1 h
    · next h0 h1 =>
      rw [Slot.live.injEq]
      constructor
      · intro hm
        obtain ⟨rfl, rfl⟩ := hm
        exact ⟨rfl, rfl, h0, h1⟩
      · intro hm
        obtain ⟨rfl, rfl, _, _⟩ := hm
        exact ⟨rfl, rfl⟩

theorem viewed_update {slots : Nat → HandleSlot} {i : Nat} {s : HandleSlot} :
    viewed (Function.update slots i s) = Function.update (viewed slots) i s.view := by
  funext j
  by_cases h : j = i
  · rw [viewed, h, Function.update_self, Function.update_self]
  · rw [viewed, Function.update_of_ne h, Function.update_of_ne h]
    rfl

theorem viewed_empty {slots : Nat → HandleSlot} {i : Nat} (h : (slots i).key = 0) :
    viewed slots i = .empty := by
  rw [viewed, HandleSlot.view, if_pos h]

theorem viewed_tomb {slots : Nat → HandleSlot} {i : Nat} (h : (slots i).key = tombstone) :
    viewed slots i = .tomb := by
  rw [viewed, HandleSlot.view, if_neg (h ▸ Ne.symm zero_ne_tombstone), if_pos h]

theorem viewed_live {slots : Nat → HandleSlot} {i : Nat} (h0 : (slots i).key ≠ 0)
    (h1 : (slots i).key ≠ tombstone) :
    viewed slots i = .live (slots i).key (slots i).classification := by
  rw [viewed, HandleSlot.view, if_neg h0, if_neg h1]

/-! ## The loops are searches -/

section

variable {slots : Nat → HandleSlot} {key : UInt64}

theorem removeLoop_eq (h1 : key ≠ tombstone) : ∀ n o,
    removeLoop slots key n o = find (probeIndex key) (viewed slots) key n o := by
  intro n
  induction n with
  | zero => intro o; rfl
  | succ n ih =>
    intro o
    rw [removeLoop, find]
    by_cases hz : (slots (probeIndex key o)).key = 0
    · rw [viewed_empty hz, if_pos hz]
    rw [if_neg hz, ih]
    by_cases ht : (slots (probeIndex key o)).key = tombstone
    · rw [viewed_tomb ht, if_neg (ht ▸ Ne.symm h1)]
    · rw [viewed_live hz ht]

theorem presentLoop_eq : ∀ n o,
    presentLoop slots key n o = (removeLoop slots key n o).isSome := by
  intro n
  induction n with
  | zero => intro o; rfl
  | succ n ih =>
    intro o
    rw [presentLoop, removeLoop]
    split
    · rfl
    · split
      · rfl
      · exact ih (o + 1)

theorem lookupLoop_eq : ∀ n o, lookupLoop slots key n o =
    ((removeLoop slots key n o).map fun i => (slots i).classification).getD .unknown := by
  intro n
  induction n with
  | zero => intro o; rfl
  | succ n ih =>
    intro o
    rw [lookupLoop, removeLoop]
    split
    · rfl
    · split
      · rfl
      · exact ih (o + 1)

/-- The loop of `remember_handle` searches for the key and keeps the first free slot it passes. -/
theorem rememberLoop_eq (h0 : key ≠ 0) (h1 : key ≠ tombstone) : ∀ n o ins,
    rememberLoop slots key n o ins =
      match find (probeIndex key) (viewed slots) key n o with
      | some i => .present i
      | none => .insertion (ins.or (firstFree (probeIndex key) (viewed slots) n o)) := by
  intro n
  induction n with
  | zero =>
    intro o ins
    rw [rememberLoop, find, firstFree, Option.or_none]
  | succ n ih =>
    intro o ins
    rw [rememberLoop]
    by_cases hz : (slots (probeIndex key o)).key = 0
    · have hv := viewed_empty hz
      rw [if_neg (hz ▸ Ne.symm h0), if_neg (fun h => zero_ne_tombstone (hz ▸ h.1)), if_pos hz,
        find_empty hv, firstFree_free (by simp [hv])]
      cases ins with
      | none => rw [Option.getD_none, Option.none_or]
      | some j => rw [Option.getD_some, Option.some_or]
    by_cases ht : (slots (probeIndex key o)).key = tombstone
    · have hv := viewed_tomb ht
      rw [if_neg (ht ▸ Ne.symm h1), find_tomb hv, firstFree_free (by simp [hv])]
      cases ins with
      | none => rw [if_pos ⟨ht, rfl⟩, ih, Option.some_or, Option.none_or]
      | some j => rw [if_neg (by simp), if_neg hz, ih, Option.some_or, Option.some_or]
    · have hv := viewed_live hz ht
      by_cases hk : (slots (probeIndex key o)).key = key
      · rw [if_pos hk, find_self (hk ▸ hv)]
      · rw [if_neg hk, if_neg (fun h => ht h.1), if_neg hz, find_other hv hk, firstFree_live hv, ih]

end

/-! ## The invariant of the table -/

/-- The map a table stands for. -/
def HandleTable.map (t : HandleTable) : HandleMap :=
  ProbeTable.get probeIndex handleProbeLimit (viewed t.slots)

structure Tracked (t : HandleTable) : Prop where
  sound : Sound probeIndex handleProbeLimit (viewed t.slots)
  real : ∀ i k c, viewed t.slots i = .live k c → notTracked k = false
  blank : ∀ i, (t.slots i).classification = .hid → ∃ k c, viewed t.slots i = .live k c
  counted : t.hidHandleCount = t.hidSlots

/-- One for a slot classified `Hid`. -/
def hidUnit (c : HandleClass) : Nat := if c = .hid then 1 else 0

theorem probeIndex_lt (k : UInt64) (o : Nat) : probeIndex k o < handleTableSize :=
  Nat.mod_lt _ (by decide)

theorem Tracked.index_lt {t : HandleTable} (ht : Tracked t) {i : Nat} {k : UInt64}
    {c : HandleClass} (hi : viewed t.slots i = .live k c) : i < handleTableSize := by
  obtain ⟨o, _, hat, _⟩ := ht.sound.reach i k c hi
  exact hat ▸ probeIndex_lt k o

theorem hidSlots_update {t : HandleTable} {i : Nat} {s : HandleSlot} {n : Int}
    (hi : i < handleTableSize) :
    ({ slots := Function.update t.slots i s, hidHandleCount := n } : HandleTable).hidSlots +
        hidUnit (t.slots i).classification =
      t.hidSlots + hidUnit s.classification := by
  have hget : ((List.range handleTableSize).map t.slots)[i]? = some (t.slots i) := by
    rw [List.getElem?_map, List.getElem?_range hi]
    rfl
  have := countP_set (p := (·.classification == HandleClass.hid)) (b := s) hget
  rw [HandleTable.hidSlots, HandleTable.hidSlots, map_range_update]
  simpa only [hidUnit, beq_iff_eq] using this

/-- A counter of slots is far from wrapping. -/
theorem hidSlots_le (t : HandleTable) : t.hidSlots ≤ handleTableSize := by
  have := List.countP_le_length (p := (·.classification == HandleClass.hid))
    (l := (List.range handleTableSize).map t.slots)
  rwa [List.length_map, List.length_range] at this

/-- Writing one slot, with the count moved by what the slot was and is. -/
theorem Tracked.write {t : HandleTable} (ht : Tracked t) {i : Nat} {s : HandleSlot} {n : Int}
    (hi : i < handleTableSize)
    (hs : Sound probeIndex handleProbeLimit (Function.update (viewed t.slots) i s.view))
    (hreal : ∀ k c, s.view = .live k c → notTracked k = false)
    (hblank : s.classification = .hid → ∃ k c, s.view = .live k c)
    (hn : n = t.hidHandleCount - hidUnit (t.slots i).classification + hidUnit s.classification) :
    Tracked { slots := Function.update t.slots i s, hidHandleCount := n } := by
  refine ⟨by rw [viewed_update]; exact hs, ?_, ?_, ?_⟩
  · intro j k c hj
    rw [viewed_update] at hj
    by_cases hji : j = i
    · subst hji
      rw [Function.update_self] at hj
      exact hreal k c hj
    · rw [Function.update_of_ne hji] at hj
      exact ht.real j k c hj
  · intro j hj
    rw [viewed_update]
    by_cases hji : j = i
    · subst hji
      simp only [Function.update_self] at hj ⊢
      exact hblank hj
    · rw [Function.update_of_ne hji]
      simp only [Function.update_of_ne hji] at hj
      exact ht.blank j hj
  · have := hidSlots_update (t := t) (s := s) (n := n) hi
    have := ht.counted
    show n = _
    omega


/-! ## `remember_handle` -/

section

variable {t : HandleTable} {h : UInt64} {c w : HandleClass} {i : Nat}

theorem HandleSlot.view_mk (hreal : notTracked h = false) :
    HandleSlot.view { key := h, classification := c } = .live h c := by
  obtain ⟨h0, h1, _⟩ := notTracked_eq_false.mp hreal
  rw [HandleSlot.view, if_neg h0, if_neg h1]

theorem Tracked.count_le (ht : Tracked t) : 0 ≤ t.hidHandleCount ∧ t.hidHandleCount ≤ 4096 := by
  have := hidSlots_le t
  have := ht.counted
  simp only [handleTableSize] at *
  omega

theorem Tracked.hidUnit_le (ht : Tracked t) (hi : i < handleTableSize) :
    (hidUnit (t.slots i).classification : Int) ≤ t.hidHandleCount := by
  rw [ht.counted, hidUnit]
  split
  · next hhid =>
    have hmem : t.slots i ∈ (List.range handleTableSize).map t.slots :=
      List.mem_map.mpr ⟨i, List.mem_range.mpr hi, rfl⟩
    have : 0 < t.hidSlots := List.countP_pos_iff.mpr ⟨_, hmem, by simp [hhid]⟩
    omega
  · omega

/-- A remembered key is where it was, with its new class. -/
theorem Tracked.remember_present (ht : Tracked t) (hi : viewed t.slots i = .live h w) :
    t.rememberHandle h c =
      { slots := Function.update t.slots i { key := h, classification := c }
        hidHandleCount := t.hidHandleCount - hidUnit w + hidUnit c } := by
  have hreal := ht.real i h w hi
  obtain ⟨h0, h1, _⟩ := notTracked_eq_false.mp hreal
  obtain ⟨hkey, hclass, _⟩ := view_live.mp hi
  have hle := ht.hidUnit_le (ht.index_lt hi)
  have hcount := ht.count_le
  rw [hclass] at hle
  rw [HandleTable.rememberHandle, if_neg (by simp [hreal]), rememberLoop_eq h0 h1,
    ht.sound.find_eq hi]
  by_cases hwc : w = c
  · have hsame : t.slots i = { key := h, classification := c } := by
      rw [← hkey, ← hwc, ← hclass]
    have hcount : t.hidHandleCount - hidUnit w + hidUnit c = t.hidHandleCount := by
      rw [hwc]
      omega
    rw [← hsame, Function.update_eq_self, hcount]
    simp [hclass, hwc]
  · simp only [hclass, ne_eq, hwc, not_false_eq_true, if_true, hkey]
    congr 1
    by_cases hw : w = .hid
    · simp only [hidUnit, if_pos hw, if_neg (fun h => hwc (hw.trans h.symm) : c ≠ .hid)] at hle ⊢
      rw [i32_of_range (by omega) (by omega)]
      omega
    · by_cases hc : c = .hid
      · simp only [hidUnit, if_neg hw, if_pos hc]
        rw [i32_of_range (by omega) (by omega)]
        omega
      · simp only [hidUnit, if_neg hw, if_neg hc]
        omega

/-- An absent key goes to the first free slot of its window, if there is one. -/
theorem Tracked.remember_absent (ht : Tracked t) (hreal : notTracked h = false)
    (habsent : ∀ j w, viewed t.slots j ≠ .live h w) :
    t.rememberHandle h c =
      match firstFree (probeIndex h) (viewed t.slots) handleProbeLimit 0 with
      | some i =>
        { slots := Function.update t.slots i { key := h, classification := c }
          hidHandleCount := t.hidHandleCount + hidUnit c }
      | none => t := by
  obtain ⟨h0, h1, _⟩ := notTracked_eq_false.mp hreal
  have hcount := ht.count_le
  rw [HandleTable.rememberHandle, if_neg (by simp [hreal]), rememberLoop_eq h0 h1,
    ht.sound.find_none.mpr habsent, Option.none_or]
  cases firstFree (probeIndex h) (viewed t.slots) handleProbeLimit 0 with
  | none => rfl
  | some i =>
    dsimp only
    congr 1
    by_cases hc : c = .hid
    · rw [if_pos hc, i32_of_range (by omega) (by omega), hidUnit, if_pos hc]
      rfl
    · rw [if_neg hc, hidUnit, if_neg hc]
      omega

/-- The window is full exactly when an insertion finds no slot. -/
theorem windowFull_iff :
    t.windowFull h = true ↔
      firstFree (probeIndex h) (viewed t.slots) handleProbeLimit 0 = none := by
  rw [firstFree_none, HandleTable.windowFull, List.all_eq_true]
  simp only [List.mem_range, decide_eq_true_eq, Nat.zero_add]
  refine forall_congr' fun o => imp_congr_right fun _ => ?_
  rw [tombstone_lt]
  constructor
  · intro hm
    obtain ⟨h0, h1⟩ := hm
    exact ⟨_, _, viewed_live h0 h1⟩
  · intro hm
    obtain ⟨k, v, hlive⟩ := hm
    obtain ⟨rfl, _, h0, h1⟩ := view_live.mp hlive
    exact ⟨h0, h1⟩

end

section

variable {t : HandleTable} {h : UInt64} {c w : HandleClass} {i : Nat} {n : Int}

/-- A slot takes the class of a real handle. -/
theorem Tracked.put (ht : Tracked t) (hreal : notTracked h = false) (hi : i < handleTableSize)
    (hs : Sound probeIndex handleProbeLimit (Function.update (viewed t.slots) i (.live h c)))
    (hold : ∀ k w, viewed t.slots i = .live k w → k = h)
    (hn : n = t.hidHandleCount - hidUnit (t.slots i).classification + hidUnit c) :
    let t' : HandleTable :=
      { slots := Function.update t.slots i { key := h, classification := c }, hidHandleCount := n }
    Tracked t' ∧ t'.map = Function.update t.map h (some c) := by
  have hview := HandleSlot.view_mk (c := c) hreal
  refine ⟨ht.write hi (hview ▸ hs) ?_ (fun _ => ⟨h, c, hview⟩) hn, ?_⟩
  · intro k w hk
    rw [hview, Slot.live.injEq] at hk
    exact hk.1 ▸ hreal
  · funext k
    rw [HandleTable.map, viewed_update, hview, get_live ht.sound hs hold k, Function.update_apply]
    rfl

/-- `remember_handle` keeps the table and gives the key its class, unless the key is none or
    would be new in a full window. -/
theorem Tracked.remember (ht : Tracked t) (h : UInt64) (c : HandleClass) :
    Tracked (t.rememberHandle h c) ∧
    (t.rememberHandle h c).map =
      if notTracked h || ((t.map h).isNone && t.windowFull h) then t.map
      else Function.update t.map h (some c) := by
  cases hreal : notTracked h with
  | true =>
    rw [HandleTable.rememberHandle, if_pos hreal]
    exact ⟨ht, rfl⟩
  | false =>
  rw [Bool.false_or]
  cases hm : t.map h with
  | some w =>
    obtain ⟨i, hi⟩ := ht.sound.get_eq_some.mp hm
    obtain ⟨_, hclass, _⟩ := view_live.mp hi
    rw [ht.remember_present hi, Option.isNone_some, Bool.false_and, if_neg Bool.false_ne_true]
    refine ht.put hreal (ht.index_lt hi) (ht.sound.set hi) ?_ (by rw [hclass])
    intro k w' hk
    rw [hi, Slot.live.injEq] at hk
    exact hk.1.symm
  | none =>
    have habsent := ht.sound.get_eq_none.mp hm
    rw [ht.remember_absent hreal habsent, Option.isNone_none, Bool.true_and]
    cases hf : firstFree (probeIndex h) (viewed t.slots) handleProbeLimit 0 with
    | none =>
      rw [if_pos (windowFull_iff.mpr hf)]
      exact ⟨ht, rfl⟩
    | some i =>
      obtain ⟨hfree, o, _, hat, _⟩ := firstFree_some hf
      have hblank : hidUnit (t.slots i).classification = 0 := by
        refine if_neg fun hhid => ?_
        obtain ⟨k, v, hlive⟩ := ht.blank i hhid
        exact hfree k v hlive
      rw [if_neg (by rw [windowFull_iff, hf]; exact Option.some_ne_none i)]
      refine ht.put hreal (hat ▸ probeIndex_lt h _) (ht.sound.insert hf habsent) ?_ ?_
      · intro k w hk
        exact absurd hk (hfree k w)
      · rw [hblank]
        omega

end

/-! ## `lookup_handle` -/

section

variable {t : HandleTable} {h : UInt64}

theorem Tracked.map_notTracked (ht : Tracked t) (hreal : notTracked h = true) : t.map h = none := by
  refine ht.sound.get_eq_none.mpr fun i v hi => ?_
  rw [ht.real i h v hi] at hreal
  cases hreal

theorem Tracked.lookup_eq (ht : Tracked t) (hreal : notTracked h = false) :
    t.lookupHandle h = (t.map h).getD .unknown := by
  obtain ⟨_, h1, _⟩ := notTracked_eq_false.mp hreal
  rw [HandleTable.lookupHandle, if_neg (by simp [hreal]), lookupLoop_eq, removeLoop_eq h1]
  cases hm : t.map h with
  | none =>
    rw [ht.sound.find_none.mpr (ht.sound.get_eq_none.mp hm)]
    rfl
  | some w =>
    obtain ⟨i, hi⟩ := ht.sound.get_eq_some.mp hm
    obtain ⟨_, hclass, _⟩ := view_live.mp hi
    rw [ht.sound.find_eq hi, Option.map_some, hclass]

theorem Tracked.lookup_hid (ht : Tracked t) : t.lookupHandle h = .hid ↔ t.map h = some .hid := by
  cases hreal : notTracked h with
  | true =>
    rw [HandleTable.lookupHandle, if_pos hreal, ht.map_notTracked hreal]
    simp
  | false =>
    rw [ht.lookup_eq hreal]
    cases t.map h with
    | none => simp
    | some c => simp

/-! ## `forget_handle` -/

/-- The read-locked section finds a handle exactly when it is remembered. -/
theorem Tracked.forgetCheck_eq (ht : Tracked t) : t.forgetCheck h = (t.map h).isSome := by
  cases hreal : notTracked h with
  | true =>
    rw [HandleTable.forgetCheck, hreal, ht.map_notTracked hreal]
    rfl
  | false =>
    obtain ⟨_, h1, _⟩ := notTracked_eq_false.mp hreal
    rw [HandleTable.forgetCheck, hreal, presentLoop_eq, removeLoop_eq h1]
    cases hm : t.map h with
    | none => rw [ht.sound.find_none.mpr (ht.sound.get_eq_none.mp hm)]; rfl
    | some w =>
      obtain ⟨i, hi⟩ := ht.sound.get_eq_some.mp hm
      rw [ht.sound.find_eq hi]
      rfl

/-- The write-locked section forgets a real handle, whatever happened since the check. -/
theorem Tracked.forgetRemove (ht : Tracked t) (hreal : notTracked h = false) :
    Tracked (t.forgetRemove h) ∧ (t.forgetRemove h).map = Function.update t.map h none := by
  obtain ⟨_, h1, _⟩ := notTracked_eq_false.mp hreal
  rw [HandleTable.forgetRemove, removeLoop_eq h1]
  cases hm : t.map h with
  | none =>
    rw [ht.sound.find_none.mpr (ht.sound.get_eq_none.mp hm)]
    exact ⟨ht, by rw [← hm, Function.update_eq_self]⟩
  | some w =>
    obtain ⟨i, hi⟩ := ht.sound.get_eq_some.mp hm
    have hlt := ht.index_lt hi
    obtain ⟨_, hclass, _⟩ := view_live.mp hi
    have hview : HandleSlot.view { key := tombstone, classification := .unknown } = .tomb := rfl
    rw [ht.sound.find_eq hi]
    refine ⟨ht.write hlt (hview ▸ ht.sound.erase) ?_ ?_ ?_, ?_⟩
    · intro k c hk
      rw [hview] at hk
      cases hk
    · intro hhid
      cases hhid
    · have hle := ht.hidUnit_le hlt
      have hcount := ht.count_le
      rw [hclass] at hle ⊢
      by_cases hw : w = .hid
      · simp only [hidUnit, if_pos hw, if_neg (by decide : HandleClass.unknown ≠ .hid)] at hle ⊢
        rw [i32_of_range (by omega) (by omega)]
        omega
      · simp only [hidUnit, if_neg hw, if_neg (by decide : HandleClass.unknown ≠ .hid)]
        omega
    · funext k
      rw [HandleTable.map, viewed_update, hview, get_tomb ht.sound hi k, Function.update_apply]
      rfl

/-- Both sections at once. -/
theorem Tracked.forget (ht : Tracked t) :
    Tracked (t.forgetHandle h) ∧ (t.forgetHandle h).map = Function.update t.map h none := by
  rw [HandleTable.forgetHandle, ht.forgetCheck_eq]
  cases hm : t.map h with
  | none =>
    rw [Option.isSome_none, if_neg Bool.false_ne_true, ← hm, Function.update_eq_self]
    exact ⟨ht, rfl⟩
  | some w =>
    obtain ⟨i, hi⟩ := ht.sound.get_eq_some.mp hm
    rw [Option.isSome_some, if_pos rfl]
    exact ht.forgetRemove (ht.real i h w hi)

end

/-! ## Runs -/

/-- A step leaves the table a table, and its map is the one the observer has. -/
structure Follows (s : TableState) (m : HandleMap) : Prop where
  tracked : Tracked s.table
  map_eq : s.table.map = m
  /-- Only real handles are checked for removal. -/
  forgetting : ∀ h ∈ s.forgetting, notTracked h = false

theorem tracked_initial : Tracked .initial := by
  have hempty : ∀ i, viewed HandleTable.initial.slots i = .empty := fun i => rfl
  refine ⟨⟨?_, ?_⟩, ?_, ?_, ?_⟩
  · intro i j k v w hi
    rw [hempty i] at hi
    cases hi
  · intro i k v hi
    rw [hempty i] at hi
    cases hi
  · intro i k c hi
    rw [hempty i] at hi
    cases hi
  · intro i hi
    cases hi
  · have : HandleTable.initial.hidSlots = 0 := by
      refine List.countP_eq_zero.mpr fun x hx => ?_
      obtain ⟨i, _, rfl⟩ := List.mem_map.mp hx
      exact Bool.false_ne_true
    rw [this]
    rfl

theorem Follows.step {s s' : TableState} {m : HandleMap} {e : TableLabel} (hf : Follows s m)
    (hs : handleTable.step s e = some s') : Follows s' (m.observe s e s') := by
  obtain ⟨ht, rfl, hreal⟩ := hf
  cases e with
  | lookup h =>
    cases hs
    exact ⟨ht, rfl, hreal⟩
  | remember h c =>
    cases hs
    obtain ⟨ht', hmap⟩ := ht.remember h c
    exact ⟨ht', hmap, hreal⟩
  | forgetCheck h =>
    cases hs
    have hcheck := ht.forgetCheck_eq (h := h)
    cases hm : s.table.map h with
    | none =>
      rw [hm, Option.isSome_none] at hcheck
      rw [HandleMap.observe, hcheck, ← hm]
      exact ⟨ht, (Function.update_eq_self h _).symm, hreal⟩
    | some w =>
      rw [hm, Option.isSome_some] at hcheck
      rw [HandleMap.observe, hcheck]
      refine ⟨ht, rfl, ?_⟩
      intro k hk
      rcases List.mem_append.mp hk with hk | hk
      · exact hreal k hk
      · rw [List.mem_singleton.mp hk]
        rw [HandleTable.forgetCheck, Bool.and_eq_true, Bool.not_eq_true'] at hcheck
        exact hcheck.1
  | forgetRemove i =>
    obtain ⟨h, hi, rfl⟩ := Option.map_eq_some_iff.mp hs
    obtain ⟨ht', hmap⟩ := ht.forgetRemove (hreal h (List.mem_of_getElem? hi))
    rw [HandleMap.observe, hi]
    exact ⟨ht', hmap, fun k hk => hreal k (List.mem_of_mem_eraseIdx hk)⟩

theorem used_update {slots : Nat → HandleSlot} {i j : Nat} {s : HandleSlot} (hs : s.key ≠ 0)
    (hi : (slots i).key ≠ 0) : (Function.update slots j s i).key ≠ 0 := by
  by_cases h : i = j
  · rwa [h, Function.update_self]
  · rwa [Function.update_of_ne h]

/-- The key of every slot that is written is not 0. -/
theorem used_step {s s' : TableState} {e : TableLabel} (hs : handleTable.step s e = some s')
    {i : Nat} (hi : (s.table.slots i).key ≠ 0) : (s'.table.slots i).key ≠ 0 := by
  cases e with
  | lookup h =>
    cases hs
    exact hi
  | remember h c =>
    cases hs
    simp only [HandleTable.rememberHandle]
    split
    · exact hi
    next hreal =>
    obtain ⟨h0, h1, _⟩ := notTracked_eq_false.mp (Bool.eq_false_of_not_eq_true hreal)
    split
    · next j hj =>
      split
      · refine used_update ?_ hi
        rw [rememberLoop_eq h0 h1] at hj
        split at hj
        · next hfind =>
          cases hj
          obtain ⟨v, hv⟩ := find_live hfind
          rw [(view_live.mp hv).1]
          exact h0
        · cases hj
      · exact hi
    · exact used_update h0 hi
    · exact hi
  | forgetCheck h =>
    cases hs
    split <;> exact hi
  | forgetRemove k =>
    obtain ⟨h, _, rfl⟩ := Option.map_eq_some_iff.mp hs
    simp only [HandleTable.forgetRemove]
    split
    · exact used_update (Ne.symm zero_ne_tombstone) hi
    · exact hi

theorem used_exec : ∀ es (s s' : TableState), handleTable.exec s es = some s' →
    ∀ i, (s.table.slots i).key ≠ 0 → (s'.table.slots i).key ≠ 0 := by
  intro es s s' hx i hi
  exact exec_preserves (I := fun t => (t.table.slots i).key ≠ 0)
    (fun _ _ _ hi hs => used_step hs hi) hi hx

theorem follows_of_reach {s : TableState} {m : HandleMap}
    (hr : (handleTable.observed HandleMap.empty HandleMap.observe).Reach (s, m)) : Follows s m := by
  refine observed_invariant (T := handleTable) (C := fun _ _ => True) ?_ ?_ hr
  · rintro s rfl
    refine ⟨tracked_initial, ?_, fun h hm => absurd hm List.not_mem_nil⟩
    funext h
    exact tracked_initial.sound.get_eq_none.mpr fun i v hi => by cases hi
  · intro s m e s' _ hf _ hs
    exact hf.step hs

theorem viewed_of_lt {slots : Nat → HandleSlot} {i : Nat} (h : tombstone < (slots i).key) :
    viewed slots i = .live (slots i).key (slots i).classification :=
  viewed_live (tombstone_lt.mp h).1 (tombstone_lt.mp h).2

/-- The handle table refines a finite map, whatever threads use it in whatever order. -/
theorem handleTable_refines {s : TableState} {m : HandleMap}
    (hr : (handleTable.observed HandleMap.empty HandleMap.observe).Reach (s, m)) :
    TableRefines s m := by
  obtain ⟨ht, rfl, _⟩ := follows_of_reach hr
  refine ⟨?_, ?_, fun es s' hx => used_exec es s s' hx, ht.counted, ht.count_le.1, ?_, ?_⟩
  · intro i j _ _ hi hij
    exact ht.sound.unique i j _ _ _ (viewed_of_lt hi) (hij ▸ viewed_of_lt (hij ▸ hi))
  · intro i _ hi
    obtain ⟨o, ho, hat, hpath⟩ := ht.sound.reach i _ _ (viewed_of_lt hi)
    exact ⟨o, ho, hat, fun b hb h0 => hpath b hb (viewed_empty h0)⟩
  · exact fun h hreal => ht.lookup_eq hreal
  · intro h c hreal hm hfull
    rw [ht.remember_absent hreal (ht.sound.get_eq_none.mp hm), windowFull_iff.mp hfull]

/-- A controller opened, classified, closed by one thread while another reopens its value. -/
def reopened : List TableLabel :=
  [.remember 0x124 .hid, .remember 0x1124 .hid, .lookup 0x124, .forgetCheck 0x124, .remember 0x124 .other,
    .forgetRemove 0, .remember 0x128 .other, .remember 0x124 .hid]

theorem handleTable_refines_reopened : ∃ s m,
    (handleTable.observed HandleMap.empty HandleMap.observe).Reach (s, m) ∧
      m 0x124 = some .hid ∧ s.table.lookupHandle 0x124 = .hid ∧ TableRefines s m := by
  obtain ⟨⟨s, m⟩, hr, hp⟩ := exists_reach_of_exec
    (T := handleTable.observed HandleMap.empty HandleMap.observe)
    (s := ({ table := .initial, forgetting := [] }, .empty)) reopened
    (fun p => p.2 0x124 == some .hid && p.1.table.lookupHandle 0x124 == .hid)
    ⟨rfl, rfl⟩ (by decide)
  simp only [Bool.and_eq_true, beq_iff_eq] at hp
  exact ⟨s, m, hr, hp.1, hp.2, handleTable_refines hr⟩

end Gate
end SteamInputLease
