import SteamInputLease.Gate.HidPrefix

/-!
# What the recognisers accept

The narrow recogniser decides its pattern. The other two decide it of the low bytes of the units,
which is the same until a unit has a high byte.

All three run one loop over tests of single places, and `prefixLoop_ok` is the only induction about
the code: the loop does not panic, runs the tests in order and stops at a terminator. What is left
is to compare tests. A pattern place takes a letter in either case or one sign; the code takes the
low byte of a unit and compares that, so the two agree on units below `0x100` and may differ above
(`WideAlias` and `NativeAlias` name the difference). Only the third unit of a DOS path is compared
whole, which is why it is kept apart in the lemmas: an alias has to have its own unit there. On
units that stand for bytes there is no alias, and then all three recognisers agree.
-/

namespace SteamInputLease
namespace Gate

open Lib

/-! ## Places -/

section

theorem toNat_toAsciiLowercase (b : UInt8) : (toAsciiLowercase b).toNat =
    if 65 ≤ b.toNat ∧ b.toNat ≤ 90 then b.toNat + 32 else b.toNat := by
  have h32 : (32 : UInt8).toNat = 32 := rfl
  have hA : (0x41 : UInt8).toNat = 65 := rfl
  have hZ : (0x5a : UInt8).toNat = 90 := rfl
  rw [toAsciiLowercase]
  simp only [Bool.and_eq_true, decide_eq_true_eq, UInt8.le_iff_toNat_le, hA, hZ]
  split
  · rw [UInt8.toNat_add, h32]
    omega
  · rfl

/-- A place for a letter takes it in either case. -/
theorem eqIgnoreAsciiCase_letter (b : UInt8) {c : UInt8} (hc : 97 ≤ c.toNat ∧ c.toNat ≤ 122) :
    eqIgnoreAsciiCase b c = decide (b.toNat ∈ [c.toNat, c.toNat - 32]) := by
  have hb := b.toNat_lt
  rw [eqIgnoreAsciiCase, Bool.eq_iff_iff, beq_iff_eq, decide_eq_true_eq, ← UInt8.toNat_inj,
    toNat_toAsciiLowercase, toNat_toAsciiLowercase, List.mem_cons, List.mem_singleton]
  split <;> split <;> omega

/-- Any other place takes one byte. -/
theorem eqIgnoreAsciiCase_sign (b : UInt8) {c : UInt8}
    (hc : c.toNat < 65 ∨ 90 < c.toNat ∧ c.toNat < 97) :
    eqIgnoreAsciiCase b c = decide (b.toNat ∈ [c.toNat]) := by
  have hb := b.toNat_lt
  rw [eqIgnoreAsciiCase, Bool.eq_iff_iff, beq_iff_eq, decide_eq_true_eq, ← UInt8.toNat_inj,
    toNat_toAsciiLowercase, toNat_toAsciiLowercase, List.mem_singleton]
  split <;> split <;> omega

end

/-! ## The loop -/

section

variable {α : Type} [DecidableEq α] {nul question dot : α} {toByte : α → UInt8}

/-- The test of each place, from `index`. -/
def unitTests (question dot : α) (toByte : α → UInt8) : List UInt8 → Nat → List (α → Bool)
  | [], _ => []
  | unit :: rest, index =>
    unitMatches question dot toByte index unit :: unitTests question dot toByte rest (index + 1)

/-- The loop runs the tests, and stops at the terminator. -/
theorem prefixLoop_ok {units : List α} (hunits : nul ∉ units) :
    ∀ (expected : List UInt8) (index : Nat), index ≤ units.length →
      prefixLoop nul question dot toByte (units ++ [nul]) expected index =
        .ok (passes (unitTests question dot toByte expected index) (units.drop index)) := by
  intro expected
  induction expected with
  | nil =>
    intro index _
    rfl
  | cons unit rest ih =>
    intro index hindex
    rw [prefixLoop]
    rcases Nat.lt_or_eq_of_le hindex with hlt | heq
    · have hget : (units ++ [nul])[index]? = some units[index] := by
        rw [List.getElem?_append_left hlt, List.getElem?_eq_getElem hlt]
      have hne : units[index] ≠ nul := by
        intro h
        exact hunits (h ▸ List.getElem_mem hlt)
      rw [MayPanic.index_ok hget, List.drop_eq_getElem_cons hlt, unitTests, passes]
      show (if units[index] = nul then _ else _) = _
      rw [if_neg hne]
      cases unitMatches question dot toByte index unit units[index] with
      | false => rfl
      | true => exact ih (index + 1) hlt
    · have hget : (units ++ [nul])[index]? = some nul := by
        rw [heq, List.getElem?_append_right (Nat.le_refl _), Nat.sub_self]
        rfl
      rw [MayPanic.index_ok hget, heq, List.drop_length]
      show (if nul = nul then _ else _) = _
      rw [if_pos rfl]
      rfl

end

/-! ## Bytes -/

theorem narrowHasHidPrefix_ok {path : List UInt8} (hpath : 0 ∉ path) :
    narrowHasHidPrefix (some (path ++ [0])) =
      .ok (decide (StartsWith dosDevicePattern (path.map UInt8.toNat))) := by
  rw [narrowHasHidPrefix, prefixLoop_ok hpath _ 0 (Nat.zero_le _), List.drop_zero]
  congr 1
  rw [Bool.eq_iff_iff, decide_eq_true_eq, ← passes_iff_startsWith]
  have htests : passes (unitTests 0x3f 0x2e id expectedPrefix 0) path =
      passes (dosDevicePattern.map (allows UInt8.toNat)) path := by
    apply passes_congr
    refine .cons ?_ (.cons ?_ (.cons ?_ (.cons ?_ (.cons ?_ (.cons ?_ (.cons ?_ .nil))))))
    · exact fun b => eqIgnoreAsciiCase_sign b (by decide)
    · exact fun b => eqIgnoreAsciiCase_sign b (by decide)
    · intro b
      show (b == 0x3f || b == 0x2e) = decide (b.toNat ∈ [0x3f, 0x2e])
      rw [Bool.eq_iff_iff, Bool.or_eq_true, beq_iff_eq, beq_iff_eq, decide_eq_true_eq,
        List.mem_cons, List.mem_singleton, ← UInt8.toNat_inj, ← UInt8.toNat_inj]
      exact Iff.rfl
    · exact fun b => eqIgnoreAsciiCase_sign b (by decide)
    · exact fun b => eqIgnoreAsciiCase_letter b (by decide)
    · exact fun b => eqIgnoreAsciiCase_letter b (by decide)
    · exact fun b => eqIgnoreAsciiCase_letter b (by decide)
  rw [htests]

/-! ## Units -/

section

variable {pattern : List (List Nat)} {units : List UInt16}

/-- The whole units match a pattern when their low bytes do and there are no high ones. -/
theorem startsWith_toNat (h : ∀ allowed ∈ pattern, ∀ n ∈ allowed, n < 256) :
    StartsWith pattern (units.map UInt16.toNat) ↔ StartsWith pattern (units.map lowByte) ∧
      ∀ unit ∈ units.take pattern.length, unit.toNat < 256 := by
  induction pattern generalizing units with
  | nil => simp [StartsWith]
  | cons allowed pattern ih =>
    cases units with
    | nil => simp [StartsWith]
    | cons unit units =>
      have hhead : unit.toNat ∈ allowed ↔ lowByte unit ∈ allowed ∧ unit.toNat < 256 := by
        constructor
        · intro hmem
          have hlt := h allowed List.mem_cons_self _ hmem
          rw [lowByte, Nat.mod_eq_of_lt hlt]
          exact ⟨hmem, hlt⟩
        · rintro ⟨hmem, hlt⟩
          rw [lowByte, Nat.mod_eq_of_lt hlt] at hmem
          exact hmem
      simp only [List.map_cons, StartsWith, List.length_cons, List.take_succ_cons,
        List.forall_mem_cons, hhead, ih fun a ha => h a (List.mem_cons_of_mem allowed ha)]
      exact and_and_and_comm

theorem toNat_toUInt8 (unit : UInt16) : unit.toUInt8.toNat = lowByte unit := UInt16.toNat_toUInt8 unit

theorem eqIgnoreAsciiCase_allows_letter {c : UInt8} (hc : 97 ≤ c.toNat ∧ c.toNat ≤ 122)
    (unit : UInt16) :
    eqIgnoreAsciiCase unit.toUInt8 c = allows lowByte [c.toNat, c.toNat - 32] unit := by
  rw [eqIgnoreAsciiCase_letter _ hc, toNat_toUInt8]
  rfl

theorem eqIgnoreAsciiCase_allows_sign {c : UInt8}
    (hc : c.toNat < 65 ∨ 90 < c.toNat ∧ c.toNat < 97) (unit : UInt16) :
    eqIgnoreAsciiCase unit.toUInt8 c = allows lowByte [c.toNat] unit := by
  rw [eqIgnoreAsciiCase_sign _ hc, toNat_toUInt8]
  rfl

/-- The place allows the unit's low byte in either case. -/
def Stands (e : UInt16) (allowed : List Nat) : Prop :=
  ∀ unit : UInt16, eqIgnoreAsciiCase unit.toUInt8 e.toUInt8 = allows lowByte allowed unit

theorem stands_passes {expected : List UInt16} (h : List.Forall₂ Stands expected pattern) :
    passes (expected.map fun e u => eqIgnoreAsciiCase u.toUInt8 e.toUInt8) units =
      passes (pattern.map (allows lowByte)) units := by
  apply passes_congr
  rw [List.forall₂_map_left_iff, List.forall₂_map_right_iff]
  exact h

/-- `\hid`. -/
theorem stands_hid : List.Forall₂ Stands [0x5c, 0x68, 0x69, 0x64]
    [[0x5c], [0x68, 0x48], [0x69, 0x49], [0x64, 0x44]] := by
  refine .cons ?_ (.cons ?_ (.cons ?_ (.cons ?_ .nil)))
  · exact eqIgnoreAsciiCase_allows_sign (by decide)
  · exact eqIgnoreAsciiCase_allows_letter (by decide)
  · exact eqIgnoreAsciiCase_allows_letter (by decide)
  · exact eqIgnoreAsciiCase_allows_letter (by decide)

end

/-! ## A terminated path of units -/

section

variable {path : List UInt16}

/-- The tests take the low bytes, and the third unit whole. -/
theorem wide_passes : passes (unitTests 0x3f 0x2e UInt16.toUInt8 expectedPrefix 0) path = true ↔
    StartsWith dosDevicePattern (path.map lowByte) ∧
      (path[2]? = some 0x3f ∨ path[2]? = some 0x2e) := by
  rcases path with _ | ⟨first, _ | ⟨second, _ | ⟨third, rest⟩⟩⟩
  · exact iff_of_false Bool.false_ne_true And.left
  · simp [unitTests, expectedPrefix, passes, dosDevicePattern, StartsWith]
  · simp [unitTests, expectedPrefix, passes, dosDevicePattern, StartsWith]
  have hslash : ∀ unit : UInt16, unitMatches 0x3f 0x2e UInt16.toUInt8 0 0x5c unit =
      allows lowByte [0x5c] unit := eqIgnoreAsciiCase_allows_sign (by decide)
  have hrest : passes (unitTests 0x3f 0x2e UInt16.toUInt8 [0x5c, 0x68, 0x69, 0x64] 3) rest =
      passes ([[0x5c], [0x68, 0x48], [0x69, 0x49], [0x64, 0x44]].map (allows lowByte)) rest :=
    stands_passes stands_hid
  have hthird : (third = 0x3f ∨ third = 0x2e) → lowByte third ∈ [0x3f, 0x2e] := by
    rintro (rfl | rfl)
    · exact List.mem_cons_self
    · exact List.mem_cons_of_mem _ List.mem_cons_self
  show (unitMatches 0x3f 0x2e UInt16.toUInt8 0 0x5c first &&
    (unitMatches 0x3f 0x2e UInt16.toUInt8 0 0x5c second &&
      ((third == 0x3f || third == 0x2e) && passes _ rest))) = true ↔
    (lowByte first ∈ [0x5c] ∧ lowByte second ∈ [0x5c] ∧ lowByte third ∈ [0x3f, 0x2e] ∧
      StartsWith _ (rest.map lowByte)) ∧ (some third = some 0x3f ∨ some third = some 0x2e)
  rw [hslash, hslash, hrest, Option.some_inj, Option.some_inj]
  simp only [Bool.and_eq_true, Bool.or_eq_true, beq_iff_eq, passes_iff_startsWith, allows,
    decide_eq_true_eq]
  constructor
  · rintro ⟨h0, h1, h2, h⟩
    exact ⟨⟨h0, h1, hthird h2, h⟩, h2⟩
  · rintro ⟨⟨h0, h1, -, h⟩, h2⟩
    exact ⟨h0, h1, h2, h⟩

/-- In a path that matches whole, the third unit is one of the two. -/
theorem third_of_startsWith (h : StartsWith dosDevicePattern (path.map UInt16.toNat)) :
    path[2]? = some 0x3f ∨ path[2]? = some 0x2e := by
  rcases path with _ | ⟨first, _ | ⟨second, _ | ⟨third, rest⟩⟩⟩
  · exact h.elim
  · exact h.2.elim
  · exact h.2.2.elim
  have hthird : third.toNat ∈ [0x3f, 0x2e] := h.2.2.1
  rw [List.mem_cons, List.mem_singleton] at hthird
  refine hthird.imp (fun h => ?_) (fun h => ?_)
  · exact congrArg some (UInt16.toNat_inj.mp h)
  · exact congrArg some (UInt16.toNat_inj.mp h)

theorem dosDevicePattern_small : ∀ allowed ∈ dosDevicePattern, ∀ n ∈ allowed, n < 256 := by decide

theorem wideHasHidPrefix_ok (hpath : 0 ∉ path) : wideHasHidPrefix (some (path ++ [0])) =
    .ok (decide (StartsWith dosDevicePattern (path.map lowByte) ∧
      (path[2]? = some 0x3f ∨ path[2]? = some 0x2e))) := by
  rw [wideHasHidPrefix, prefixLoop_ok hpath _ 0 (Nat.zero_le _), List.drop_zero]
  congr 1
  rw [Bool.eq_iff_iff, decide_eq_true_eq, wide_passes]

/-- The answer is right but for an alias. -/
theorem wideHasHidPrefix_exact (hpath : 0 ∉ path) :
    wideHasHidPrefix (some (path ++ [0])) =
        .ok (decide (StartsWith dosDevicePattern (path.map UInt16.toNat))) ↔
      ¬WideAlias path := by
  rw [wideHasHidPrefix_ok hpath, Except.ok.injEq, decide_eq_decide,
    startsWith_toNat dosDevicePattern_small]
  constructor
  · rintro hiff ⟨hcut, hthird, unit, hunit, hwide⟩
    exact absurd ((hiff.mp ⟨hcut, hthird⟩).2 unit hunit) (Nat.not_lt.mpr hwide)
  · intro halias
    constructor
    · rintro ⟨hcut, hthird⟩
      refine ⟨hcut, fun unit hunit => Nat.lt_of_not_le fun hwide => ?_⟩
      exact halias ⟨hcut, hthird, unit, hunit, hwide⟩
    · intro hwhole
      exact ⟨hwhole.1, third_of_startsWith ((startsWith_toNat dosDevicePattern_small).mpr hwhole)⟩

end

/-! ## A counted name -/

section

variable {units expected : List UInt16}

/-- The comparison of the first units, place by place. -/
theorem passes_zip (test : UInt16 → UInt16 → Bool) :
    passes (expected.map fun e u => test u e) units =
      (decide (expected.length ≤ units.length) &&
        ((units.take expected.length).zip expected).all fun p => test p.1 p.2) := by
  induction expected generalizing units with
  | nil => simp [passes]
  | cons e expected ih =>
    cases units with
    | nil => simp [passes]
    | cons unit units =>
      rw [List.map_cons, passes, ih, List.length_cons, List.length_cons, List.take_succ_cons,
        List.zip_cons_cons, List.all_cons, Bool.and_left_comm]
      simp only [Nat.add_le_add_iff_right]

theorem unitsBeginWith_ok : unitsBeginWith units expected =
    .ok (passes (expected.map fun e u => eqIgnoreAsciiCase u.toUInt8 e.toUInt8) units) := by
  rw [passes_zip fun u e => eqIgnoreAsciiCase u.toUInt8 e.toUInt8, unitsBeginWith]
  split
  case isTrue hle =>
    rw [MayPanic.slice_zero_ok hle, decide_eq_true hle, Bool.true_and]
    show Except.ok (wideAsciiEq (units.take expected.length) expected) = _
    rw [wideAsciiEq, List.length_take_of_le hle, beq_self_eq_true, Bool.true_and]
    rfl
  case isFalse hle =>
    rw [decide_eq_false hle]
    rfl

theorem unitsBeginWith_stands {pattern : List (List Nat)}
    (h : List.Forall₂ Stands expected pattern) :
    unitsBeginWith units expected = .ok (decide (StartsWith pattern (units.map lowByte))) := by
  rw [unitsBeginWith_ok, stands_passes h]
  congr 1
  rw [Bool.eq_iff_iff, decide_eq_true_eq, ← passes_iff_startsWith]

theorem stands_native : List.Forall₂ Stands nativeUnits nativePattern :=
  .cons (eqIgnoreAsciiCase_allows_sign (by decide))
    (.cons (eqIgnoreAsciiCase_allows_sign (by decide))
      (.cons (eqIgnoreAsciiCase_allows_sign (by decide)) stands_hid))

theorem stands_dos : List.Forall₂ Stands dosUnits dosPattern :=
  .cons (eqIgnoreAsciiCase_allows_sign (by decide))
    (.cons (eqIgnoreAsciiCase_allows_sign (by decide))
      (.cons (eqIgnoreAsciiCase_allows_sign (by decide)) stands_hid))

variable {buffer : List UInt16} {length : Nat}

theorem nativeHasHidPrefix_ok (hread : length / 2 ≤ buffer.length) :
    nativeHasHidPrefix (some (some ⟨length, some buffer⟩)) =
      .ok (decide (StartsWith nativePattern ((buffer.take (length / 2)).map lowByte) ∨
        StartsWith dosPattern ((buffer.take (length / 2)).map lowByte))) := by
  show (MayPanic.slice buffer 0 (length / 2) >>= fun units => _) = _
  rw [MayPanic.slice_zero_ok hread]
  show (unitsBeginWith (buffer.take (length / 2)) nativeUnits >>= fun native => _) = _
  rw [unitsBeginWith_stands stands_native]
  by_cases hnative : StartsWith nativePattern ((buffer.take (length / 2)).map lowByte)
  · rw [decide_eq_true hnative, decide_eq_true (Or.inl hnative)]
    rfl
  · rw [decide_eq_false hnative, decide_eq_decide.mpr (or_iff_right hnative)]
    exact unitsBeginWith_stands stands_dos

theorem nativePattern_small : ∀ allowed ∈ nativePattern, ∀ n ∈ allowed, n < 256 := by decide

theorem dosPattern_small : ∀ allowed ∈ dosPattern, ∀ n ∈ allowed, n < 256 := by decide

/-- The answer is right but for an alias. -/
theorem nativeHasHidPrefix_exact (hread : length / 2 ≤ buffer.length) :
    nativeHasHidPrefix (some (some ⟨length, some buffer⟩)) =
        .ok (decide (StartsWith nativePattern ((buffer.take (length / 2)).map UInt16.toNat) ∨
          StartsWith dosPattern ((buffer.take (length / 2)).map UInt16.toNat))) ↔
      ¬NativeAlias (buffer.take (length / 2)) := by
  rw [nativeHasHidPrefix_ok hread, Except.ok.injEq, decide_eq_decide,
    startsWith_toNat nativePattern_small, startsWith_toNat dosPattern_small]
  show (_ ↔ _ ∧ (∀ unit ∈ (buffer.take (length / 2)).take 7, unit.toNat < 256) ∨
    _ ∧ (∀ unit ∈ (buffer.take (length / 2)).take 7, unit.toNat < 256)) ↔ _
  rw [← or_and_right]
  constructor
  · rintro hiff ⟨hcut, unit, hunit, hwide⟩
    exact absurd ((hiff.mp hcut).2 unit hunit) (Nat.not_lt.mpr hwide)
  · intro halias
    refine ⟨fun hcut => ⟨hcut, fun unit hunit => Nat.lt_of_not_le fun hwide => ?_⟩, And.left⟩
    exact halias ⟨hcut, unit, hunit, hwide⟩

end

/-! ## All three -/

section

variable {bytes : List UInt8}

/-- Units that stand for bytes are no alias. -/
theorem not_wideAlias_bytes : ¬WideAlias (bytes.map UInt8.toUInt16) := by
  rintro ⟨-, -, unit, hunit, hwide⟩
  obtain ⟨b, -, rfl⟩ := List.mem_map.mp (List.mem_of_mem_take hunit)
  rw [UInt8.toNat_toUInt16] at hwide
  exact absurd b.toNat_lt (Nat.not_lt.mpr hwide)

/-- The recognisers of paths agree on bytes. -/
theorem wide_eq_narrow (hbytes : 0 ∉ bytes) :
    wideHasHidPrefix (some (bytes.map UInt8.toUInt16 ++ [0])) =
      narrowHasHidPrefix (some (bytes ++ [0])) := by
  have hunits : 0 ∉ bytes.map UInt8.toUInt16 := by
    intro h
    obtain ⟨b, hb, hzero⟩ := List.mem_map.mp h
    have hb0 : b = 0 := UInt8.toUInt16_inj.mp hzero
    exact hbytes (hb0 ▸ hb)
  have hcodes : UInt16.toNat ∘ UInt8.toUInt16 = UInt8.toNat := funext UInt8.toNat_toUInt16
  rw [(wideHasHidPrefix_exact hunits).mpr not_wideAlias_bytes, narrowHasHidPrefix_ok hbytes,
    List.map_map, hcodes]

end

/-! ## The theorem -/

/-- The recognisers accept their grammar just when cutting the units makes no path of a HID device
    out of another. -/
theorem recognisersExact_iff {path : List UInt16} {bytes : List UInt8} {buffer : List UInt16}
    {length : Nat} (hpath : 0 ∉ path) (hbytes : 0 ∉ bytes) (hread : length / 2 ≤ buffer.length) :
    RecognisersExact path bytes buffer length ↔
      ¬WideAlias path ∧ ¬NativeAlias (buffer.take (length / 2)) := by
  constructor
  · intro h
    exact ⟨(wideHasHidPrefix_exact hpath).mp h.wide, (nativeHasHidPrefix_exact hread).mp h.native⟩
  · rintro ⟨hwide, hnative⟩
    exact ⟨(wideHasHidPrefix_exact hpath).mpr hwide, narrowHasHidPrefix_ok hbytes,
      fun _ => wide_eq_narrow hbytes, (nativeHasHidPrefix_exact hread).mpr hnative⟩

/-- `\\?\HID`, in units and in bytes, and the native name in a buffer that goes on. -/
theorem recognisersExact_hid : 0 ∉ ([0x5c, 0x5c, 0x3f, 0x5c, 0x48, 0x49, 0x44] : List UInt16) ∧
    RecognisersExact [0x5c, 0x5c, 0x3f, 0x5c, 0x48, 0x49, 0x44]
      [0x5c, 0x5c, 0x3f, 0x5c, 0x48, 0x49, 0x44]
      [0x5c, 0x3f, 0x3f, 0x5c, 0x48, 0x49, 0x44, 0x23] 14 := by
  refine ⟨by decide, (recognisersExact_iff (by decide) (by decide) (by decide)).mpr ⟨?_, ?_⟩⟩
  · rintro ⟨-, -, hwide⟩
    exact absurd hwide (by decide)
  · rintro ⟨-, hwide⟩
    exact absurd hwide (by decide)

/-- U+0168 is cut to the letter `h`. -/
theorem not_recognisersExact : ¬RecognisersExact [0x5c, 0x5c, 0x3f, 0x5c, 0x168, 0x69, 0x64]
    [0x5c] [] 0 := by
  intro h
  exact absurd h.wide (by decide)

end Gate
end SteamInputLease
