import SteamInputLease.Launch.Environment
import SteamInputLease.Lib.TerminatedBlock

/-!
# Filtering the environment

The lossy conversion of a name equals the ASCII name of the variable in some case just when the
units do, so that `leased_environment_block` takes the entries with that name out of the block and
nothing else.

The source compares texts, and a block is made of units that need not be a text at all: a name may
hold a lone surrogate, which is replaced before the comparison. None of that can make a name equal
to an ASCII one, since a unit below `0x80` is a character of its own and every other unit begins
with one that is not ASCII, the replacement included. So the comparison is brought down to units,
and from there on the block is a list of entries that end with a zero, for which
`Lib.TerminatedBlock` has the splitting and the joining.
-/

namespace SteamInputLease
namespace Launch

open Lib

/-! ## Names -/

section

theorem toNat_charToLower (c : Char) :
    c.toLower.toNat = if 65 ≤ c.toNat ∧ c.toNat ≤ 90 then c.toNat + 32 else c.toNat := by
  have hA : 'A'.val.toNat = 65 := rfl
  have hZ : 'Z'.val.toNat = 90 := rfl
  have hshift : ('a'.val - 'A'.val).toNat = 32 := rfl
  unfold Char.toLower
  simp only [Char.toNat, ge_iff_le, UInt32.le_iff_toNat_le, hA, hZ]
  split
  · show (c.val + ('a'.val - 'A'.val)).toNat = _
    rw [UInt32.toNat_add, hshift]
    omega
  · rfl

theorem toNat_unitToLower (unit : UInt16) : (unitToLower unit).toNat =
    if 65 ≤ unit.toNat ∧ unit.toNat ≤ 90 then unit.toNat + 32 else unit.toNat := by
  have hA : (65 : UInt16).toNat = 65 := rfl
  have hZ : (90 : UInt16).toNat = 90 := rfl
  have hshift : (32 : UInt16).toNat = 32 := rfl
  unfold unitToLower
  simp only [UInt16.le_iff_toNat_le, hA, hZ]
  split
  · rw [UInt16.toNat_add, hshift]
    omega
  · rfl

theorem toNat_charOfNat {n : Nat} (h : n.isValidChar) : (Char.ofNat n).toNat = n := by
  rw [Char.ofNat, dif_pos h]
  rfl

theorem isHighSurrogate_iff {unit : UInt16} :
    isHighSurrogate unit = true ↔ 0xd800 ≤ unit.toNat ∧ unit.toNat < 0xdc00 := by
  rw [isHighSurrogate, Bool.and_eq_true, decide_eq_true_eq, decide_eq_true_eq,
    UInt16.le_iff_toNat_le, UInt16.lt_iff_toNat_lt]
  exact Iff.rfl

theorem isLowSurrogate_iff {unit : UInt16} :
    isLowSurrogate unit = true ↔ 0xdc00 ≤ unit.toNat ∧ unit.toNat < 0xe000 := by
  rw [isLowSurrogate, Bool.and_eq_true, decide_eq_true_eq, decide_eq_true_eq,
    UInt16.le_iff_toNat_le, UInt16.lt_iff_toNat_lt]
  exact Iff.rfl

/-- A unit below `0x80` is a character of its own. -/
theorem fromUtf16Lossy_ascii {unit : UInt16} (h : unit.toNat < 128) (rest : List UInt16) :
    fromUtf16Lossy (unit :: rest) = Char.ofNat unit.toNat :: fromUtf16Lossy rest := by
  have hhigh : isHighSurrogate unit = false := by
    rw [Bool.eq_false_iff, ne_eq, isHighSurrogate_iff]
    omega
  have hlow : isLowSurrogate unit = false := by
    rw [Bool.eq_false_iff, ne_eq, isLowSurrogate_iff]
    omega
  cases rest with
  | nil => simp [fromUtf16Lossy, hhigh, hlow]
  | cons next rest => simp [fromUtf16Lossy, hhigh, hlow]

/-- Any other unit begins with a character that is not ASCII. -/
theorem fromUtf16Lossy_nonascii {unit : UInt16} (h : 128 ≤ unit.toNat) (rest : List UInt16) :
    ∃ c text, fromUtf16Lossy (unit :: rest) = c :: text ∧ 128 ≤ c.toNat := by
  have hreplaced : 128 ≤ replacementCharacter.toNat := by decide
  have hsingle : (isHighSurrogate unit || isLowSurrogate unit) ≠ true →
      128 ≤ (Char.ofNat unit.toNat).toNat := by
    intro hplain
    rw [ne_eq, Bool.or_eq_true, isHighSurrogate_iff, isLowSurrogate_iff] at hplain
    have hlt := unit.toNat_lt
    rw [toNat_charOfNat (by unfold Nat.isValidChar; omega)]
    exact h
  cases rest with
  | nil =>
    rw [fromUtf16Lossy]
    split
    · exact ⟨_, _, rfl, hreplaced⟩
    · next hplain => exact ⟨_, _, rfl, hsingle hplain⟩
  | cons next rest =>
    rw [fromUtf16Lossy]
    split
    · next hpair =>
      rw [Bool.and_eq_true, isHighSurrogate_iff, isLowSurrogate_iff] at hpair
      refine ⟨_, _, rfl, ?_⟩
      rw [pairChar, toNat_charOfNat (by unfold Nat.isValidChar; omega)]
      omega
    · split
      · exact ⟨_, _, rfl, hreplaced⟩
      · next hplain => exact ⟨_, _, rfl, hsingle hplain⟩

/-- Units below `0x80` are a text of their own, -/
theorem fromUtf16Lossy_of_ascii {units : List UInt16} (h : ∀ unit ∈ units, unit.toNat < 128) :
    fromUtf16Lossy units = units.map fun unit => Char.ofNat unit.toNat := by
  induction units with
  | nil => rfl
  | cons unit rest ih =>
    obtain ⟨hunit, hrest⟩ := List.forall_mem_cons.mp h
    rw [fromUtf16Lossy_ascii hunit, ih hrest, List.map_cons]

/-- and no other units are an ASCII text. -/
theorem ascii_of_fromUtf16Lossy {units : List UInt16}
    (h : ∀ c ∈ fromUtf16Lossy units, c.toNat < 128) : ∀ unit ∈ units, unit.toNat < 128 := by
  induction units with
  | nil =>
    intro unit hunit
    cases hunit
  | cons unit rest ih =>
    rcases Nat.lt_or_ge unit.toNat 128 with hunit | hunit
    · rw [fromUtf16Lossy_ascii hunit] at h
      exact List.forall_mem_cons.mpr ⟨hunit, ih (List.forall_mem_cons.mp h).2⟩
    · obtain ⟨c, text, htext, hc⟩ := fromUtf16Lossy_nonascii hunit rest
      rw [htext] at h
      exact absurd (h c List.mem_cons_self) (Nat.not_lt.mpr hc)

/-- An ASCII text has one spelling. -/
theorem fromUtf16Lossy_eq_ascii {units : List UInt16} {text : List Char}
    (htext : ∀ c ∈ text, c.toNat < 128) :
    fromUtf16Lossy units = text ↔ units = asciiUnits text := by
  constructor
  · rintro rfl
    have hunits := ascii_of_fromUtf16Lossy htext
    rw [fromUtf16Lossy_of_ascii hunits, asciiUnits, List.map_map]
    refine ((List.map_congr_left fun unit hunit => ?_).trans (List.map_id units)).symm
    have hlt := hunits unit hunit
    rw [Function.comp_apply, id, ← UInt16.toNat_inj,
      toNat_charOfNat (by unfold Nat.isValidChar; omega), UInt16.toNat_ofNat',
      Nat.mod_eq_of_lt (by omega)]
  · rintro rfl
    have hunit : ∀ c ∈ text, (UInt16.ofNat c.toNat).toNat = c.toNat := by
      intro c hc
      have hlt := htext c hc
      rw [UInt16.toNat_ofNat', Nat.mod_eq_of_lt (by omega)]
    have hunits : ∀ unit ∈ asciiUnits text, unit.toNat < 128 := by
      rw [asciiUnits, List.forall_mem_map]
      intro c hc
      rw [hunit c hc]
      exact htext c hc
    rw [fromUtf16Lossy_of_ascii hunits, asciiUnits, List.map_map]
    refine (List.map_congr_left fun c hc => ?_).trans (List.map_id text)
    rw [Function.comp_apply, id, hunit c hc, Char.ofNat_toNat]

/-- A character and a unit that are ASCII are equal up to case together. -/
theorem lower_eq_iff {unit : UInt16} {c : Char} (hunit : unit.toNat < 128) (hc : c.toNat < 128) :
    (Char.ofNat unit.toNat).toLower = c.toLower ↔
      unitToLower unit = unitToLower (UInt16.ofNat c.toNat) := by
  rw [← Char.toNat_inj, ← UInt16.toNat_inj, toNat_charToLower, toNat_charToLower, toNat_unitToLower,
    toNat_unitToLower, toNat_charOfNat (by unfold Nat.isValidChar; omega), UInt16.toNat_ofNat',
    Nat.mod_eq_of_lt (by omega)]

theorem eqIgnoreAsciiCase_lossy : ∀ (name : List UInt16) (text : List Char),
    (∀ c ∈ text, c.toNat < 128) → (eqIgnoreAsciiCase (fromUtf16Lossy name) text = true ↔
      name.map unitToLower = (asciiUnits text).map unitToLower) := by
  intro name
  induction name with
  | nil =>
    intro text _
    cases text <;> simp [fromUtf16Lossy, eqIgnoreAsciiCase, asciiUnits]
  | cons unit rest ih =>
    intro text htext
    cases text with
    | nil =>
      rcases Nat.lt_or_ge unit.toNat 128 with hunit | hunit
      · simp [fromUtf16Lossy_ascii hunit, eqIgnoreAsciiCase, asciiUnits]
      · obtain ⟨first, others, hlossy, _⟩ := fromUtf16Lossy_nonascii hunit rest
        simp [hlossy, eqIgnoreAsciiCase, asciiUnits]
    | cons c text =>
      have hc : c.toNat < 128 := htext c List.mem_cons_self
      have hrest := ih text fun d hd => htext d (List.mem_cons_of_mem c hd)
      rw [eqIgnoreAsciiCase, beq_iff_eq] at hrest ⊢
      have hunits : asciiUnits (c :: text) = UInt16.ofNat c.toNat :: asciiUnits text := rfl
      rw [hunits, List.map_cons, List.map_cons, List.map_cons, List.cons.injEq, ← hrest]
      rcases Nat.lt_or_ge unit.toNat 128 with hunit | hunit
      · rw [fromUtf16Lossy_ascii hunit, List.map_cons, List.cons.injEq, lower_eq_iff hunit hc]
      · obtain ⟨first, others, hlossy, hfirst⟩ := fromUtf16Lossy_nonascii hunit rest
        rw [hlossy, List.map_cons, List.cons.injEq]
        -- neither the character nor the unit is what an ASCII one has for lower case
        have hchar : first.toLower ≠ c.toLower := by
          rw [ne_eq, ← Char.toNat_inj, toNat_charToLower, toNat_charToLower]
          split <;> split <;> omega
        have hunit' : unitToLower unit ≠ unitToLower (UInt16.ofNat c.toNat) := by
          rw [ne_eq, ← UInt16.toNat_inj, toNat_unitToLower, toNat_unitToLower, UInt16.toNat_ofNat',
            Nat.mod_eq_of_lt (by omega)]
          split <;> split <;> omega
        exact iff_of_false (fun h => hchar h.1) (fun h => hunit' h.1)

theorem ignoredVariable_ascii : ∀ c ∈ ignoredVariable, c.toNat < 128 := by
  have h : ignoredVariable.all (fun c => decide (c.toNat < 128)) = true := rfl
  simpa only [List.all_eq_true, decide_eq_true_eq] using h

/-- The test of the loop, on the units of the name. -/
theorem ignored_iff (entry : List UInt16) :
    eqIgnoreAsciiCase (fromUtf16Lossy (entryName entry)) ignoredVariable = true ↔
      NamesIgnored entry :=
  eqIgnoreAsciiCase_lossy _ _ ignoredVariable_ascii

end

/-! ## Blocks -/

section

/-- An entry that is not left out. -/
def Kept (entry : Entry (0 : UInt16)) : Prop := ¬NamesIgnored entry.units

instance (entry : Entry (0 : UInt16)) : Decidable (Kept entry) :=
  inferInstanceAs (Decidable (¬_))

theorem keepEntries_eq : ∀ (entries : List (Entry (0 : UInt16))) (result : List UInt16),
    keepEntries (entries.map Entry.units) result =
      result ++ Entry.body (entries.filter fun entry => Kept entry) := by
  intro entries
  induction entries with
  | nil =>
    intro result
    exact (List.append_nil result).symm
  | cons entry entries ih =>
    intro result
    rw [List.map_cons, keepEntries]
    by_cases hname : NamesIgnored entry.units
    · rw [if_pos ((ignored_iff _).mpr hname), ih, List.filter_cons_of_neg (by simp [Kept, hname])]
    · rw [if_neg (fun h => hname ((ignored_iff _).mp h)), ih,
        List.filter_cons_of_pos (by simp [Kept, hname]), Entry.body, Entry.body, List.flatMap_cons,
        List.append_assoc, List.append_assoc, List.append_assoc]

/-- The block of the entries that are kept, whatever stands in the block. -/
theorem leasedEnvironmentBlock_eq (environment : List UInt16) :
    leasedEnvironmentBlock environment =
      Entry.encode ((Entry.decode 0 environment).filter fun entry => Kept entry) := by
  have hpieces : (environment.splitOnP (· == 0)).takeWhile (!·.isEmpty) =
      (Entry.decode 0 environment).map Entry.units := (Entry.units_decode environment).symm
  rw [leasedEnvironmentBlock, hpieces, keepEntries_eq, List.nil_append, Entry.encode]
  split
  · next hempty => rw [List.isEmpty_iff.mp hempty, List.nil_append]
  · rfl

theorem environmentLength_skip {tail : List UInt16} (htail : tail ≠ []) : ∀ units : List UInt16,
    0 ∉ units → environmentLength (units ++ tail) =
      (environmentLength tail).map (· + units.length) := by
  intro units
  induction units with
  | nil =>
    intro _
    exact (Option.map_id' ..).symm
  | cons unit units ih =>
    intro hfree
    have hunit : unit ≠ 0 := by
      intro h
      exact hfree (h ▸ List.mem_cons_self)
    obtain ⟨second, rest, hsplit⟩ : ∃ second rest, units ++ tail = second :: rest :=
      List.exists_cons_of_ne_nil (by simp [htail])
    rw [List.cons_append, hsplit, environmentLength, if_pos (.inl hunit), ← hsplit,
      ih fun h => hfree (List.mem_cons_of_mem unit h), Option.map_map]
    congr 1

theorem environmentLength_body (rest : List UInt16) : ∀ entries : List (Entry (0 : UInt16)),
    entries ≠ [] → environmentLength (Entry.body entries ++ 0 :: rest) =
      some ((Entry.body entries).length - 1) := by
  intro entries
  induction entries with
  | nil =>
    intro h
    exact absurd rfl h
  | cons entry entries ih =>
    intro _
    have hbody : Entry.body (entry :: entries) ++ 0 :: rest =
        entry.units ++ 0 :: (Entry.body entries ++ 0 :: rest) := by
      rw [Entry.body, List.flatMap_cons, Entry.body, List.append_assoc, List.append_assoc]
      rfl
    have hlen : (Entry.body (entry :: entries)).length =
        entry.units.length + 1 + (Entry.body entries).length := by
      rw [Entry.body, List.flatMap_cons, List.length_append, List.length_append, Entry.body]
      rfl
    rw [hbody, hlen, environmentLength_skip (by simp) _ entry.free]
    cases entries with
    | nil =>
      show some (0 + entry.units.length) = some (entry.units.length + 1 + 0 - 1)
      rw [Nat.zero_add]
      rfl
    | cons second entries =>
      -- the next entry begins with a unit that is not zero
      obtain ⟨unit, units, hunits⟩ := List.exists_cons_of_ne_nil second.nonempty
      have hunit : unit ≠ 0 := by
        intro h
        apply second.free
        rw [hunits, h]
        exact List.mem_cons_self
      obtain ⟨more, hmore⟩ : ∃ more, Entry.body (second :: entries) = unit :: more := by
        rw [Entry.body, List.flatMap_cons, hunits]
        exact ⟨_, rfl⟩
      have hrest := ih (List.cons_ne_nil _ _)
      rw [hmore, List.cons_append] at hrest
      rw [hmore, List.cons_append, environmentLength, if_pos (.inr hunit), hrest, Option.map_some,
        Option.map_some, List.length_cons]
      congr 1
      omega

theorem environmentLength_encode (entries : List (Entry (0 : UInt16))) (rest : List UInt16) :
    environmentLength (Entry.encode entries ++ rest) =
      some ((Entry.encode entries).length - 2) := by
  rw [Entry.encode]
  split
  · rfl
  · next hbody =>
    have hne : entries ≠ [] := by
      intro h
      rw [h] at hbody
      exact hbody rfl
    rw [List.append_assoc, List.length_append]
    exact environmentLength_body rest entries hne

end

/-- **Environment filtering is exact**: of the entries of a block exactly those that name the
    variable are missing from what is left, which is a block again, ends with its first two zeros
    and has nothing more to lose. -/
theorem environmentFiltering (entries : List (Entry (0 : UInt16))) :
    let kept := entries.filter fun entry => Kept entry
    let block := leasedEnvironmentBlock (Entry.encode entries)
    Entry.decode 0 block = kept ∧ block = Entry.encode kept ∧
      (∀ rest, environmentLength (block ++ rest) = some (block.length - 2)) ∧
      leasedEnvironmentBlock block = block := by
  intro kept block
  have hblock : block = Entry.encode kept := by
    show leasedEnvironmentBlock (Entry.encode entries) = _
    rw [leasedEnvironmentBlock_eq, Entry.decode_encode]
  refine ⟨?_, hblock, ?_, ?_⟩
  · rw [hblock, Entry.decode_encode]
  · intro rest
    rw [hblock]
    exact environmentLength_encode kept rest
  · have htwice : kept.filter (fun entry => Kept entry) = kept := by
      show (entries.filter fun entry => Kept entry).filter _ = _
      rw [List.filter_filter]
      simp only [Bool.and_self]
      rfl
    rw [hblock, leasedEnvironmentBlock_eq, Entry.decode_encode, htwice]

end Launch
end SteamInputLease
