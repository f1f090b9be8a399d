import Mathlib.Data.List.Basic

/-!
# Boundaries in UTF-8

A character is encoded as one leading byte and bytes that continue it, so that the boundaries of
an encoded text can be told from the bytes alone: they are the lengths of its encoded prefixes.
-/

namespace SteamInputLease
namespace Lib
namespace Utf8

/-- The bytes of a text. -/
def encode (text : List Char) : List UInt8 := text.flatMap String.utf8EncodeChar

/-- A byte behind the first one of its character. -/
def Continues (byte : UInt8) : Prop := 0x80 ≤ byte.toNat ∧ byte.toNat < 0xc0

instance (byte : UInt8) : Decidable (Continues byte) := inferInstanceAs (Decidable (_ ∧ _))

/-- A character begins at `index`, or the text ends there. -/
def Boundary (bytes : List UInt8) (index : Nat) : Prop :=
  index = bytes.length ∨ ∃ byte, bytes[index]? = some byte ∧ ¬Continues byte

theorem encode_nil : encode [] = [] := rfl

theorem encode_cons (c : Char) (text : List Char) :
    encode (c :: text) = String.utf8EncodeChar c ++ encode text := rfl

theorem encode_append (before after : List Char) :
    encode (before ++ after) = encode before ++ encode after := List.flatMap_append

theorem encode_eq_nil {text : List Char} (h : (encode text).length = 0) : text = [] := by
  cases text with
  | nil => rfl
  | cons c text =>
    rw [encode_cons, List.length_append, String.length_utf8EncodeChar] at h
    have hpos := c.utf8Size_pos
    omega

/-- One leading byte, and bytes that continue it. -/
theorem encodeChar_shape (c : Char) : ∃ first rest, String.utf8EncodeChar c = first :: rest ∧
    ¬Continues first ∧ ∀ byte ∈ rest, Continues byte := by
  have hc := c.val.toNat_lt
  have hcont : ∀ n, n < 0x40 → Continues (UInt8.ofNat (n + 0x80)) := by
    intro n hn
    rw [Continues, UInt8.toNat_ofNat', Nat.mod_eq_of_lt (by omega)]
    omega
  have hfirst : ∀ n, n < 0x80 ∨ 0xc0 ≤ n ∧ n < 0x100 → ¬Continues (UInt8.ofNat n) := by
    intro n hn
    rw [Continues, UInt8.toNat_ofNat', Nat.mod_eq_of_lt (by omega)]
    omega
  unfold String.utf8EncodeChar
  dsimp only
  split
  · exact ⟨_, _, rfl, hfirst _ (by omega), by simp⟩
  split
  · refine ⟨_, _, rfl, hfirst _ (by omega), ?_⟩
    simp only [List.mem_singleton, forall_eq]
    exact hcont _ (by omega)
  split
  · refine ⟨_, _, rfl, hfirst _ (by omega), ?_⟩
    simp only [List.mem_cons, List.not_mem_nil, or_false, forall_eq_or_imp, forall_eq]
    exact ⟨hcont _ (by omega), hcont _ (by omega)⟩
  · refine ⟨_, _, rfl, hfirst _ (by omega), ?_⟩
    simp only [List.mem_cons, List.not_mem_nil, or_false, forall_eq_or_imp, forall_eq]
    exact ⟨hcont _ (by omega), hcont _ (by omega), hcont _ (by omega)⟩

/-- Where an encoded text has its boundaries. -/
theorem boundary_iff : ∀ (text : List Char) (index : Nat), Boundary (encode text) index ↔
    ∃ before after, text = before ++ after ∧ index = (encode before).length := by
  intro text
  induction text with
  | nil =>
    intro index
    constructor
    · rintro (h | ⟨byte, h, _⟩)
      · exact ⟨[], [], rfl, h⟩
      · cases h
    · intro h
      obtain ⟨before, after, htext, hindex⟩ := h
      obtain ⟨rfl, rfl⟩ := List.append_eq_nil_iff.mp htext.symm
      exact .inl hindex
  | cons c text ih =>
    intro index
    obtain ⟨first, rest, hchar, hfirst, hrest⟩ := encodeChar_shape c
    have hlen : (String.utf8EncodeChar c).length = rest.length + 1 := by
      rw [hchar, List.length_cons]
    rw [encode_cons]
    rcases Nat.lt_or_ge index (rest.length + 1) with hin | hout
    · -- inside the first character only its first byte is a boundary
      have hget : (String.utf8EncodeChar c ++ encode text)[index]? =
          (String.utf8EncodeChar c)[index]? := List.getElem?_append_left (by omega)
      have hne : index ≠ (String.utf8EncodeChar c ++ encode text).length := by
        rw [List.length_append]
        omega
      rw [Boundary, or_iff_right hne, hget, hchar]
      cases index with
      | zero =>
        refine iff_of_true ⟨first, rfl, hfirst⟩ ⟨[], c :: text, rfl, rfl⟩
      | succ index =>
        refine iff_of_false ?_ ?_
        · intro h
          obtain ⟨byte, hbyte, hnot⟩ := h
          exact hnot (hrest byte (List.mem_of_getElem? hbyte))
        · intro h
          obtain ⟨before, after, htext, hindex⟩ := h
          cases before with
          | nil => cases hindex
          | cons d before =>
            cases htext
            rw [encode_cons, List.length_append] at hindex
            omega
    · -- behind it, the boundaries are those of the rest
      obtain ⟨k, rfl⟩ := Nat.exists_eq_add_of_le hout
      have hshift : Boundary (String.utf8EncodeChar c ++ encode text) (rest.length + 1 + k) ↔
          Boundary (encode text) k := by
        rw [Boundary, Boundary, List.length_append, hlen, Nat.add_left_cancel_iff,
          List.getElem?_append_right (by omega), hlen, Nat.add_sub_cancel_left]
      rw [hshift, ih]
      constructor
      · intro h
        obtain ⟨before, after, htext, hk⟩ := h
        refine ⟨c :: before, after, by rw [htext, List.cons_append], ?_⟩
        rw [encode_cons, List.length_append, hlen, hk]
      · intro h
        obtain ⟨before, after, htext, hk⟩ := h
        cases before with
        | nil =>
          rw [encode_nil, List.length_nil] at hk
          omega
        | cons d before =>
          cases htext
          rw [encode_cons, List.length_append] at hk
          exact ⟨before, after, rfl, by omega⟩

/-- Of two prefixes of a text, the one that is not longer in bytes is a prefix of the other. -/
theorem prefix_of_length_le {a b text : List Char} (ha : a <+: text) (hb : b <+: text)
    (h : (encode a).length ≤ (encode b).length) : a <+: b := by
  rcases List.prefix_or_prefix_of_prefix ha hb with hab | hba
  · exact hab
  · obtain ⟨more, rfl⟩ := hba
    rw [encode_append, List.length_append] at h
    have hmore : more = [] := encode_eq_nil (by omega)
    subst hmore
    exact ⟨[], by rw [List.append_nil, List.append_nil]⟩

theorem eq_zero_of_mem_encodeChar {c : Char} (h : 0 ∈ String.utf8EncodeChar c) : c = '\x00' := by
  have hpos : ∀ n, n < 0x100 → 0 < n → (0 : UInt8) ≠ UInt8.ofNat n := by
    intro n hlt hn h
    have hnat := congrArg UInt8.toNat h
    rw [UInt8.toNat_ofNat', Nat.mod_eq_of_lt (by omega)] at hnat
    exact Nat.ne_of_lt hn hnat
  unfold String.utf8EncodeChar at h
  dsimp only at h
  split at h
  · next hsmall =>
    have hzero : c.val.toNat = 0 := by
      apply Decidable.byContradiction
      intro hne
      exact hpos _ (by omega) (Nat.pos_of_ne_zero hne) (List.mem_singleton.mp h)
    rw [← Char.toNat_inj]
    exact hzero
  · -- the bytes of a longer character have their top bit set
    split at h
    · simp only [List.mem_cons, List.not_mem_nil, or_false] at h
      rcases h with h | h <;> exact absurd h (hpos _ (by omega) (by omega))
    split at h
    · simp only [List.mem_cons, List.not_mem_nil, or_false] at h
      rcases h with h | h | h <;> exact absurd h (hpos _ (by omega) (by omega))
    · simp only [List.mem_cons, List.not_mem_nil, or_false] at h
      rcases h with h | h | h | h <;> exact absurd h (hpos _ (by omega) (by omega))

/-- The zero byte is in a text only as the zero character. -/
theorem zero_not_mem {text : List Char} (h : '\x00' ∉ text) : 0 ∉ encode text := by
  intro hmem
  obtain ⟨c, hc, hzero⟩ := List.mem_flatMap.mp hmem
  rw [eq_zero_of_mem_encodeChar hzero] at hc
  exact h hc

/-! ## ASCII -/

theorem encodeChar_of_ascii {c : Char} (h : c.toNat < 0x80) :
    String.utf8EncodeChar c = [UInt8.ofNat c.toNat] := by
  unfold String.utf8EncodeChar
  dsimp only
  rw [if_pos (show c.val.toNat ≤ 0x7f by exact Nat.le_of_lt_succ h)]
  rfl

/-- The first byte of a longer character has its top bit set. -/
theorem encodeChar_ascii {c : Char} :
    (∀ byte ∈ String.utf8EncodeChar c, byte.toNat < 0x80) ↔ c.toNat < 0x80 := by
  constructor
  · intro h
    by_contra hc
    have hbig : ∀ n, 0x80 ≤ n → n < 0x100 → ¬(UInt8.ofNat n).toNat < 0x80 := by
      intro n hn hlt
      rw [UInt8.toNat_ofNat', Nat.mod_eq_of_lt (by omega)]
      omega
    have hval := c.val.toNat_lt
    unfold String.utf8EncodeChar at h
    dsimp only at h
    split at h
    · next hsmall => exact hc (Nat.lt_succ_of_le hsmall)
    split at h
    · exact hbig _ (by omega) (by omega) (h _ List.mem_cons_self)
    split at h
    · exact hbig _ (by omega) (by omega) (h _ List.mem_cons_self)
    · exact hbig _ (by omega) (by omega) (h _ List.mem_cons_self)
  · intro h byte hb
    rw [encodeChar_of_ascii h, List.mem_singleton] at hb
    rw [hb, UInt8.toNat_ofNat', Nat.mod_eq_of_lt (by omega)]
    exact h

theorem encode_ascii {text : List Char} :
    (∀ byte ∈ encode text, byte.toNat < 0x80) ↔ ∀ c ∈ text, c.toNat < 0x80 := by
  simp only [encode, List.mem_flatMap, forall_exists_index, and_imp]
  constructor
  · exact fun h c hc => encodeChar_ascii.mp fun byte hb => h byte c hc hb
  · exact fun h byte c hc hb => encodeChar_ascii.mpr (h c hc) byte hb

theorem encode_of_ascii {text : List Char} (h : ∀ c ∈ text, c.toNat < 0x80) :
    encode text = text.map fun c => UInt8.ofNat c.toNat := by
  induction text with
  | nil => rfl
  | cons c text ih =>
    obtain ⟨hc, htext⟩ := List.forall_mem_cons.mp h
    rw [encode_cons, encodeChar_of_ascii hc, ih htext]
    rfl

end Utf8
end Lib
end SteamInputLease
