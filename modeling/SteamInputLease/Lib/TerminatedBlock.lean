import Mathlib.Data.List.Basic

/-!
# Blocks of terminated entries

A list of entries in one list of units: each entry with a terminator behind it, and one more
terminator behind the last; without entries the block is two terminators. An entry is not empty
and does not contain the terminator, so that the block can be taken apart again, whatever stands
behind it.
-/

namespace SteamInputLease
namespace Lib

/-- The units of one entry. -/
structure Entry {α : Type} (nul : α) where
  units : List α
  nonempty : units ≠ []
  free : nul ∉ units
  deriving DecidableEq

namespace Entry

section

variable {α : Type} [DecidableEq α] {nul : α}

/-- What stands between terminators, up to the first time that is nothing. -/
def pieces (nul : α) (block : List α) : List (List α) :=
  (block.splitOn nul).takeWhile (!·.isEmpty)

/-- Each entry with its terminator. -/
def body (entries : List (Entry nul)) : List α := entries.flatMap fun entry => entry.units ++ [nul]

def encode (entries : List (Entry nul)) : List α :=
  (if (body entries).isEmpty then [nul] else body entries) ++ [nul]

theorem free_of_mem_splitOn : ∀ {block units : List α}, units ∈ block.splitOn nul →
    nul ∉ units := by
  intro block
  induction block with
  | nil =>
    intro units h
    have hnil : units = [] := List.mem_singleton.mp h
    rw [hnil]
    exact List.not_mem_nil
  | cons unit block ih =>
    intro units h
    rw [List.splitOn_cons_eq_if_modifyHead] at h
    split at h
    · rcases List.mem_cons.mp h with rfl | h
      · exact List.not_mem_nil
      · exact ih h
    · next hunit =>
      obtain ⟨first, rest, hsplit⟩ := List.exists_cons_of_ne_nil (List.splitOn_ne_nil nul block)
      rw [hsplit] at h ih
      rcases List.mem_cons.mp h with rfl | h
      · intro hmem
        rcases List.mem_cons.mp hmem with heq | hmem
        · exact hunit (beq_iff_eq.mpr heq.symm)
        · exact ih List.mem_cons_self hmem
      · exact ih (List.mem_cons_of_mem first h)

theorem of_mem_pieces {block units : List α} (h : units ∈ pieces nul block) :
    units ≠ [] ∧ nul ∉ units := by
  constructor
  · have hne := List.all_eq_true.mp List.all_takeWhile units h
    intro hnil
    rw [hnil] at hne
    cases hne
  · exact free_of_mem_splitOn ((List.takeWhile_subset _) h)

/-- The entries of a block. -/
def decode (nul : α) (block : List α) : List (Entry nul) :=
  (pieces nul block).pmap (fun units h => ⟨units, h.1, h.2⟩) fun _ h => of_mem_pieces h

theorem units_decode (block : List α) : (decode nul block).map units = pieces nul block := by
  rw [decode, List.map_pmap, List.pmap_eq_map, List.map_id']

theorem pieces_body (rest : List α) : ∀ entries : List (Entry nul),
    pieces nul (body entries ++ nul :: rest) = entries.map units := by
  intro entries
  induction entries with
  | nil =>
    have hsplit : ([] ++ nul :: rest).splitOn nul = [] :: rest.splitOn nul :=
      List.splitOn_append_cons_self_of_not_mem List.not_mem_nil rest
    rw [body, List.flatMap_nil, pieces, hsplit]
    rfl
  | cons entry entries ih =>
    have hbody : body (entry :: entries) ++ nul :: rest =
        entry.units ++ nul :: (body entries ++ nul :: rest) := by
      rw [body, List.flatMap_cons, body, List.append_assoc, List.append_assoc]
      rfl
    rw [pieces] at ih ⊢
    rw [hbody, List.splitOn_append_cons_self_of_not_mem entry.free,
      List.takeWhile_cons_of_pos (by simp [entry.nonempty]), ih, List.map_cons]

omit [DecidableEq α] in
theorem body_eq_nil {entries : List (Entry nul)} : body entries = [] ↔ entries = [] := by
  cases entries with
  | nil => exact iff_of_true rfl rfl
  | cons entry entries => simp [body]

theorem pieces_encode (entries : List (Entry nul)) :
    pieces nul (encode entries) = entries.map units := by
  rw [encode]
  split
  · next hempty =>
    rw [body_eq_nil.mp (List.isEmpty_iff.mp hempty)]
    exact pieces_body [nul] []
  · exact pieces_body [] entries

omit [DecidableEq α] in
theorem units_injective : Function.Injective (units : Entry nul → List α) := by
  intro a b h
  cases a
  cases b
  cases h
  rfl

/-- A block is taken apart into what it was put together from. -/
theorem decode_encode (entries : List (Entry nul)) : decode nul (encode entries) = entries := by
  apply List.map_injective_iff.mpr units_injective
  rw [units_decode, pieces_encode]

end

end Entry

end Lib
end SteamInputLease
