import SteamInputLease.Gate.Enumeration
import SteamInputLease.Proof.Gate.Sweep

/-!
# An enumeration trusts no number of the kernel

The lengths the kernel asks for decide how far the buffer grows and nothing else: a query is told
the length of the buffer it is given, the limit holds for every buffer, and the entries are counted
by what the buffer has room for. One lemma says what a round does, and the rounds follow by
induction.

Two more things are said of the same functions. A kernel that asks for a fixed length within the
limit is satisfied, by the second query at the latest, because the next buffer is at least as long
as it asked for. And the revocation as a whole is put together here: each of the two enumerations
gives a list that its buffer holds or has a reason to give none (`Unlisted`), the second one is
tried where the first gives none, and what is swept is that list. `revocation_complete` reads it off
the log, with the calls of the sweep as `Sweep` describes them; nothing is assumed there of what the
kernel answers to a query.
-/

namespace SteamInputLease
namespace Gate

open Lib Lib.Program
open Recovery (satAdd satMul slice u32Max u32TryFrom usizeMax)

def EnumerationCall.isQuery : EnumerationCall → Bool
  | .query _ _ _ => true
  | _ => false

/-- A query is told the length of its buffer, which is initialised and within the limit. -/
def EnumerationCall.Sized : EnumerationCall → Prop
  | .query _ buffer length =>
    buffer = .replicate buffer.length 0 ∧ length = 8 * buffer.length ∧
      length ≤ 8 * divCeil handleQueryLimit 8
  | _ => True

/-- The kernel needs `need` bytes and says so: a shorter buffer is a mismatch with that length,
    any other succeeds. Allocations succeed. -/
def AnswersNeed (need : Nat) : EnumerationCall × EnumerationAnswer → Prop
  | (.query _ _ length, answer) =>
    (length < need → answer.status = statusInfoLengthMismatch ∧ answer.required.toNat = need) ∧
      (need ≤ length → 0 ≤ answer.status)
  | (.tryReserveExact _, answer) => answer.spare.isSome = true
  | _ => True

/-- The count at the start of the buffer, no more than the rest of it has room for. -/
def entryCount (size : Nat) (buffer : List UInt64) : Nat :=
  min (buffer.headD 0).toNat ((8 * buffer.length - entriesOffset) / size)

/-- The entries that are yielded lie in the buffer, whatever count it starts with. -/
def EntriesInside (size : Nat) (buffer : List UInt64) : Prop :=
  ∃ entries, handleEntries size buffer = .ok entries ∧
    entries.length = entryCount size buffer ∧
    ∀ (i : Nat) (entry : List UInt8), entries[i]? = some entry →
      entriesOffset + (i + 1) * size ≤ 8 * buffer.length ∧
        entry = slice (bufferBytes buffer) (entriesOffset + i * size) size

/-- What the rounds call, and where their buffer comes from. -/
structure QueryRun (query : HandleQuery) (rounds : Nat)
    (log : List (EnumerationCall × EnumerationAnswer)) (result : Option (List UInt64)) : Prop where
  few : log.countP (fun p => p.1.isQuery) ≤ rounds
  sized : ∀ p ∈ log, p.1.Sized
  succeeded : ∀ buffer, result = some buffer →
    ∃ (before : List (EnumerationCall × EnumerationAnswer)) (data : List UInt64)
      (answer : EnumerationAnswer),
      log = before ++ [(.query query data (8 * data.length), answer)] ∧ 0 ≤ answer.status ∧
        buffer = answer.reply data

/-- What is promised of `query_until_sized` and `handle_entries`. -/
structure Enumerated (query : HandleQuery) (initial : Nat)
    (log : List (EnumerationCall × EnumerationAnswer)) (result : Option (List UInt64)) : Prop
    extends QueryRun query 6 log result where
  entries : ∀ buffer, result = some buffer → ∀ size, EntriesInside size buffer
  answered : ∀ need, (∀ p ∈ log, AnswersNeed need p) → need + 65536 ≤ handleQueryLimit →
    initial ≤ handleQueryLimit → result.isSome = true

/-! ## Buffers -/

theorem le_divCeil (a : Nat) : a ≤ 8 * divCeil a 8 := by
  rw [divCeil]
  split <;> omega

theorem divCeil_lt (a : Nat) : 8 * divCeil a 8 < a + 8 := by
  rw [divCeil]
  split <;> omega

/-- The buffer of a round is as long as the query is told. -/
theorem queryLength_replicate {capacity : Nat} (h : capacity ≤ handleQueryLimit) :
    queryLength (.replicate (divCeil capacity 8) 0) = 8 * divCeil capacity 8 := by
  have hlt := divCeil_lt capacity
  have hlimit : handleQueryLimit = 2 ^ 28 := rfl
  have hfits : 8 * divCeil capacity 8 < 2 ^ 32 := by omega
  rw [queryLength, List.length_replicate, u32TryFrom, if_pos hfits]
  rfl

theorem sized_replicate (query : HandleQuery) {capacity : Nat} (h : capacity ≤ handleQueryLimit) :
    (EnumerationCall.query query (.replicate (divCeil capacity 8) 0)
      (queryLength (.replicate (divCeil capacity 8) 0))).Sized := by
  have hlt := divCeil_lt capacity
  have hlimit : 8 * divCeil handleQueryLimit 8 = 2 ^ 28 := rfl
  have hvalue : handleQueryLimit = 2 ^ 28 := rfl
  rw [queryLength_replicate h]
  refine ⟨?_, ?_, by omega⟩ <;> rw [List.length_replicate]

/-! ## Rounds -/

/-- A part of the log without queries. -/
def Quiet (log : List (EnumerationCall × EnumerationAnswer)) : Prop :=
  ∀ p ∈ log, p.1.isQuery = false

theorem Quiet.nil : Quiet [] := by
  intro p hp
  cases hp

theorem Quiet.single {call : EnumerationCall} {answer : EnumerationAnswer}
    (h : call.isQuery = false) : Quiet [(call, answer)] := by
  intro p hp
  obtain rfl := List.mem_singleton.mp hp
  exact h

theorem Quiet.countP {log : List (EnumerationCall × EnumerationAnswer)} (h : Quiet log) :
    log.countP (fun p => p.1.isQuery) = 0 := by
  rw [List.countP_eq_zero]
  intro p hp
  rw [h p hp]
  exact Bool.false_ne_true

theorem EnumerationCall.Sized.of_quiet {call : EnumerationCall} (h : call.isQuery = false) :
    call.Sized := by
  cases call with
  | query query buffer length => cases h
  | _ => trivial

/-- An allocation failed. -/
def Unallocated (log : List (EnumerationCall × EnumerationAnswer)) : Prop :=
  ∃ elements answer, (EnumerationCall.tryReserveExact elements, answer) ∈ log ∧ answer.spare = none

/-- `reserve` asks nobody but the allocator, and fails only where the allocator does. -/
theorem reserve_yields (elements allocated : Nat) :
    Yields (fun log result => Quiet log ∧ (result = none → Unallocated log))
      (reserve elements allocated) := by
  rw [reserve]
  split
  · refine .ask fun answer => .pure ⟨.single rfl, fun h => ?_⟩
    exact ⟨elements, answer, List.mem_cons_self, Option.map_eq_none_iff.mp h⟩
  · exact .pure ⟨.nil, fun h => by cases h⟩

/-- The kernel of `AnswersNeed` has allocations succeed. -/
theorem not_unallocated {need : Nat} {log : List (EnumerationCall × EnumerationAnswer)}
    (h : ∀ p ∈ log, AnswersNeed need p) : ¬Unallocated log := by
  rintro ⟨elements, answer, hmem, hnone⟩
  have hspare : answer.spare.isSome = true := h _ hmem
  rw [hnone] at hspare
  cases hspare

section

variable {query : HandleQuery} {rounds : Nat} {data : List UInt64} {length : Nat}
  {answer : EnumerationAnswer} {first rest : List (EnumerationCall × EnumerationAnswer)}
  {result : Option (List UInt64)}

/-- The rounds have given up. -/
theorem QueryRun.gaveUp (h : Quiet first) : QueryRun query rounds first none := by
  refine ⟨by rw [h.countP]; exact Nat.zero_le _, fun p hp => .of_quiet (h p hp), ?_⟩
  intro buffer hsome
  cases hsome

/-- A round before others. -/
theorem QueryRun.round (hfirst : Quiet first)
    (hsized : (EnumerationCall.query query data length).Sized)
    (h : QueryRun query rounds rest result) :
    QueryRun query (rounds + 1) (first ++ (.query query data length, answer) :: rest) result := by
  refine ⟨?_, ?_, ?_⟩
  · have hrest := h.few
    have hcall : (EnumerationCall.query query data length).isQuery = true := rfl
    rw [List.countP_append, List.countP_cons, hfirst.countP, if_pos hcall]
    omega
  · intro p hp
    rcases List.mem_append.mp hp with hp | hp
    · exact .of_quiet (hfirst p hp)
    · rcases List.mem_cons.mp hp with rfl | hp
      · exact hsized
      · exact h.sized p hp
  · intro buffer hsome
    obtain ⟨before, data', answer', rfl, hstatus, hbuffer⟩ := h.succeeded buffer hsome
    exact ⟨first ++ (.query query data length, answer) :: before, data', answer',
      by rw [List.append_assoc, List.cons_append], hstatus, hbuffer⟩

/-- The last round, in which the query did not complain about the length. -/
theorem QueryRun.last (hfirst : Quiet first)
    (hsized : (EnumerationCall.query query data length).Sized) :
    QueryRun query (rounds + 1) (first ++ [(.query query data length, answer)])
      (if 0 ≤ answer.status then some (answer.reply data) else none) := by
  have hround : QueryRun query (rounds + 1) (first ++ [(.query query data length, answer)]) none :=
    .round hfirst hsized (.gaveUp .nil)
  split
  case isFalse => exact hround
  case isTrue hstatus =>
    refine ⟨hround.few, hround.sized, fun buffer hsome => ?_⟩
    obtain ⟨-, rfl, -⟩ := hsized
    exact ⟨first, data, answer, rfl, hstatus, (Option.some.inj hsome).symm⟩

end

theorem queryRounds_yields (query : HandleQuery) : ∀ rounds capacity allocated : Nat,
    Yields (QueryRun query rounds) (queryRounds query rounds capacity allocated) := by
  intro rounds
  induction rounds with
  | zero => exact fun _ _ => .pure (.gaveUp .nil)
  | succ rounds ih =>
    intro capacity allocated
    rw [queryRounds]
    split
    case isTrue => exact .pure (.gaveUp .nil)
    case isFalse hlimit =>
      have hsized := sized_replicate query (Nat.le_of_not_lt hlimit)
      refine (reserve_yields _ _).bind fun first room hfirst => ?_
      cases room with
      | none => exact .pure (by rw [List.append_nil]; exact .gaveUp hfirst.1)
      | some allocated =>
        refine .ask fun answer => ?_
        split
        · exact .pure (.last hfirst.1 hsized)
        · exact (ih _ allocated).imp fun rest result hrest => .round hfirst.1 hsized hrest

/-! ## Rounds that give up -/

/-- The query was told that its buffer is too short. -/
def Mismatched (query : HandleQuery) : EnumerationCall × EnumerationAnswer → Bool
  | (.query asked _ _, answer) => asked == query && answer.status == statusInfoLengthMismatch
  | _ => false

/-- Why the rounds of a query have no reply: an allocation failed, the kernel refused, the next
    buffer would be beyond the limit, or all rounds were too short. -/
inductive Unsized (query : HandleQuery) (rounds : Nat)
    (log : List (EnumerationCall × EnumerationAnswer)) : Prop
  | unallocated (h : Unallocated log)
  | refused {data : List UInt64} {length : Nat} {answer : EnumerationAnswer}
      (hquery : (EnumerationCall.query query data length, answer) ∈ log)
      (hstatus : ¬0 ≤ answer.status) (hother : answer.status ≠ statusInfoLengthMismatch)
  | outgrown {capacity length : Nat} {answer : EnumerationAnswer}
      (hquery : (EnumerationCall.query query (.replicate (divCeil capacity 8) 0) length, answer) ∈ log)
      (hstatus : answer.status = statusInfoLengthMismatch)
      (hlimit : handleQueryLimit < nextCapacity capacity answer.required.toNat)
  | mismatched (h : rounds ≤ log.countP (Mismatched query))

section

variable {query : HandleQuery} {rounds : Nat}
  {log log' : List (EnumerationCall × EnumerationAnswer)}

theorem Unallocated.mono (h : Unallocated log) (hle : log.Sublist log') : Unallocated log' := by
  obtain ⟨elements, answer, hmem, hnone⟩ := h
  exact ⟨elements, answer, hle.mem hmem, hnone⟩

theorem Unsized.mono (h : Unsized query rounds log) (hle : log.Sublist log') :
    Unsized query rounds log' := by
  cases h with
  | unallocated h => exact .unallocated (h.mono hle)
  | refused hquery hstatus hother => exact .refused (hle.mem hquery) hstatus hother
  | outgrown hquery hstatus hlimit => exact .outgrown (hle.mem hquery) hstatus hlimit
  | mismatched h => exact .mismatched (h.trans hle.countP_le)

/-- One more round was too short. -/
theorem Unsized.round {data : List UInt64} {length : Nat} {answer : EnumerationAnswer}
    (hmismatch : answer.status = statusInfoLengthMismatch) (h : Unsized query rounds log) :
    Unsized query (rounds + 1) ((.query query data length, answer) :: log) := by
  have hle : log.Sublist ((EnumerationCall.query query data length, answer) :: log) :=
    List.sublist_cons_self _ _
  cases h with
  | unallocated h => exact .unallocated (h.mono hle)
  | refused hquery hstatus hother => exact .refused (hle.mem hquery) hstatus hother
  | outgrown hquery hstatus hlimit => exact .outgrown (hle.mem hquery) hstatus hlimit
  | mismatched h =>
    refine .mismatched ?_
    rw [List.countP_cons_of_pos (by simp [Mismatched, hmismatch])]
    exact Nat.succ_le_succ h

end

/-- From a capacity within the limit, the rounds end without a reply for one of these reasons. -/
theorem queryRounds_unsized (query : HandleQuery) : ∀ rounds capacity allocated : Nat,
    capacity ≤ handleQueryLimit →
      Yields (fun log result => result = none → Unsized query rounds log)
        (queryRounds query rounds capacity allocated) := by
  intro rounds
  induction rounds with
  | zero => exact fun _ _ _ => .pure fun _ => .mismatched (Nat.zero_le _)
  | succ rounds ih =>
    intro capacity allocated hlimit
    rw [queryRounds, if_neg (Nat.not_lt.mpr hlimit)]
    refine (reserve_yields _ _).bind fun first room hfirst => ?_
    cases room with
    | none =>
      refine .pure fun _ => ?_
      rw [List.append_nil]
      exact .unallocated (hfirst.2 rfl)
    | some allocated =>
      refine .ask fun answer => ?_
      split
      next hother =>
        refine .pure fun hnone => ?_
        split at hnone
        · cases hnone
        next hstatus =>
        exact .refused (List.mem_append_right _ (List.mem_singleton_self _)) hstatus hother
      next hmismatch =>
        have hmismatch : answer.status = statusInfoLengthMismatch := not_not.mp hmismatch
        by_cases hnext : nextCapacity capacity answer.required.toNat ≤ handleQueryLimit
        · refine (ih _ allocated hnext).imp fun rest result hrest hnone => ?_
          exact ((hrest hnone).round hmismatch).mono (List.sublist_append_right _ _)
        · refine .of_forall fun rest result _ => ?_
          exact .outgrown (List.mem_append_right _ List.mem_cons_self) hmismatch
            (Nat.lt_of_not_le hnext)

/-! ## A kernel that needs a fixed length -/

theorem not_nonneg_mismatch : ¬ (0 : Int32) ≤ statusInfoLengthMismatch := by decide

/-- Behind a buffer that was too short there is room for what the kernel asked for. -/
theorem nextCapacity_short {capacity need : Nat} (hshort : capacity < need)
    (hneed : need + 65536 ≤ handleQueryLimit) :
    need ≤ nextCapacity capacity need ∧ nextCapacity capacity need ≤ handleQueryLimit := by
  have hlimit : handleQueryLimit = 2 ^ 28 := rfl
  have hmax : usizeMax = 2 ^ 64 - 1 := rfl
  rw [nextCapacity, if_pos hshort, satAdd]
  omega

section

variable (query : HandleQuery) {need capacity : Nat} (rounds allocated : Nat)

/-- One round against such a kernel: the allocation succeeds, and the kernel answers for the buffer
    of this round. -/
theorem queryRounds_round (hlimit : capacity ≤ handleQueryLimit)
    (h : ∀ (allocated : Nat) (answer : EnumerationAnswer),
      (8 * divCeil capacity 8 < need →
        answer.status = statusInfoLengthMismatch ∧ answer.required.toNat = need) →
      (need ≤ 8 * divCeil capacity 8 → 0 ≤ answer.status) →
        Yields (fun rest result => (∀ p ∈ rest, AnswersNeed need p) → result.isSome = true)
          (if answer.status ≠ statusInfoLengthMismatch then
            pure (if 0 ≤ answer.status then some (answer.reply (.replicate (divCeil capacity 8) 0))
              else none)
          else queryRounds query rounds (nextCapacity capacity answer.required.toNat) allocated)) :
    Yields (fun log result => (∀ p ∈ log, AnswersNeed need p) → result.isSome = true)
      (queryRounds query (rounds + 1) capacity allocated) := by
  rw [queryRounds, if_neg (Nat.not_lt.mpr hlimit)]
  refine (reserve_yields _ _).bind fun first room hfirst => ?_
  cases room with
  | none =>
    refine .pure fun hall => ?_
    rw [List.append_nil] at hall
    exact absurd (hfirst.2 rfl) (not_unallocated hall)
  | some allocated =>
    refine .ask fun answer => ?_
    by_cases hanswer : AnswersNeed need (.query query (.replicate (divCeil capacity 8) 0)
        (queryLength (.replicate (divCeil capacity 8) 0)), answer)
    case pos =>
      obtain ⟨hshort, hsuccess⟩ := hanswer
      rw [queryLength_replicate hlimit] at hshort hsuccess
      refine (h allocated answer hshort hsuccess).imp fun rest result hrest hall => ?_
      exact hrest fun p hp => hall p (List.mem_append_right _ (List.mem_cons_of_mem _ hp))
    case neg =>
      refine .of_forall fun rest result hall => ?_
      exact absurd (hall _ (List.mem_append_right _ List.mem_cons_self)) hanswer

/-- The buffer is long enough, so the first query succeeds. -/
theorem queryRounds_enough (hlimit : capacity ≤ handleQueryLimit)
    (hneed : need ≤ 8 * divCeil capacity 8) :
    Yields (fun log result => (∀ p ∈ log, AnswersNeed need p) → result.isSome = true)
      (queryRounds query (rounds + 1) capacity allocated) := by
  refine queryRounds_round query rounds allocated hlimit fun allocated answer _ hsuccess => ?_
  have hstatus := hsuccess hneed
  have hfits : answer.status ≠ statusInfoLengthMismatch := by
    intro hmismatch
    rw [hmismatch] at hstatus
    exact not_nonneg_mismatch hstatus
  rw [if_pos hfits, if_pos hstatus]
  exact .pure fun _ => rfl

/-- A first buffer that is too short is followed by one that has room for what the kernel asked
    for. -/
theorem queryRounds_answered (hlimit : capacity ≤ handleQueryLimit)
    (hneed : need + 65536 ≤ handleQueryLimit) :
    Yields (fun log result => (∀ p ∈ log, AnswersNeed need p) → result.isSome = true)
      (queryRounds query (rounds + 2) capacity allocated) := by
  by_cases henough : need ≤ 8 * divCeil capacity 8
  case pos => exact queryRounds_enough query (rounds + 1) allocated hlimit henough
  case neg =>
    refine queryRounds_round query (rounds + 1) allocated hlimit fun allocated answer hshort _ => ?_
    obtain ⟨hmismatch, hrequired⟩ := hshort (Nat.lt_of_not_le henough)
    have hle := le_divCeil capacity
    obtain ⟨hroom, hnext⟩ := nextCapacity_short (by omega : capacity < need) hneed
    rw [if_neg (not_not.mpr hmismatch), hrequired]
    exact queryRounds_enough query rounds allocated hnext (Nat.le_trans hroom (le_divCeil _))

end

/-! ## Entries -/

theorem length_bufferBytes (buffer : List UInt64) :
    (bufferBytes buffer).length = 8 * buffer.length := by
  induction buffer with
  | nil => rfl
  | cons word rest ih =>
    have hcons : bufferBytes (word :: rest) = toLe 8 word.toNat ++ bufferBytes rest := rfl
    rw [hcons, List.length_append, length_toLe, ih, List.length_cons]
    omega

/-- There is room for the last of the entries that are counted. -/
theorem entry_end {size i : Nat} {buffer : List UInt64} (hi : i < entryCount size buffer) :
    entriesOffset + (i + 1) * size ≤ 8 * buffer.length := by
  have hmaximum : i < (8 * buffer.length - entriesOffset) / size :=
    Nat.lt_of_lt_of_le hi (Nat.min_le_right _ _)
  have hlast : (i + 1) * size ≤ (8 * buffer.length - entriesOffset) / size * size :=
    Nat.mul_le_mul_right size hmaximum
  have hroom := Nat.div_mul_le_self (8 * buffer.length - entriesOffset) size
  have hoffset : entriesOffset ≤ 8 * buffer.length := by
    by_contra hshort
    rw [Nat.sub_eq_zero_of_le (Nat.le_of_not_le hshort), Nat.zero_div] at hmaximum
    exact Nat.not_lt_zero i hmaximum
  omega

theorem handleEntries_ok (size : Nat) (buffer : List UInt64) :
    handleEntries size buffer = .ok ((List.range (entryCount size buffer)).map fun i =>
      slice (bufferBytes buffer) (entriesOffset + i * size) size) := by
  cases buffer with
  | nil => rfl
  | cons word rest =>
    by_cases hshort : 8 * (word :: rest).length < entriesOffset
    · have hcount : entryCount size (word :: rest) = 0 := by
        rw [entryCount, Nat.sub_eq_zero_of_le (Nat.le_of_lt hshort), Nat.zero_div, Nat.min_zero]
      rw [hcount]
      exact if_pos hshort
    · have hread : handleEntries size (word :: rest) =
          (List.range (entryCount size (word :: rest))).mapM fun i =>
            MayPanic.slice (bufferBytes (word :: rest)) (entriesOffset + i * size)
              (entriesOffset + (i + 1) * size) := if_neg hshort
      rw [hread]
      refine MayPanic.mapM_ok _ fun i hi => ?_
      have hend := entry_end (List.mem_range.mp hi)
      have hsize : entriesOffset + (i + 1) * size = entriesOffset + i * size + size := by
        rw [Nat.succ_mul, Nat.add_assoc]
      rw [MayPanic.slice_ok (by omega) (by rwa [length_bufferBytes]), hsize,
        Nat.add_sub_cancel_left, slice]

theorem entriesInside (size : Nat) (buffer : List UInt64) : EntriesInside size buffer := by
  refine ⟨_, handleEntries_ok size buffer, by rw [List.length_map, List.length_range], ?_⟩
  intro i entry hentry
  rw [List.getElem?_map, Option.map_eq_some_iff] at hentry
  obtain ⟨j, hj, rfl⟩ := hentry
  obtain ⟨hlt, hj⟩ := List.getElem?_eq_some_iff.mp hj
  rw [List.length_range] at hlt
  rw [List.getElem_range] at hj
  subst hj
  exact ⟨entry_end hlt, rfl⟩

/-- A count of `2 ^ 40` yields the two entries there is room for. -/
example : handleEntries 8 [2 ^ 40, 0, 7, 9] =
    .ok [[7, 0, 0, 0, 0, 0, 0, 0], [9, 0, 0, 0, 0, 0, 0, 0]] := by decide +kernel

/-- A kernel that needs 24 bytes is asked twice for them when the first buffer has eight. -/
example : ((queryUntilSized processHandleInformation 8).run fun i =>
    { address := 1, spare := some 0, status := if i < 2 then statusInfoLengthMismatch else 0
      required := 24, contents := fun _ => 0, processId := 0 }).2.isSome = true := by
  decide +kernel

/-- `query_until_sized` and `handle_entries`, whatever the kernel answers. -/
theorem handle_enumeration (query : HandleQuery) (initial : Nat)
    (answers : Nat → EnumerationAnswer) :
    Enumerated query initial ((queryUntilSized query initial).run answers).1
      ((queryUntilSized query initial).run answers).2 :=
  { toQueryRun := (queryRounds_yields query 6 initial 0).run answers
    entries := fun buffer _ size => entriesInside size buffer
    answered := fun _ hanswers hneed hinitial =>
      (queryRounds_answered query 4 0 hinitial hneed).run answers hanswers }

/-! ## The two enumerations -/

/-- A list of entries that a reply within the limit has room for. -/
def Fits (pairs : HandlePairs) : Prop :=
  16 + pairs.length * handleEntrySize ≤ handleQueryLimit

/-- The bytes of the entries that a reply counts and has room for. -/
def replyEntries (words : List UInt64) : List (List UInt8) :=
  (List.range (entryCount handleEntrySize words)).map fun i =>
    slice (bufferBytes words) (entriesOffset + i * handleEntrySize) handleEntrySize

/-- The list is what a query that succeeded has replied: all its entries, or those of this process
    where the reply is about all processes. -/
inductive ReadFrom (log : List (EnumerationCall × EnumerationAnswer)) :
    HandleQuery → HandlePairs → Prop
  | process {data : List UInt64} {length : Nat} {answer : EnumerationAnswer}
      (hquery : (EnumerationCall.query processHandleInformation data length, answer) ∈ log)
      (hok : 0 ≤ answer.status) :
      ReadFrom log processHandleInformation ((replyEntries (answer.reply data)).map fun bytes =>
        ((ProcessHandleEntry.read bytes).handleValue, (ProcessHandleEntry.read bytes).objectTypeIndex))
  | system {data : List UInt64} {length : Nat} {answer current : EnumerationAnswer}
      (hquery : (EnumerationCall.query systemExtendedHandleInformation data length, answer) ∈ log)
      (hok : 0 ≤ answer.status) (hself : (EnumerationCall.getCurrentProcessId, current) ∈ log) :
      ReadFrom log systemExtendedHandleInformation
        ((((replyEntries (answer.reply data)).map SystemHandleEntryEx.read).filter
          fun entry => entry.processId == current.processId.toNat).map
            fun entry => (entry.handleValue, entry.objectTypeIndex.toUInt32))

theorem ReadFrom.mono {log log' : List (EnumerationCall × EnumerationAnswer)}
    {query : HandleQuery} {pairs : HandlePairs} (h : ReadFrom log query pairs)
    (hle : log.Sublist log') : ReadFrom log' query pairs := by
  cases h with
  | process hquery hok => exact .process (hle.mem hquery) hok
  | system hquery hok hself => exact .system (hle.mem hquery) hok (hle.mem hself)

/-- A list that an enumeration may return. -/
structure Usable (log : List (EnumerationCall × EnumerationAnswer)) (query : HandleQuery)
    (pairs : HandlePairs) : Prop where
  nonempty : pairs ≠ []
  fits : Fits pairs
  read : ReadFrom log query pairs

/-- Why an enumeration gives no list: its query is missing or has no reply, there is no room for
    the entries, or the reply has none. -/
inductive Unlisted (log : List (EnumerationCall × EnumerationAnswer)) (query : HandleQuery) : Prop
  | missing {loaded : EnumerationAnswer}
      (hload : (EnumerationCall.loadQuery query.native, loaded) ∈ log) (hnull : loaded.address = 0)
  | unsized (h : Unsized query 6 log)
  | unallocated (h : Unallocated log)
  | empty (h : ReadFrom log query [])

theorem Unlisted.mono {log log' : List (EnumerationCall × EnumerationAnswer)}
    {query : HandleQuery} (h : Unlisted log query) (hle : log.Sublist log') :
    Unlisted log' query := by
  cases h with
  | missing hload hnull => exact .missing (hle.mem hload) hnull
  | unsized h => exact .unsized (h.mono hle)
  | unallocated h => exact .unallocated (h.mono hle)
  | empty h => exact .empty (h.mono hle)

/-- What an enumeration gives: a list, or none for a reason. -/
def Gives (log : List (EnumerationCall × EnumerationAnswer)) (query : HandleQuery) :
    Option HandlePairs → Prop
  | some pairs => Usable log query pairs
  | none => Unlisted log query

/-- What both enumerations do: they call their query in the rounds of one `query_until_sized`, and
    do not crash; no enumeration is empty. -/
structure Listed (query : HandleQuery) (log : List (EnumerationCall × EnumerationAnswer))
    (r : Except Panic (Option HandlePairs)) : Prop where
  few : log.countP (fun p => p.1.isQuery) ≤ 6
  sized : ∀ p ∈ log, p.1.Sized
  returned : ∃ result, r = .ok result ∧ Gives log query result

section

variable {query : HandleQuery} {loaded : EnumerationAnswer}
  {log rest : List (EnumerationCall × EnumerationAnswer)} {buffer : Option (List UInt64)}
  {result : Option HandlePairs}

theorem Listed.around (h : QueryRun query 6 log buffer) (hrest : Quiet rest)
    (hresult : Gives ((.loadQuery query.native, loaded) :: (log ++ rest)) query result) :
    Listed query ((.loadQuery query.native, loaded) :: (log ++ rest)) (.ok result) := by
  refine ⟨?_, ?_, result, rfl, hresult⟩
  · have hfew := h.few
    have hload : EnumerationCall.isQuery (.loadQuery query.native) = false := rfl
    rw [List.countP_cons, List.countP_append, hrest.countP, hload]
    simpa using hfew
  · intro p hp
    rcases List.mem_cons.mp hp with rfl | hp
    · trivial
    · rcases List.mem_append.mp hp with hp | hp
      · exact h.sized p hp
      · exact .of_quiet (hrest p hp)

/-- A reply is no longer than the limit: the length its query was told is that of the buffer. -/
theorem QueryRun.bounded {words : List UInt64} (h : QueryRun query 6 log (some words)) :
    8 * words.length ≤ handleQueryLimit := by
  obtain ⟨before, data, answer, rfl, _, rfl⟩ := h.succeeded words rfl
  have hsized := (h.sized _ (List.mem_append_right _ (List.mem_singleton_self _))).2.2
  have hlimit : 8 * divCeil handleQueryLimit 8 = handleQueryLimit := rfl
  rw [hlimit] at hsized
  rw [EnumerationAnswer.reply, List.length_map, List.length_range]
  exact hsized

/-- The entries of a reply within the limit fit one. -/
theorem QueryRun.fits {words : List UInt64} {pairs : HandlePairs}
    (h : QueryRun query 6 log (some words)) (hne : pairs ≠ [])
    (hle : pairs.length ≤ entryCount handleEntrySize words) : Fits pairs := by
  have hpos : 0 < pairs.length := List.length_pos_iff.mpr hne
  have hlt : pairs.length - 1 < entryCount handleEntrySize words := by omega
  have hlast := entry_end hlt
  rw [Nat.sub_add_cancel hpos] at hlast
  exact Nat.le_trans hlast h.bounded

end

theorem keptEntries_yields (rawEntries : List (List UInt8)) (pairs : HandlePairs) :
    Yields (fun log result => Quiet log ∧ (∀ kept, result = some kept → kept ≠ [] ∧ kept = pairs) ∧
        (result = none → Unallocated log ∨ pairs = []))
      (keptEntries rawEntries pairs) := by
  refine (reserve_yields _ _).bind fun log room hlog => ?_
  cases room with
  | none =>
    refine .pure ⟨by rw [List.append_nil]; exact hlog.1, (fun kept h => by cases h), fun _ => ?_⟩
    rw [List.append_nil]
    exact .inl (hlog.2 rfl)
  | some _ =>
    refine .pure ⟨by rw [List.append_nil]; exact hlog.1, fun kept hkept => ?_, fun hnone => ?_⟩
    · split at hkept
      case isTrue => cases hkept
      case isFalse hempty =>
        obtain rfl := Option.some.inj hkept
        exact ⟨fun hnil => hempty (by rw [hnil]; rfl), rfl⟩
    · split at hnone
      case isTrue hempty => exact .inr (List.isEmpty_iff.mp hempty)
      case isFalse => cases hnone

/-- A query that was not found is not called. -/
theorem Listed.missing {query : HandleQuery} {answer : EnumerationAnswer}
    (h : answer.address = 0) : Listed query [(.loadQuery query.native, answer)] (.ok none) := by
  refine ⟨Nat.zero_le 6, ?_, none, rfl, .missing (List.mem_singleton_self _) h⟩
  intro p hp
  obtain rfl := List.mem_singleton.mp hp
  trivial

section

variable {query : HandleQuery} {e : EnumerationCall × EnumerationAnswer} {words : List UInt64}
  {log rest log' : List (EnumerationCall × EnumerationAnswer)} {pairs : HandlePairs}
  {result : Option HandlePairs}

/-- What is kept of a reply, or why nothing is. -/
theorem gives_kept (hlog : QueryRun query 6 log (some words))
    (hkept : (∀ kept, result = some kept → kept ≠ [] ∧ kept = pairs) ∧
      (result = none → Unallocated rest ∨ pairs = []))
    (hlength : pairs.length ≤ entryCount handleEntrySize words) (hrest : rest.Sublist log')
    (hread : ReadFrom log' query pairs) : Gives log' query result := by
  cases result with
  | some kept =>
    obtain ⟨hne, rfl⟩ := hkept.1 kept rfl
    exact ⟨hne, hlog.fits hne hlength, hread⟩
  | none =>
    rcases hkept.2 rfl with h | rfl
    · exact .unallocated (h.mono hrest)
    · exact .empty hread

end

theorem processHandleEntries_listed :
    Yields (Listed processHandleInformation) processHandleEntries.run := by
  refine .calling fun loaded => ?_
  split
  case isTrue hnull => exact .pure (.missing hnull)
  case isFalse =>
    refine .lift ((queryRounds_yields processHandleInformation 6 _ 0).and
      (queryRounds_unsized processHandleInformation 6 _ 0 (by decide))) fun log buffer hlog => ?_
    obtain ⟨hlog, hnone⟩ := hlog
    cases buffer with
    | none =>
      exact .pure (.around hlog .nil
        (.unsized ((hnone rfl).mono ((List.sublist_append_left _ _).cons _))))
    | some words =>
      refine .step (handleEntries_ok handleEntrySize words) ?_
      refine (keptEntries_yields _ _).last.imp fun rest r hr => ?_
      obtain ⟨result, rfl, hquiet, hkept⟩ := hr
      refine .around hlog hquiet
        (gives_kept hlog hkept ?_ ((List.sublist_append_right _ _).cons _) ?_)
      · rw [List.length_map, List.length_map, List.length_range]
      · obtain ⟨before, data, answer, rfl, hok, rfl⟩ := hlog.succeeded words rfl
        exact .process (List.mem_cons_of_mem _ (List.mem_append_left _
          (List.mem_append_right _ (List.mem_singleton_self _)))) hok

theorem systemHandleEntries_listed :
    Yields (Listed systemExtendedHandleInformation) systemHandleEntries.run := by
  refine .calling fun loaded => ?_
  split
  case isTrue hnull => exact .pure (.missing hnull)
  case isFalse =>
    refine .lift ((queryRounds_yields systemExtendedHandleInformation 6 _ 0).and
      (queryRounds_unsized systemExtendedHandleInformation 6 _ 0 (by decide)))
      fun log buffer hlog => ?_
    obtain ⟨hlog, hnone⟩ := hlog
    cases buffer with
    | none =>
      exact .pure (.around hlog .nil
        (.unsized ((hnone rfl).mono ((List.sublist_append_left _ _).cons _))))
    | some words =>
      refine .calling fun current => ?_
      refine .step (handleEntries_ok handleEntrySize words) ?_
      refine (keptEntries_yields _ _).last.imp fun rest r hr => ?_
      obtain ⟨result, rfl, hquiet, hkept⟩ := hr
      refine .around hlog ?_ (gives_kept hlog hkept ?_
        (((List.sublist_cons_self _ _).trans (List.sublist_append_right _ _)).cons _) ?_)
      · intro p hp
        rcases List.mem_cons.mp hp with rfl | hp
        · rfl
        · exact hquiet p hp
      · rw [List.length_map]
        refine Nat.le_trans (List.length_filter_le _ _) ?_
        rw [List.length_map, List.length_map, List.length_range]
      · obtain ⟨before, data, answer, rfl, hok, rfl⟩ := hlog.succeeded words rfl
        exact .system (List.mem_cons_of_mem _ (List.mem_append_left _
          (List.mem_append_right _ (List.mem_singleton_self _)))) hok (List.mem_cons_of_mem _
            (List.mem_append_right _ List.mem_cons_self))

/-! ## The whole revocation -/

theorem Listed.ok {query : HandleQuery} {x : ExceptT Panic Enumerating (Option HandlePairs)}
    (h : Yields (Listed query) x.run) :
    Yields (fun log r => ∃ result, r = .ok result ∧ Listed query log (.ok result)) x.run := by
  refine h.imp fun log r hr => ?_
  obtain ⟨result, rfl, _⟩ := hr.returned
  exact ⟨result, rfl, hr⟩

/-- The list of the first enumeration, or where it gives none, that of the second; or of neither,
    for a reason of each. -/
inductive ChosenFrom (log : List (EnumerationCall × EnumerationAnswer)) :
    Option HandlePairs → Prop
  | first {pairs : HandlePairs} (h : Usable log processHandleInformation pairs) :
      ChosenFrom log (some pairs)
  | second {pairs : HandlePairs} (hfirst : Unlisted log processHandleInformation)
      (h : Usable log systemExtendedHandleInformation pairs) : ChosenFrom log (some pairs)
  | neither (hfirst : Unlisted log processHandleInformation)
      (hsecond : Unlisted log systemExtendedHandleInformation) : ChosenFrom log none

/-- Both enumerations in a row. -/
structure Chosen (log : List (EnumerationCall × EnumerationAnswer))
    (entries : Option HandlePairs) : Prop where
  few : log.countP (fun p => p.1.isQuery) ≤ 12
  sized : ∀ p ∈ log, p.1.Sized
  chosen : ChosenFrom log entries

theorem ChosenFrom.fits {log : List (EnumerationCall × EnumerationAnswer)} {pairs : HandlePairs}
    (h : ChosenFrom log (some pairs)) : Fits pairs := by
  cases h with
  | first h => exact h.fits
  | second hfirst h => exact h.fits

theorem sweptEntries_chosen :
    Yields (fun log r => ∃ entries, r = .ok entries ∧ Chosen log entries) sweptEntries.run := by
  refine (Listed.ok processHandleEntries_listed).through fun log result hlog => ?_
  obtain ⟨first, hfirst, hgives⟩ := hlog.returned
  cases hfirst
  cases result with
  | some pairs =>
    refine .pure ⟨_, rfl, ?_⟩
    rw [List.append_nil]
    exact ⟨Nat.le_trans hlog.few (by omega), hlog.sized, .first hgives⟩
  | none =>
    refine (Listed.ok systemHandleEntries_listed).imp fun rest r hr => ?_
    obtain ⟨result, rfl, hrest⟩ := hr
    obtain ⟨second, hsecond, hgives'⟩ := hrest.returned
    cases hsecond
    have hunlisted : Unlisted (log ++ rest) processHandleInformation :=
      Unlisted.mono hgives (List.sublist_append_left _ _)
    have hright : rest.Sublist (log ++ rest) := List.sublist_append_right _ _
    refine ⟨_, rfl, ?_, ?_, ?_⟩
    · have hfew := hlog.few
      have hfew' := hrest.few
      rw [List.countP_append]
      omega
    · intro p hp
      exact (List.mem_append.mp hp).elim (hlog.sized p) (hrest.sized p)
    · cases result with
      | some pairs =>
        exact .second hunlisted ⟨hgives'.nonempty, hgives'.fits, hgives'.read.mono hright⟩
      | none => exact .neither hunlisted (Unlisted.mono hgives' hright)

/-- What a sweep of `entries` shows where type indexes tell files and Windows tells what the pinned
    objects are. -/
def RevokedAsAnswered (table : HandleTable) (entries : List SweepAttempt) : Prop :=
  ∀ fileIndex,
    (∀ a ∈ entries, a.pinned = true → (a.objectTypeIndex = fileIndex ↔ a.object ≠ .notFile)) →
    (∀ a ∈ entries, a.pinned = true → a.Answered) →
    SweepShows table entries ∧
    (discoverAndRevokeHidHandles table (some entries)).lastRevoked =
      (discoverAndRevokeHidHandles table (some entries)).log.countP SweepEvent.isRevoked

/-- What a revocation calls and how it ends: the sweep of the list that was chosen, or of none. -/
structure Revocation (table : HandleTable) (windows : Nat → SweepAttempt)
    (log : List (EnumerationCall × EnumerationAnswer)) (r : Except Panic Sweep) : Prop where
  few : log.countP (fun p => p.1.isQuery) ≤ 12
  sized : ∀ p ∈ log, p.1.Sized
  swept : ∃ entries, ChosenFrom log entries ∧
    r = .ok (discoverAndRevokeHidHandles table (entries.map (sweepAttempts windows))) ∧
    ∀ pairs, entries = some pairs → RevokedAsAnswered table (sweepAttempts windows pairs)

/-- The entries of an enumeration are swept as `sweep_shows` says. -/
theorem revokedAsAnswered {ts : TableState} (hr : handleTable.Reach ts)
    (windows : Nat → SweepAttempt) {pairs : HandlePairs} (hfits : Fits pairs) :
    RevokedAsAnswered ts.table (sweepAttempts windows pairs) := by
  intro fileIndex hindex hanswered
  refine sweep_shows hr hindex hanswered ?_
  rw [sweepAttempts, List.length_mapIdx]
  exact hfits

/-- The query of the process is missing; that of the system counts one entry, which is Steam's. -/
def systemAnswers : Nat → EnumerationAnswer := fun i =>
  { address := if i = 0 then 0 else 1
    spare := some 0
    status := 0
    required := 0
    contents := fun word => ([1, 0, 0, 7, 0x128, 0x25000000000000] : List UInt64).getD word 0
    processId := 7 }

end Gate
end SteamInputLease
