import SteamInputLease.Proof.Host.Calls
import SteamInputLease.Proof.Launch.Environment

/-!
# The process that `find_process` chooses

The names are compared unit by byte, and a byte that is matched is an ASCII one, so a name that is
not ASCII matches nothing. What the loop has found is at most one process, until it finds another.

What the search returns is said of the snapshot and of the sessions that Windows gave for the
processes in it, without the loop: which processes have the name, which of these were asked for
their session, and which of those run in the caller's (`Chooses`). The loop asks in the order of the
snapshot and stops at the second hit, so the answers it has are those of a prefix. Found before and
found in the rest of the log stand for the same thing, the hits in order; moving one from the second
to the first is what a round does.
-/

namespace SteamInputLease
namespace Host

open Lib
open Launch (Error unitToLower asciiUnits toNat_unitToLower)

/-! ## Names -/

theorem toNat_byteToLower (byte : UInt8) : (byteToLower byte).toNat =
    if 0x41 ≤ byte.toNat ∧ byte.toNat ≤ 0x5a then byte.toNat + 0x20 else byte.toNat := by
  unfold byteToLower
  simp only [UInt8.le_iff_toNat_le, UInt8.reduceToNat]
  split
  · rw [UInt8.toNat_add]
    simp only [UInt8.reduceToNat]
    omega
  · rfl

/-- A unit matches a byte. -/
theorem unit_matches (unit : UInt16) (byte : UInt8) :
    (unit < 128 && byteToLower unit.toUInt8 == byteToLower byte) = true ↔
      byte.toNat < 0x80 ∧ unitToLower unit = unitToLower byte.toUInt16 := by
  rw [Bool.and_eq_true, decide_eq_true_iff, beq_iff_eq, ← UInt8.toNat_inj, ← UInt16.toNat_inj,
    toNat_byteToLower, toNat_byteToLower, toNat_unitToLower, toNat_unitToLower,
    UInt16.lt_iff_toNat_lt, UInt16.toNat_toUInt8, UInt8.toNat_toUInt16]
  simp only [UInt16.reduceToNat]
  have hbyte := byte.toNat_lt
  split <;> split <;> split <;> omega

/-- A text matches bytes. -/
theorem units_match (units : List UInt16) (bytes : List UInt8) :
    (units.length == bytes.length && (units.zip bytes).all fun (unit, byte) =>
      unit < 128 && byteToLower unit.toUInt8 == byteToLower byte) = true ↔
      (∀ byte ∈ bytes, byte.toNat < 0x80) ∧
        units.map unitToLower = bytes.map fun byte => unitToLower byte.toUInt16 := by
  induction units generalizing bytes with
  | nil => cases bytes <;> simp
  | cons unit units ih =>
    cases bytes with
    | nil => simp
    | cons byte bytes =>
      have hhead := unit_matches unit byte
      have hrest := ih bytes
      simp only [List.length_cons, List.zip_cons_cons, List.all_cons, List.forall_mem_cons,
        List.map_cons, List.cons.injEq, Bool.and_eq_true, beq_iff_eq, Nat.add_right_cancel_iff]
        at hhead hrest ⊢
      tauto

/-- The bytes of an ASCII text are its units. -/
theorem asciiUnits_encode {text : List Char} (h : ∀ c ∈ text, c.toNat < 0x80) :
    (Utf8.encode text).map UInt8.toUInt16 = asciiUnits text := by
  rw [Utf8.encode_of_ascii h, List.map_map, asciiUnits]
  refine List.map_congr_left fun c hc => ?_
  have hlt := h c hc
  rw [Function.comp_apply, ← UInt16.toNat_inj, UInt8.toNat_toUInt16, UInt8.toNat_ofNat',
    UInt16.toNat_ofNat', Nat.mod_eq_of_lt (by omega), Nat.mod_eq_of_lt (by omega)]

/-- The comparison is that of the units, and of ASCII names only. -/
theorem wideEqIgnoreAsciiCase_iff {name : String} {entry : ProcessEntry} :
    wideEqIgnoreAsciiCase entry.szExeFile (Utf8.encode name.toList) = true ↔ Named name entry := by
  rw [wideEqIgnoreAsciiCase, units_match, Utf8.encode_ascii, Named]
  refine and_congr_right fun h => ?_
  rw [← asciiUnits_encode h, List.map_map]
  rfl

/-! ## The search -/

section

variable {name : String} {session : UInt32} {entry : ProcessEntry} {entries : List ProcessEntry}
  {found : List UInt32} {log : List (HostCall × HostAnswer)} {r : Except Error UInt32}
  {a : HostAnswer}

theorem named_cons : named name (entry :: entries) =
    if Named name entry then entry.th32ProcessID :: named name entries else named name entries := by
  rw [named, List.filter_cons]
  split
  · next h => rw [if_pos (of_decide_eq_true h)]; rfl
  · next h => rw [if_neg (by simpa using h)]; rfl

theorem sessionHits_ask {processId : UInt32} :
    sessionHits session ((.processIdToSessionId processId, a) :: log) =
      (if a.ok && a.value == session then [processId] else []) ++ sessionHits session log := by
  have hhit : sessionHit session (.processIdToSessionId processId, a) =
      if a.ok && a.value == session then some processId else none := rfl
  rw [sessionHits, List.filterMap_cons, hhit]
  cases a.ok && a.value == session with
  | true => rfl
  | false => rfl

/-- A process of another name is passed over. -/
theorem Chooses.skip (hn : ¬Named name entry) (h : Chooses name session entries found log r) :
    Chooses name session (entry :: entries) found log r := by
  obtain ⟨hasked, hwhole, hambiguous⟩ := h
  refine ⟨?_, ?_, hambiguous⟩
  · rwa [named_cons, if_neg hn]
  · rwa [named_cons, if_neg hn]

/-- A process of the name is asked for, and what its answer shows counts as found before. -/
theorem Chooses.ask {found' : List UInt32} (hn : Named name entry)
    (hfound : found ++ sessionHits session
      ((.processIdToSessionId entry.th32ProcessID, a) :: log) = found' ++ sessionHits session log)
    (h : Chooses name session entries found' log r) :
    Chooses name session (entry :: entries) found
      ((.processIdToSessionId entry.th32ProcessID, a) :: log) r := by
  have hcons : asked ((.processIdToSessionId entry.th32ProcessID, a) :: log) =
      entry.th32ProcessID :: asked log := rfl
  obtain ⟨hasked, hwhole, hambiguous⟩ := h
  refine ⟨?_, ?_, by rwa [hfound]⟩
  · rw [hcons, named_cons, if_pos hn, List.prefix_cons_inj]
    exact hasked
  · rw [hfound, hcons, named_cons, if_pos hn, List.cons.injEq]
    intro hlen
    obtain ⟨heq, before, last, rfl, hr⟩ := hwhole hlen
    exact ⟨⟨rfl, heq⟩, _ :: before, last, rfl, hr⟩

/-- One that runs elsewhere adds nothing. -/
theorem Chooses.elsewhere (hn : Named name entry) (ha : (a.ok && a.value == session) = false)
    (h : Chooses name session entries found log r) :
    Chooses name session (entry :: entries) found
      ((.processIdToSessionId entry.th32ProcessID, a) :: log) r := by
  refine .ask hn ?_ h
  rw [sessionHits_ask, if_neg (Bool.eq_false_iff.mp ha), List.nil_append]

/-- One that runs in the session is found. -/
theorem Chooses.inside (hn : Named name entry) (ha : (a.ok && a.value == session) = true)
    (h : Chooses name session entries (found ++ [entry.th32ProcessID]) log r) :
    Chooses name session (entry :: entries) found
      ((.processIdToSessionId entry.th32ProcessID, a) :: log) r := by
  refine .ask hn ?_ h
  rw [sessionHits_ask, if_pos ha, List.append_assoc]

/-- The second one ends the search. -/
theorem Chooses.second {first : UInt32} (hn : Named name entry)
    (ha : (a.ok && a.value == session) = true) :
    Chooses name session (entry :: entries) [first]
      [(.processIdToSessionId entry.th32ProcessID, a)]
      (.error (.ambiguousTarget name first entry.th32ProcessID)) := by
  have hhits : sessionHits session [(.processIdToSessionId entry.th32ProcessID, a)] =
      [entry.th32ProcessID] := by
    rw [sessionHits_ask, if_pos ha]
    rfl
  refine ⟨?_, ?_, ?_⟩
  · rw [named_cons, if_pos hn]
    exact ⟨named name entries, rfl⟩
  · rw [hhits]
    exact fun hlen => absurd hlen (Nat.lt_irrefl 2)
  · rw [hhits]
    exact fun _ => ⟨first, entry.th32ProcessID, rfl, rfl⟩

theorem matchProcesses_yields (name : String) (session : UInt32) (entries : List ProcessEntry)
    (matched : Option UInt32) :
    (matchProcesses name session entries matched).Yields
      (Chooses name session entries matched.toList) := by
  induction entries generalizing matched with
  -- the snapshot is at its end: what was matched so far decides
  | nil =>
    refine .ask fun last => ?_
    have hend : ∀ r, r = choice name last matched.toList →
        Chooses name session [] matched.toList [(.lastOsError, last)] r := by
      rintro r rfl
      have hhits : sessionHits session [(.lastOsError, last)] = [] := rfl
      refine ⟨List.nil_prefix, fun _ => ⟨rfl, [], last, rfl, ?_⟩, ?_⟩
      · rw [hhits, List.append_nil]
      · rw [hhits, List.append_nil]
        intro hlen
        cases matched <;> simp at hlen
    split
    next he => exact .pure (hend _ (if_pos he).symm)
    next he =>
      cases matched with
      | none => exact .pure (hend _ (if_neg he).symm)
      | some first => exact .pure (hend _ (if_neg he).symm)
  | cons entry entries ih =>
    unfold matchProcesses inSession
    split
    case isTrue hn =>
      have hn : ¬Named name entry := by
        rw [← wideEqIgnoreAsciiCase_iff]
        simpa using hn
      exact (ih matched).imp fun log r h => h.skip hn
    case isFalse hn =>
      have hn : Named name entry := by
        rw [← wideEqIgnoreAsciiCase_iff]
        simpa using hn
      -- a name that matches counts only in the caller's session
      refine .ask fun a => ?_
      show Program.Yields _ (if !(a.ok && a.value == session) then _ else _)
      split
      next ha =>
        exact (ih matched).imp fun log r h => h.elsewhere hn (Bool.not_eq_true' _ ▸ ha)
      next ha =>
        have ha : (a.ok && a.value == session) = true := by simpa using ha
        cases matched with
        | none => exact (ih (some entry.th32ProcessID)).imp fun log r h => h.inside hn ha
        | some first => exact .pure (.second hn ha)

theorem windowsError_yields {α : Type} (operation : String) :
    (windowsError operation).Yields fun log (r : Except Error α) => ∃ last : HostAnswer,
      log = [(.lastOsError, last)] ∧ r = .error (.windows operation last.text) :=
  .ask fun last => .pure ⟨last, rfl, rfl⟩

theorem dropHandle_yields (handle : UInt64) :
    (dropHandle handle).Yields fun log _ => ∀ e ∈ log, e.1 = .closeHandle handle := by
  unfold dropHandle
  split
  · exact .pure (List.forall_mem_nil _)
  · refine .ask fun a => .pure fun e he => ?_
    rw [List.mem_singleton.mp he]

theorem findProcess_yields (name : String) : (findProcess name).Yields (FindRun name) := by
  unfold findProcess
  split
  next hnul => exact .pure (.nul (by simpa using hnul))
  next hnul =>
  refine .ask fun session => ?_
  split
  next hs =>
    refine (windowsError_yields _).imp fun log r h => ?_
    obtain ⟨last, rfl, rfl⟩ := h
    exact .noSession session last (by simpa using hs)
  next hs =>
  have hs : session.ok = true := by simpa using hs
  refine .ask fun snapshot => ?_
  split
  next hi =>
    refine (windowsError_yields _).imp fun log r h => ?_
    obtain ⟨last, rfl, rfl⟩ := h
    exact .noSnapshot session snapshot last hs hi
  next hi =>
  refine .bind (matchProcesses_yields name session.value snapshot.processes none) fun log r h => ?_
  refine .bind (dropHandle_yields snapshot.handle) fun closing _ hc => .pure ?_
  rw [List.append_nil]
  exact .searched session snapshot log closing r (by simpa using hnul) hs hi h hc

end

/-- However Windows answers, the search closes its snapshot, and what it returns is what the
    snapshot says: the one process of the name in the caller's session, the first two of several,
    that there is none, or why it could not be told. -/
theorem find_process_choice (name : String) (answers : Nat → HostAnswer) :
    FindRun name ((findProcess name).run answers).1 ((findProcess name).run answers).2 ∧
      hostCustody.Along 0 ((findProcess name).run answers).1 0 := by
  have h : hostCustody.Guards _ (findProcess name) 0 := findProcess_guards name
  obtain ⟨rest, halong, hrest, -⟩ := h.along.run answers
  subst hrest
  exact ⟨(findProcess_yields name).run answers, halong⟩

end Host
end SteamInputLease
