import SteamInputLease.Gate.Sweep
import SteamInputLease.Proof.Gate.HandleTable

/-!
# The revocation sweep is exact

What one round does is settled by what the pinned object is, whichever entry taught the sweep the
index of File; the sweep is its rounds one after another.

A round is judged by its own calls: the duplicate that pins the object, the type, the probe, the
comparison with the original and the close. The sweep carries three things from one round to the
next, and `Sweep.Kept` bounds them: the table stays one that refines a map, the index of File is
right once it is known, and the count is that of the closes that succeeded. The index is learnt from
the first file that comes along and used as a shortcut from then on, so the order of the entries
decides which calls a round makes; it does not decide what is closed, because the shortcut answers
as the type's name would. `sweep_exact` puts the rounds together by induction on the entries, so
that the log of the whole sweep is a list of rounds, one for each entry in order.
-/

namespace SteamInputLease
namespace Gate

open Lib

/-! ## The answers -/

theorem lowercaseUnit_eq {u : UInt16} (hu : u < 0x80) :
    lowercaseUnit u = (toAsciiLowercase u.toUInt8).toUInt16 := by
  have hall : ∀ n : Fin 128, lowercaseUnit (UInt16.ofNat n) =
      (toAsciiLowercase (UInt16.ofNat n).toUInt8).toUInt16 := by
    decide
  have hu : u.toNat < 128 := hu
  have hcase := hall ⟨u.toNat, hu⟩
  rwa [UInt16.ofNat_toNat] at hcase

theorem lowercaseUnit_cut {u v : UInt16} (hu : u < 0x80) (hv : v < 0x80)
    (h : toAsciiLowercase u.toUInt8 = toAsciiLowercase v.toUInt8) :
    lowercaseUnit u = lowercaseUnit v := by
  rw [lowercaseUnit_eq hu, lowercaseUnit_eq hv, h]

/-- Cutting units to bytes makes no ASCII names equal that differ. -/
theorem wideAsciiEq_ascii : ∀ {left right : List UInt16}, (∀ u ∈ left, u < 0x80) →
    (∀ u ∈ right, u < 0x80) → wideAsciiEq left right = true →
    left.map lowercaseUnit = right.map lowercaseUnit := by
  intro left
  induction left with
  | nil =>
    intro right _ _ h
    cases right with
    | nil => rfl
    | cons v right => simp [wideAsciiEq] at h
  | cons u left ih =>
    intro right hl hr h
    cases right with
    | nil => simp [wideAsciiEq] at h
    | cons v right =>
      simp only [wideAsciiEq, List.length_cons, List.zip_cons_cons, List.all_cons,
        Bool.and_eq_true, beq_iff_eq, Nat.add_right_cancel_iff] at h
      obtain ⟨hlen, huv, hrest⟩ := h
      rw [List.map_cons, List.map_cons,
        lowercaseUnit_cut (hl u List.mem_cons_self) (hr v List.mem_cons_self) huv,
        ih (fun w hw => hl w (List.mem_cons_of_mem _ hw))
          (fun w hw => hr w (List.mem_cons_of_mem _ hw)) ?_]
      simp [wideAsciiEq, hlen, hrest]

theorem fileTypeName_ascii : ∀ u ∈ fileTypeName, u < 0x80 := by
  simp [fileTypeName]

section

variable {a : SweepAttempt} {s : Sweep} {d : UInt64} {fileIndex : UInt32}

/-- `is_file_object` tells files. -/
theorem SweepAttempt.Answered.isFileObject_eq (ha : a.Answered) :
    isFileObject a.typeReply = true ↔ a.object ≠ .notFile := by
  constructor
  · intro h hno
    unfold isFileObject at h
    split at h
    · cases h
    next reply hreply =>
    split at h
    · cases h
    split at h
    · cases h
    next units hunits =>
    split at h
    · cases h
    next hlen =>
    obtain ⟨hascii, hne⟩ := ha.notFile hno reply units hreply hunits (not_not.mp hlen)
    exact hne (wideAsciiEq_ascii hascii fileTypeName_ascii h)
  · intro hfile
    obtain ⟨status, hstatus, hreply⟩ := ha.file hfile
    rw [hreply]
    unfold isFileObject
    dsimp only
    rw [if_neg (Int.not_lt.mpr hstatus)]
    rfl

/-- `probe_file_handle` tells HID devices. -/
theorem SweepAttempt.Answered.probe_eq (ha : a.Answered) :
    probeFileHandle a.fileType a.lastError a.hidAttributes = .hid ↔ a.object = .hid := by
  unfold probeFileHandle
  constructor
  · intro h
    split at h
    · cases h
    split at h
    · next hhid => exact ha.hid.mp hhid
    · cases h
  · intro hhid
    obtain ⟨hdisk, hpipe, hunknown⟩ := ha.fileType hhid
    rw [if_neg, if_pos (ha.hid.mpr hhid)]
    intro h
    rcases h with h | h | ⟨h, herr⟩
    · exact hdisk h
    · exact hpipe h
    · exact herr (hunknown h)

theorem SweepAttempt.Answered.probe_other (ha : a.Answered) (hne : a.object ≠ .hid) :
    probeFileHandle a.fileType a.lastError a.hidAttributes = .other := by
  unfold probeFileHandle
  split
  · rfl
  · rw [if_neg fun h => hne (ha.hid.mp h)]

/-- The type check lets files pass and nothing else, before and after the index is known. -/
theorem fileCheck_eq (ha : a.Answered)
    (hindex : a.objectTypeIndex = fileIndex ↔ a.object ≠ .notFile)
    (hs : s.fileTypeIndex = none ∨ s.fileTypeIndex = some fileIndex) :
    s.fileCheck a = if a.object = .notFile then none else some fileIndex := by
  unfold Sweep.fileCheck
  rcases hs with hs | hs
  · rw [hs]
    dsimp only
    by_cases hno : a.object = .notFile
    · rw [if_pos hno, if_neg fun h => ha.isFileObject_eq.mp h hno]
    · rw [if_neg hno, if_pos (ha.isFileObject_eq.mpr hno), hindex.mpr hno]
  · rw [hs]
    dsimp only
    by_cases hno : a.object = .notFile
    · rw [if_pos hno, if_pos fun h => hindex.mp h hno]
    · rw [if_neg hno, if_neg fun h => h (hindex.mpr hno)]

/-! ## One round -/

theorem Tracked.gone {t : HandleTable} {h : UInt64} (ht : Tracked t) (hm : t.map h = none) :
    t.Gone h := by
  intro i _ hlive hkey
  have hview := viewed_of_lt hlive
  rw [hkey] at hview
  exact ht.sound.get_eq_none.mp hm i _ hview

/-- What stands between the duplicate and its close. -/
inductive Between (a : SweepAttempt) (d : UInt64) (table : HandleTable) : List SweepEvent → Prop
  | unpinned : a.sameFirst = false → Between a d table []
  | skipped : a.object = .notFile → Between a d table []
  | kept : a.object ≠ .notFile → ¬(a.sameSecond = true ∧ a.object = .hid) →
      Between a d table [.probed d]
  | revoked : a.sameFirst = true → a.sameSecond = true → a.object = .hid →
      table.Gone a.handle →
      Between a d table
        [.probed d, .cancelled a.handle, .closedOriginal a.handle a.closeStatus]

/-- What every round keeps: a sound table, an index of File that is right if it is known, and a
    count of what was closed so far. -/
structure Sweep.Kept (s : Sweep) (fileIndex : UInt32) : Prop where
  tracked : Tracked s.table
  index : s.fileTypeIndex = none ∨ s.fileTypeIndex = some fileIndex
  counted : s.lastRevoked = i32 (s.log.countP SweepEvent.isRevoked)

theorem Sweep.Kept.tell (hs : s.Kept fileIndex) {e : SweepEvent} (he : e.isRevoked = false) :
    (s.tell e).Kept fileIndex where
  tracked := hs.tracked
  index := hs.index
  counted := by
    show s.lastRevoked = i32 ((s.log ++ [e]).countP SweepEvent.isRevoked)
    rw [hs.counted, List.countP_append, List.countP_singleton, if_neg (by simp [he]), Nat.add_zero]

theorem i32_succ (n : Nat) : i32 (i32 n + 1) = i32 (n + 1 : Nat) := by
  simp [i32]

/-- The revocation: the table entry is gone, and the close counts if it succeeds. -/
theorem Sweep.Kept.revoke (hs : s.Kept fileIndex) :
    (s.revoke a).Kept fileIndex ∧ (s.revoke a).table.Gone a.handle ∧
      (s.revoke a).log =
        s.log ++ [.cancelled a.handle, .closedOriginal a.handle a.closeStatus] := by
  obtain ⟨htracked, hmap⟩ := hs.tracked.forget (h := a.handle)
  have hgone : (s.table.forgetHandle a.handle).Gone a.handle := by
    apply htracked.gone
    rw [hmap, Function.update_self]
  unfold Sweep.revoke
  split
  · next hok =>
    refine ⟨⟨htracked, hs.index, ?_⟩, hgone, ?_⟩
    · have hcount : (s.log ++ [SweepEvent.cancelled a.handle] ++
          [SweepEvent.closedOriginal a.handle a.closeStatus]).countP SweepEvent.isRevoked =
            s.log.countP SweepEvent.isRevoked + 1 := by
        simp [List.countP_append, SweepEvent.isRevoked, hok]
      dsimp only [Sweep.tell]
      rw [hs.counted, hcount, i32_succ]
    · simp [Sweep.tell]
  · next hfail =>
    refine ⟨⟨htracked, hs.index, ?_⟩, hgone, ?_⟩
    · have hcount : (s.log ++ [SweepEvent.cancelled a.handle] ++
          [SweepEvent.closedOriginal a.handle a.closeStatus]).countP SweepEvent.isRevoked =
            s.log.countP SweepEvent.isRevoked := by
        simp [List.countP_append, SweepEvent.isRevoked, hfail]
      dsimp only [Sweep.tell]
      rw [hs.counted, hcount]
    · simp [Sweep.tell]

theorem Sweep.Kept.remember (hs : s.Kept fileIndex) (c : HandleClass) :
    ({ s with table := s.table.rememberHandle a.handle c } : Sweep).Kept fileIndex where
  tracked := (hs.tracked.remember a.handle c).1
  index := hs.index
  counted := hs.counted

/-- What happens to a pinned object is settled by what it is. -/
theorem Sweep.Kept.examine (hs : s.Kept fileIndex) (ha : a.Answered)
    (hindex : a.objectTypeIndex = fileIndex ↔ a.object ≠ .notFile) (hfirst : a.sameFirst = true) :
    ∃ middle, (s.examine a d).Kept fileIndex ∧ (s.examine a d).log = s.log ++ middle ∧
      Between a d (s.examine a d).table middle := by
  unfold Sweep.examine
  rw [fileCheck_eq ha hindex hs.index]
  by_cases hno : a.object = .notFile
  · rw [if_pos hno]
    exact ⟨[], hs, (List.append_nil _).symm, .skipped hno⟩
  rw [if_neg hno]
  dsimp only
  have hlearned : ({ s with fileTypeIndex := some fileIndex } : Sweep).Kept fileIndex :=
    ⟨hs.tracked, .inr rfl, hs.counted⟩
  have hprobed := hlearned.tell (e := .probed d) rfl
  generalize hs' : ({ s with fileTypeIndex := some fileIndex } : Sweep).tell (.probed d) = s'
    at hprobed
  have hlog : s'.log = s.log ++ [.probed d] := by
    rw [← hs']
    rfl
  unfold Sweep.settle
  split
  · next hsecond =>
    split
    · next hhid =>
      have hobject := ha.probe_eq.mp hhid
      obtain ⟨hkept, hgone, hrevoked⟩ := (hprobed.remember .hid (a := a)).revoke (a := a)
      rw [hhid]
      refine ⟨_, hkept, ?_, .revoked hfirst hsecond hobject hgone⟩
      rw [hrevoked]
      show s'.log ++ _ = _
      rw [hlog, List.append_assoc]
      rfl
    · next hhid =>
      exact ⟨_, hprobed.remember _, hlog, .kept hno fun h => hhid (ha.probe_eq.mpr h.2)⟩
  · next hsecond => exact ⟨_, hprobed, hlog, .kept hno fun h => hsecond h.1⟩

theorem Between.shows {table : HandleTable} {middle : List SweepEvent}
    (hm : Between a d table middle) (hd : a.duplicate = some d) :
    EntryShows a (.duplicated a.handle d :: middle ++ [.closedDuplicate d]) table := by
  cases hm with
  -- the first comparison fails: the duplicate is closed and nothing else is done
  | unpinned hfirst =>
    refine ⟨.inr ⟨d, [], hd, rfl, ?_⟩, ?_, ?_, ?_⟩
    · simp
    · simp
    · simp
    · intro _ hsame
      rw [hfirst] at hsame
      cases hsame
  -- not a file object, so it is not even probed
  | skipped hno =>
    refine ⟨.inr ⟨d, [], hd, rfl, ?_⟩, ?_, ?_, ?_⟩
    · simp
    · simp
    · simp
    · intro _ _ _ hhid
      rw [hno] at hhid
      cases hhid
  | kept hfile hnot =>
    refine ⟨.inr ⟨d, _, hd, rfl, ?_⟩, ?_, ?_, ?_⟩
    · simp [SweepEvent.isDuplicated, SweepEvent.isClosedDuplicate]
    · intro d' hmem
      have hd' : d' = d := by simpa using hmem
      exact ⟨hd' ▸ hd, hfile⟩
    · simp
    · intro _ _ hsecond hhid
      exact absurd ⟨hsecond, hhid⟩ hnot
  | revoked hfirst hsecond hhid hgone =>
    refine ⟨.inr ⟨d, _, hd, rfl, ?_⟩, ?_, ?_, ?_⟩
    · simp [SweepEvent.isDuplicated, SweepEvent.isClosedDuplicate]
    · intro d' hmem
      have hd' : d' = d := by simpa using hmem
      refine ⟨hd' ▸ hd, fun hno => ?_⟩
      rw [hhid] at hno
      cases hno
    · intro h status hmem
      have hpair : h = a.handle ∧ status = a.closeStatus := by simpa using hmem
      rw [hpair.1]
      exact ⟨rfl, hfirst, hsecond, hhid, hgone⟩
    · simp

theorem Between.revoked_le {table : HandleTable} {middle : List SweepEvent}
    (hm : Between a d table middle) :
    (SweepEvent.duplicated a.handle d :: middle ++ [SweepEvent.closedDuplicate d]).countP
      SweepEvent.isRevoked ≤ 1 := by
  cases hm with
  | unpinned _ => simp [SweepEvent.isRevoked]
  | skipped _ => simp [SweepEvent.isRevoked]
  | kept _ _ => simp [SweepEvent.isRevoked]
  | revoked _ _ _ _ =>
    by_cases hok : 0 ≤ a.closeStatus
    · simp [SweepEvent.isRevoked, hok]
    · simp [SweepEvent.isRevoked, hok]

/-- One round keeps what the sweep relies on and shows what it should. -/
theorem Sweep.Kept.round (hs : s.Kept fileIndex) (ha : a.pinned = true → a.Answered)
    (hindex : a.pinned = true → (a.objectTypeIndex = fileIndex ↔ a.object ≠ .notFile)) :
    ∃ new, (sweepEntry s a).Kept fileIndex ∧ (sweepEntry s a).log = s.log ++ new ∧
      EntryShows a new (sweepEntry s a).table ∧ new.countP SweepEvent.isRevoked ≤ 1 := by
  unfold sweepEntry
  cases hd : a.duplicate with
  | none =>
    refine ⟨[], hs, (List.append_nil _).symm, ⟨.inl ⟨hd, rfl⟩, ?_, ?_, ?_⟩, Nat.zero_le 1⟩
    · simp
    · simp
    · intro hsome
      rw [hd] at hsome
      cases hsome
  | some d =>
    dsimp only
    have hduplicated := hs.tell (e := .duplicated a.handle d) rfl
    by_cases hfirst : a.sameFirst = true
    · have hpinned : a.pinned = true := by
        rw [SweepAttempt.pinned, hd, hfirst]
        rfl
      obtain ⟨middle, hkept, hlog, hbetween⟩ :=
        hduplicated.examine (d := d) (ha hpinned) (hindex hpinned) hfirst
      rw [if_pos hfirst]
      refine ⟨_, hkept.tell rfl, ?_, hbetween.shows hd, hbetween.revoked_le⟩
      dsimp only [Sweep.tell] at hlog ⊢
      rw [hlog]
      simp
    · have hbetween : Between a d s.table [] := .unpinned (by simpa using hfirst)
      rw [if_neg hfirst]
      refine ⟨_, hduplicated.tell rfl, ?_, hbetween.shows hd, hbetween.revoked_le⟩
      dsimp only [Sweep.tell]
      simp

theorem settle_table (k : Kernel) {c : HandleClass} (hsecond : a.sameSecond = true) :
    (s.settle a c).table = (k.settle s.table a.handle c).2 := by
  unfold Sweep.settle Kernel.settle
  rw [if_pos hsecond]
  by_cases hhid : c = .hid
  · dsimp only
    rw [if_pos hhid, if_pos hhid]
    unfold Sweep.revoke
    dsimp only
    split <;> rfl
  · dsimp only
    rw [if_neg hhid, if_neg hhid]

/-- Where the kernel stays as it is, a round leaves the table that the sweep of `SteamState`
    leaves at the handle. -/
theorem sweepEntry_settle {k : Kernel} {o : OpenHandle} (hfind : k.find a.handle = some o)
    (hkind : a.object = o.kind) (hd : a.duplicate = some d) (hfirst : a.sameFirst = true)
    (hsecond : a.sameSecond = true) (ha : a.Answered)
    (hindex : a.objectTypeIndex = fileIndex ↔ a.object ≠ .notFile)
    (hs : s.fileTypeIndex = none ∨ s.fileTypeIndex = some fileIndex) :
    (sweepEntry s a).table =
      if k.isFileObject a.handle then
        (k.settle s.table a.handle (k.probeFileHandle a.handle)).2
      else s.table := by
  have hfile : k.isFileObject a.handle = (a.object != .notFile) := by
    rw [Kernel.isFileObject, hfind, hkind]
    rfl
  have hprobe : k.probeFileHandle a.handle =
      probeFileHandle a.fileType a.lastError a.hidAttributes := by
    rw [Kernel.probeFileHandle, hfind, Option.any_some]
    by_cases hhid : o.kind = .hid
    · rw [ha.probe_eq.mpr (hkind.trans hhid), hhid]
      rfl
    · rw [ha.probe_other (hkind ▸ hhid), if_neg (by simpa using hhid)]
  unfold sweepEntry Sweep.examine
  rw [hd]
  dsimp only
  rw [if_pos hfirst, fileCheck_eq (s := s.tell (.duplicated a.handle d)) ha hindex hs, hfile,
    hprobe]
  by_cases hno : a.object = .notFile
  · rw [if_pos hno, hno]
    rfl
  · rw [if_neg hno, if_pos (by simpa using hno)]
    exact settle_table k hsecond

end

/-! ## The whole sweep -/

section

variable {entries : List SweepAttempt} {fileIndex : UInt32}

/-- What the sweep relies on holds of every round, and so the log grows by one round for each
    entry. -/
theorem Sweep.Kept.loop
    (hindex : ∀ a ∈ entries, a.pinned = true →
      (a.objectTypeIndex = fileIndex ↔ a.object ≠ .notFile))
    (hanswered : ∀ a ∈ entries, a.pinned = true → a.Answered) :
    ∀ {s : Sweep}, s.Kept fileIndex → (sweepLoop entries s).Kept fileIndex ∧
      ∃ rounds : List (List SweepEvent),
        (sweepLoop entries s).log = s.log ++ rounds.flatten ∧ rounds.length = entries.length ∧
        rounds.flatten.countP SweepEvent.isRevoked ≤ entries.length ∧
        ∀ i a new, entries[i]? = some a → rounds[i]? = some new →
          EntryShows a new (sweepLoop (entries.take (i + 1)) s).table := by
  induction entries with
  | nil =>
    intro s hs
    exact ⟨hs, [], (List.append_nil _).symm, rfl, Nat.le_refl _, by simp⟩
  | cons a rest ih =>
    intro s hs
    obtain ⟨new, hkept, hlog, hshows, hle⟩ :=
      hs.round (hanswered a List.mem_cons_self) (hindex a List.mem_cons_self)
    obtain ⟨hend, rounds, hrest, hlen, hcount, hrounds⟩ :=
      ih (fun b hb => hindex b (List.mem_cons_of_mem _ hb))
        (fun b hb => hanswered b (List.mem_cons_of_mem _ hb)) hkept
    refine ⟨hend, new :: rounds, ?_, by rw [List.length_cons, hlen, List.length_cons], ?_, ?_⟩
    · show (sweepLoop rest (sweepEntry s a)).log = _
      rw [hrest, hlog, List.flatten_cons, List.append_assoc]
    · rw [List.flatten_cons, List.countP_append, List.length_cons]
      omega
    · intro i b more hb hmore
      cases i with
      | zero =>
        cases hb
        cases hmore
        exact hshows
      | succ i => exact hrounds i b more hb hmore

theorem Sweep.Kept.start {t : HandleTable} (ht : Tracked t) : (Sweep.start t).Kept fileIndex := by
  refine ⟨ht, .inl rfl, ?_⟩
  show (0 : Int) = i32 ((0 : Nat) : Int)
  rw [i32_of_range (by omega) (by omega)]
  rfl

/-- The sweep of a list that a reply can hold, from a table that its threads can reach. -/
theorem sweep_shows {ts : TableState} (hr : handleTable.Reach ts)
    (hindex : ∀ a ∈ entries, a.pinned = true →
      (a.objectTypeIndex = fileIndex ↔ a.object ≠ .notFile))
    (hanswered : ∀ a ∈ entries, a.pinned = true → a.Answered)
    (hreply : 16 + entries.length * handleEntrySize ≤ handleQueryLimit) :
    SweepShows ts.table entries ∧
    (discoverAndRevokeHidHandles ts.table (some entries)).lastRevoked =
      (discoverAndRevokeHidHandles ts.table (some entries)).log.countP SweepEvent.isRevoked := by
  obtain ⟨m, hm⟩ := System.reach_observed HandleMap.empty HandleMap.observe hr
  obtain ⟨hkept, rounds, hlog, hlen, hcount, hrounds⟩ :=
    Sweep.Kept.loop hindex hanswered (.start (follows_of_reach hm).tracked)
  have hlog : (sweepLoop entries (.start ts.table)).log = rounds.flatten := hlog
  refine ⟨⟨rounds, hlog, hlen, hrounds⟩, ?_⟩
  have hmany : entries.length < 2 ^ 31 := by
    rw [handleEntrySize, handleQueryLimit] at hreply
    omega
  show (sweepLoop entries (.start ts.table)).lastRevoked =
    (sweepLoop entries (.start ts.table)).log.countP SweepEvent.isRevoked
  rw [hkept.counted, hlog]
  exact i32_of_range (by omega) (by exact_mod_cast Nat.lt_of_le_of_lt hcount hmany)

/-- **The revocation sweep is exact**: in whichever order the entries come, the log of the sweep is
    one round for each of them. A round closes its duplicate once, probes files only, closes the
    original of every HID device whose comparisons held and of nothing else, and the count at the
    end is that of the handles closed. The table is one that its threads can reach, and the list
    one that a reply can hold. -/
theorem sweep_exact {ts : TableState} (hr : handleTable.Reach ts)
    (hindex : ∀ a ∈ entries, a.pinned = true →
      (a.objectTypeIndex = fileIndex ↔ a.object ≠ .notFile))
    (hanswered : ∀ a ∈ entries, a.pinned = true → a.Answered)
    (hreply : 16 + entries.length * handleEntrySize ≤ handleQueryLimit) :
    SweepShows ts.table entries ∧
    (discoverAndRevokeHidHandles ts.table (some entries)).lastRevoked =
      (discoverAndRevokeHidHandles ts.table (some entries)).log.countP SweepEvent.isRevoked :=
  sweep_shows hr hindex hanswered hreply

end

/-- A HID device whose comparisons hold and which can be closed. -/
def hidEntry : SweepAttempt :=
  { handle := 0x128, objectTypeIndex := 37, duplicated := true, duplicateValue := 0x204,
    sameFirst := true, typeReply := some ⟨0, 8, some fileTypeName⟩, fileType := 2, lastError := 0,
    hidAttributes := true, sameSecond := true, closeStatus := 0, object := .hid }

/-- A key, a HID device before any other file, one whose handle was recycled in between, and one
    whose close fails. -/
def fourEntries : List SweepAttempt :=
  [{ hidEntry with
      handle := 0x124, objectTypeIndex := 44, typeReply := some ⟨0, 6, some [0x4b, 0x65, 0x79]⟩,
      hidAttributes := false, object := .notFile },
    hidEntry, { hidEntry with handle := 0x12c, sameSecond := false },
    { hidEntry with handle := 0x130, closeStatus := -1 }]

theorem fourEntries_answered : ∀ a ∈ fourEntries, a.pinned = true → a.Answered := by
  intro a ha _
  simp only [fourEntries, hidEntry, List.mem_cons, List.not_mem_nil, or_false] at ha
  rcases ha with rfl | rfl | rfl | rfl <;>
    refine ⟨?_, ?_, by simp, by simp [fileTypeDisk, fileTypePipe, fileTypeUnknown]⟩
  · simp
  · intro _ reply units hr hu hlen
    cases hr
    cases hlen
  all_goals simp

theorem sweep_exact_fourEntries :
    SweepShows .initial fourEntries ∧
    (discoverAndRevokeHidHandles .initial (some fourEntries)).lastRevoked =
      (discoverAndRevokeHidHandles .initial (some fourEntries)).log.countP
        SweepEvent.isRevoked := by
  have hreach : handleTable.Reach { table := .initial, forgetting := [] } := .init rfl
  have hindex : ∀ a ∈ fourEntries, a.pinned = true →
      (a.objectTypeIndex = 37 ↔ a.object ≠ .notFile) := by decide
  exact sweep_exact hreach hindex fourEntries_answered (by decide)

end Gate
end SteamInputLease
