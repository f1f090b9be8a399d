import SteamInputLease.Proof.Recovery.StaticView

/-!
# The live-object scan is sound and complete

A pair that one chunk does not hold is never behind the next chunk's start (`pair_ahead`): after a
complete read because of the overlap, after a short one because a pair with both words readable
cannot reach into the page that stopped the read. So the scan of a region finds every pair of
readable words in it (`scanChunks_spec`), and the walk those of every region it comes to.

A scan may find more than it has to: a pair of words that match but belong to no object, or one
whose second word is read from a page that the view calls unreadable. `Covers` and `Gathers`
therefore bound the result from both sides, what may be in it and what has to be, and these bounds
are what is preserved, by one chunk, then by induction by all chunks of a region, and by one region
after another on the way up the address space. What is in between is for the validation that
`LiveScan` takes up.
-/

namespace SteamInputLease
namespace Recovery

open Lib

/-- Aligned, with both vtable words readable and in place. -/
structure Pair (byteAt : Nat → UInt8) (readable : Nat → Bool) (rt : RuntimeRecoveryLayout)
    (a : Nat) : Prop where
  aligned : 8 ∣ a
  first : WordIs byteAt readable a rt.primary
  second : WordIs byteAt readable (a + rt.layout.secondaryObjectOffset) rt.secondary

/-! ## Chunks -/

section

variable {byteAt : Nat → UInt8} {readable : Nat → Bool} {rt : RuntimeRecoveryLayout}

/-- A pair ahead of a chunk's start is in what was read of the chunk, or the scan goes on and the
    pair is still ahead. -/
theorem pair_ahead (hso : rt.layout.secondaryObjectOffset ≤ 0x100) {cs re a t ce : Nat}
    (hre : re ≤ usizeMax) (hce : ce = min (satAdd cs processScanChunk) re) (hcs : cs < re)
    (ht : t = delivered readable cs (ce - cs)) (ha : Pair byteAt readable rt a) (hle : cs ≤ a)
    (hin : a + rt.layout.secondaryObjectOffset + 8 ≤ re) :
    a + rt.layout.secondaryObjectOffset + 8 ≤ cs + t ∨
      ∃ next, nextScanStart cs ce re t (rt.layout.secondaryObjectOffset + 8 - 1) = some next ∧
        next ≤ a := by
  by_cases hfound : a + rt.layout.secondaryObjectOffset + 8 ≤ cs + t
  · exact .inl hfound
  refine .inr ?_
  have hce' : ce ≤ re ∧ (ce = re ∨ ce = cs + processScanChunk) := by
    unfold satAdd processScanChunk at hce
    unfold processScanChunk
    omega
  unfold processScanChunk at hce'
  rw [nextScanStart]
  split
  · next hshort =>
    have hstop : readable ((cs + delivered readable cs (ce - cs)) / scanPageSize) = false :=
      delivered_stop (ce - cs) cs (ht ▸ hshort)
    rw [← ht] at hstop
    -- the page that stopped the read holds neither end of the pair
    have hahead : ((cs + t) / scanPageSize + 1) * scanPageSize ≤ a := by
      have hnot : ∀ x, x / scanPageSize = (cs + t) / scanPageSize →
          readable (x / scanPageSize) ≠ true := by
        intro x hx
        rw [hx, hstop]
        exact Bool.false_ne_true
      have hread : ∀ i, i < t → readable ((cs + i) / scanPageSize) = true := fun i hi =>
        delivered_readable (ce - cs) cs i (ht ▸ hi)
      have hlast := ha.second.1 7 (by omega)
      have hfirst := ha.first.1 0 (by omega)
      unfold scanPageSize at *
      by_contra hbehind
      by_cases hsame : a / 4096 = (cs + t) / 4096
      · exact hnot a hsame hfirst
      by_cases hstart : cs + t = (cs + t) / 4096 * 4096
      · exact hnot _ (by omega) hlast
      · exact hnot _ (by omega) (hread ((cs + t) / 4096 * 4096 - cs) (by omega))
    have hsat : satMul ((cs + t) / scanPageSize + 1) scanPageSize ≤ a :=
      Nat.le_trans (Nat.min_le_left _ _) hahead
    exact ⟨_, if_pos (by omega), hsat⟩
  · next hfull =>
    have hle' : delivered readable cs (ce - cs) ≤ ce - cs := delivered_le _ cs
    rw [← ht] at hle'
    rw [if_neg (by omega)]
    exact ⟨_, if_pos (by omega), by omega⟩

/-- What a scan of `[lo, hi)` may and has to find. -/
structure Covers (byteAt : Nat → UInt8) (readable : Nat → Bool) (rt : RuntimeRecoveryLayout)
    (lo hi : Nat) (found : List Nat) : Prop where
  inside : ∀ a ∈ found, 8 ∣ a ∧ lo ≤ a ∧ a + rt.layout.secondaryObjectOffset + 8 ≤ hi
  all : ∀ a, Pair byteAt readable rt a → lo ≤ a →
    a + rt.layout.secondaryObjectOffset + 8 ≤ hi → a ∈ found

theorem Covers.nil {lo hi : Nat} (h : hi ≤ lo) : Covers byteAt readable rt lo hi [] := by
  refine ⟨fun a ha => absurd ha List.not_mem_nil, fun a _ hlo hhi => ?_⟩
  omega

variable {memory : ProcessMemory Id}

/-- One chunk: what the matcher finds in it are aligned pairs inside the region, and every pair
    that was read. -/
theorem chunk_found (hv : StaticView memory byteAt readable) (hp : rt.primary ≠ 0)
    (hso : rt.layout.secondaryObjectOffset ≤ 0x100) {cs n : Nat} (hcs : cs + n ≤ usizeMax)
    {buffer chunk : List UInt8} (hn : n ≤ buffer.length)
    (hc : chunk = ((memory.read cs (buffer.take n)).2 ++ buffer.drop n).take
      (delivered readable cs n)) :
    Covers byteAt readable rt cs (cs + delivered readable cs n)
      (findVtablePairs chunk cs rt.primary rt.secondary rt.layout.secondaryObjectOffset) := by
  obtain ⟨hlen, hwords⟩ := chunk_bytes hv hn hc
  have hmem : ∀ a, a ∈ findVtablePairs chunk cs rt.primary rt.secondary
      rt.layout.secondaryObjectOffset ↔ ∃ o, a = cs + o ∧ 8 ∣ a ∧
        o + rt.layout.secondaryObjectOffset + 8 ≤ chunk.length ∧ wordAt chunk o = rt.primary ∧
        wordAt chunk (o + rt.layout.secondaryObjectOffset) = rt.secondary := fun a =>
    mem_findVtablePairs hp (by unfold usizeMax at hcs; omega) (by unfold usizeMax; omega)
  refine ⟨fun a ha => ?_, fun a ha hle hin => ?_⟩
  · obtain ⟨o, rfl, hdvd, ho, _⟩ := (hmem a).mp ha
    exact ⟨hdvd, by omega, by omega⟩
  · refine (hmem a).mpr ⟨a - cs, by omega, ha.aligned, by omega, ?_, ?_⟩
    · rw [hwords _ (by omega), Nat.add_sub_cancel' hle]
      exact ha.first.2
    · rw [hwords _ (by omega), ← Nat.add_assoc, Nat.add_sub_cancel' hle]
      exact ha.second.2


/-- One chunk of a region: the buffer keeps its size, and the scan ends or goes on with nothing
    left behind. -/
theorem scanChunk_spec (hv : StaticView memory byteAt readable) (hp : rt.primary ≠ 0)
    (hso : rt.layout.secondaryObjectOffset ≤ 0x100) {re cs : Nat} (hre : re ≤ usizeMax)
    (hcs : cs < re) {buffer : List UInt8} (hb : buffer.length = processScanChunk)
    (candidates : List Nat) :
    ∃ next buffer' found, Id.run (scanChunk memory rt re cs buffer candidates) =
        (next, buffer', candidates ++ found) ∧
      buffer'.length = processScanChunk ∧
      (∀ a ∈ found, 8 ∣ a ∧ cs ≤ a ∧ a + rt.layout.secondaryObjectOffset + 8 ≤ re) ∧
      (∀ n, next = some n → cs < n ∧ n < re) ∧
      ∀ a, Pair byteAt readable rt a → cs ≤ a → a + rt.layout.secondaryObjectOffset + 8 ≤ re →
        a ∈ found ∨ ∃ n, next = some n ∧ n ≤ a := by
  obtain ⟨ce, hce⟩ : ∃ ce, ce = min (satAdd cs processScanChunk) re := ⟨_, rfl⟩
  have hends : ce ≤ re ∧ cs ≤ ce ∧ ce - cs ≤ processScanChunk := by
    unfold satAdd at hce
    omega
  obtain ⟨n, hn⟩ : ∃ n, n = ce - cs := ⟨_, rfl⟩
  have htake : (buffer.take n).length = n := List.length_take_of_le (by omega)
  have hcount := hv.count cs (buffer.take n)
  have hle : delivered readable cs n ≤ n := delivered_le n cs
  rw [htake] at hcount
  obtain ⟨t, ht⟩ : ∃ t, t = delivered readable cs n := ⟨_, rfl⟩
  obtain ⟨left, hleft⟩ : ∃ left, left = (memory.read cs (buffer.take n)).2 ++ buffer.drop n :=
    ⟨_, rfl⟩
  -- what was delivered is searched whole
  have hfound : Covers byteAt readable rt cs (cs + t) (findVtablePairs (left.take t) cs rt.primary
      rt.secondary rt.layout.secondaryObjectOffset) := by
    rw [ht]
    have hn' : n ≤ buffer.length := by omega
    refine chunk_found hv hp hso (by omega) hn' ?_
    rw [hleft]
  refine ⟨nextScanStart cs ce re t (rt.layout.secondaryObjectOffset + 8 - 1), left,
    findVtablePairs (left.take t) cs rt.primary rt.secondary rt.layout.secondaryObjectOffset,
    ?_, ?_, ?_, ?_, ?_⟩
  · have hmin : min (memory.read cs (buffer.take n)).1 n = t := by
      rw [hcount, ← ht]
      omega
    rw [← hmin, hleft, hn, hce]
    rfl
  · rw [hleft, List.length_append, hv.length, htake, List.length_drop]
    omega
  · intro a ha
    obtain ⟨hdvd, hlo, hhi⟩ := hfound.inside a ha
    exact ⟨hdvd, hlo, by omega⟩
  · intro next hnext
    exact nextScanStart_lt hnext (by omega)
  · intro a ha hlo hhi
    -- a pair that straddles the chunk's end starts in the overlap the next chunk begins with
    rcases pair_ahead hso hre hce hcs (hn ▸ ht) ha hlo hhi with hin | hnext
    · exact .inl (hfound.all a ha hlo hin)
    · exact .inr hnext

/-- The scan of a region goes through all of it. -/
theorem scanChunks_spec (hv : StaticView memory byteAt readable) (hp : rt.primary ≠ 0)
    (hso : rt.layout.secondaryObjectOffset ≤ 0x100) {re : Nat} (hre : re ≤ usizeMax) :
    ∀ n cs buffer candidates, re - cs ≤ n → buffer.length = processScanChunk →
      ∃ buffer' found, Id.run (scanChunks memory rt re n cs buffer candidates) =
          (buffer', candidates ++ found) ∧
        buffer'.length = processScanChunk ∧ Covers byteAt readable rt cs re found := by
  intro n
  induction n with
  | zero =>
    intro cs buffer candidates hn hb
    exact ⟨buffer, [], by rw [List.append_nil]; rfl, hb, Covers.nil (by omega)⟩
  | succ n ih =>
    intro cs buffer candidates hn hb
    rw [scanChunks]
    split
    · next hcs =>
      obtain ⟨next, left, found, hrun, hlen, hin, hnext, hall⟩ :=
        scanChunk_spec hv hp hso hre hcs hb candidates
      rw [Id.run_bind, hrun]
      -- the scan of the region ends with this chunk, or goes on behind it
      cases next with
      | none =>
        refine ⟨left, found, rfl, hlen, hin, fun a ha hlo hhi => ?_⟩
        rcases hall a ha hlo hhi with h | ⟨_, h, _⟩
        · exact h
        · cases h
      | some next =>
        obtain ⟨hlt, _⟩ := hnext next rfl
        obtain ⟨buffer', rest, hrest, hlen', hcov⟩ :=
          ih next left (candidates ++ found) (by omega) hlen
        refine ⟨buffer', found ++ rest, by rw [← List.append_assoc]; exact hrest, hlen', ?_, ?_⟩
        · intro a ha
          rcases List.mem_append.mp ha with h | h
          · exact hin a h
          · obtain ⟨hdvd, hlo, hhi⟩ := hcov.inside a h
            exact ⟨hdvd, by omega, hhi⟩
        · intro a ha hlo hhi
          rcases hall a ha hlo hhi with h | ⟨m, hm, hle⟩
          · exact List.mem_append_left _ h
          · cases hm
            exact List.mem_append_right _ (hcov.all a ha hle hhi)
    · next hcs => exact ⟨buffer, [], by rw [List.append_nil]; rfl, hb, Covers.nil (by omega)⟩

/-! ## The walk -/

/-- What the walk from `address` may and has to find. -/
structure Gathers (memory : ProcessMemory Id) (byteAt : Nat → UInt8) (readable : Nat → Bool)
    (rt : RuntimeRecoveryLayout) (address : Nat) (found : List Nat) : Prop where
  inside : ∀ a ∈ found, 8 ∣ a ∧ ∃ r, Reached memory address r ∧
    memoryIsReadable r.state r.protect = true ∧ r.kind = memPrivate ∧ r.holdsWord a ∧
    r.holdsWord (a + rt.layout.secondaryObjectOffset)
  all : ∀ a r, Pair byteAt readable rt a → Reached memory address r →
    memoryIsReadable r.state r.protect = true → r.kind = memPrivate → r.holdsWord a →
    r.holdsWord (a + rt.layout.secondaryObjectOffset) → a ∈ found

theorem scanRegion_spec (hv : StaticView memory byteAt readable) (hp : rt.primary ≠ 0)
    (hso : rt.layout.secondaryObjectOffset ≤ 0x100) {r : MemoryRegion}
    (hr : r.base + r.size ≤ usizeMax) {buffer : List UInt8}
    (hb : buffer.length = processScanChunk) (candidates : List Nat) :
    ∃ buffer' found, Id.run (scanRegion memory rt r buffer candidates) =
        (buffer', candidates ++ found) ∧ buffer'.length = processScanChunk ∧
      if memoryIsReadable r.state r.protect = true ∧ r.kind = memPrivate then
        Covers byteAt readable rt r.base (r.base + r.size) found
      else found = [] := by
  have hlimit : r.limit = r.base + r.size := Nat.min_eq_left hr
  rw [scanRegion]
  simp only [Bool.and_eq_true, beq_iff_eq]
  split
  · rw [hlimit]
    exact scanChunks_spec hv hp hso hr _ _ buffer candidates (Nat.le_refl _) hb
  · exact ⟨buffer, [], by rw [List.append_nil]; rfl, hb, rfl⟩

theorem Gathers.nil {address : Nat} (h : ∀ r, ¬Reached memory address r) :
    Gathers memory byteAt readable rt address [] :=
  ⟨fun _ ha => absurd ha List.not_mem_nil, fun _ r _ hr => absurd hr (h r)⟩

/-- The region around the address, and then the walk from its end. -/
theorem Gathers.region {address : Nat} {r : MemoryRegion} {found rest : List Nat}
    (hlt : address < usizeMax / 2) (hq : memory.query address = some r)
    (hfound : if memoryIsReadable r.state r.protect = true ∧ r.kind = memPrivate then
      Covers byteAt readable rt r.base (r.base + r.size) found else found = [])
    (hrest : Gathers memory byteAt readable rt (r.base + r.size) rest) :
    Gathers memory byteAt readable rt address (found ++ rest) := by
  refine ⟨fun a ha => ?_, fun a r' hpair hr' hread hkind hfirst hsecond => ?_⟩
  · rcases List.mem_append.mp ha with h | h
    · split at hfound
      · next hok =>
        obtain ⟨hdvd, hlo, hhi⟩ := hfound.inside a h
        refine ⟨hdvd, r, .here hlt hq, hok.1, hok.2, ⟨hlo, by omega⟩, ⟨by omega, by omega⟩⟩
      · rw [hfound] at h
        cases h
    · obtain ⟨hdvd, r', hr', hrest⟩ := hrest.inside a h
      exact ⟨hdvd, r', .next hlt hq hr', hrest⟩
  · cases hr' with
    | here _ hq' =>
      rw [hq, Option.some.injEq] at hq'
      subst hq'
      rw [if_pos ⟨hread, hkind⟩] at hfound
      exact List.mem_append_left _ (hfound.all a hpair hfirst.1 hsecond.2)
    | next _ hq' hr' =>
      rw [hq, Option.some.injEq] at hq'
      subst hq'
      exact List.mem_append_right _ (hrest.all a r' hpair hr' hread hkind hfirst hsecond)

theorem not_reached {address : Nat} (h : ¬address < usizeMax / 2 ∨ memory.query address = none)
    (r : MemoryRegion) : ¬Reached memory address r := by
  intro hr
  cases hr with
  | here hlt hq =>
    rcases h with h | h
    · exact h hlt
    · rw [h] at hq
      cases hq
  | next hlt hq _ =>
    rcases h with h | h
    · exact h hlt
    · rw [h] at hq
      cases hq

theorem walk_spec (hv : StaticView memory byteAt readable) (hp : rt.primary ≠ 0)
    (hso : rt.layout.secondaryObjectOffset ≤ 0x100) :
    ∀ n address buffer candidates, usizeMax / 2 - address ≤ n → buffer.length = processScanChunk →
      ∃ found, Id.run (walk memory rt n address buffer candidates) = candidates ++ found ∧
        Gathers memory byteAt readable rt address found := by
  intro n
  induction n with
  | zero =>
    intro address buffer candidates hn _
    exact ⟨[], by rw [List.append_nil]; rfl, .nil (not_reached (.inl (by omega)))⟩
  | succ n ih =>
    intro address buffer candidates hn hb
    rw [walk]
    split
    · next hlt =>
      rw [Id.run_bind]
      cases hq : Id.run (memory.query address) with
      | none => exact ⟨[], by rw [List.append_nil]; rfl, .nil (not_reached (.inr hq))⟩
      | some r =>
        obtain ⟨_, hafter, hr⟩ := hv.region address r hq
        have hlimit : r.limit = r.base + r.size := Nat.min_eq_left hr
        obtain ⟨left, found, hrun, hlen, hfound⟩ := scanRegion_spec hv hp hso hr hb candidates
        obtain ⟨rest, hwalk, hrest⟩ := ih r.limit left (candidates ++ found) (by omega) hlen
        refine ⟨found ++ rest, ?_, .region hlt hq hfound (hlimit ▸ hrest)⟩
        dsimp only
        rw [Id.run_bind, hrun, ← List.append_assoc]
        dsimp only
        rw [if_neg (by omega)]
        exact hwalk
    · next hlt =>
      exact ⟨[], by rw [List.append_nil]; rfl, .nil (not_reached (.inl hlt))⟩

/-! ## The result -/

theorem mem_retainLive {a : Nat} : ∀ l, a ∈ Id.run (retainLive memory rt l) ↔
    a ∈ l ∧ Id.run (hidThreadIsLive memory rt a) = true := by
  intro l
  induction l with
  | nil => simp [retainLive]
  | cons c l ih =>
    rw [retainLive, Id.run_bind, Id.run_bind, Id.run_pure]
    by_cases hc : Id.run (hidThreadIsLive memory rt c) = true
    · rw [if_pos hc, List.mem_cons, List.mem_cons, ih]
      constructor
      · rintro (rfl | ⟨ha, hl⟩)
        · exact ⟨.inl rfl, hc⟩
        · exact ⟨.inr ha, hl⟩
      · intro h
        obtain ⟨rfl | ha, hl⟩ := h
        · exact .inl rfl
        · exact .inr ⟨ha, hl⟩
    · rw [if_neg hc, List.mem_cons, ih]
      constructor
      · intro h
        obtain ⟨ha, hl⟩ := h
        exact ⟨.inr ha, hl⟩
      · intro h
        obtain ⟨rfl | ha, hl⟩ := h
        · exact absurd hl hc
        · exact ⟨ha, hl⟩

theorem mem_dedup {a : Nat} : ∀ l, a ∈ dedup l ↔ a ∈ l := by
  intro l
  induction l using dedup.induct with
  | case1 => rfl
  | case2 b => rfl
  | case3 b l ih =>
    rw [dedup, if_pos rfl, ih, List.mem_cons, List.mem_cons]
    simp
  | case4 b c l hne ih => rw [dedup, if_neg hne, List.mem_cons, ih, List.mem_cons (a := a) (b := b)]

/-- `dedup` of a sorted list is strictly ascending. -/
theorem dedup_ascending : ∀ l : List Nat, l.Pairwise (· ≤ ·) → (dedup l).Pairwise (· < ·) := by
  intro l
  induction l using dedup.induct with
  | case1 => exact fun _ => .nil
  | case2 b => exact fun _ => List.pairwise_singleton _ b
  | case3 b l ih =>
    intro h
    rw [dedup, if_pos rfl]
    exact ih (List.pairwise_cons.mp h).2
  | case4 b c l hne ih =>
    intro h
    obtain ⟨hhead, htail⟩ := List.pairwise_cons.mp h
    rw [dedup, if_neg hne]
    refine List.pairwise_cons.mpr ⟨fun a ha => ?_, ih htail⟩
    have hbc := hhead c List.mem_cons_self
    have hca : c ≤ a := by
      rcases List.mem_cons.mp ((mem_dedup _).mp ha) with rfl | hal
      · exact Nat.le_refl _
      · exact (List.pairwise_cons.mp htail).1 a hal
    omega

end

end Recovery
end SteamInputLease
