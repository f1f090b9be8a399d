import SteamInputLease.Recovery.Snapshot

/-!
# Snapshots place every byte at its RVA

From `address` on a loop reads nothing below it, so a byte that is in its place stays there.
`Copied` says what the rounds that are left do to the image: one lemma puts a query before them, one
a read, and the rounds follow by induction. The payload's loop makes the calls of the host's under
other names.

What the regions and the reads answer is not restricted. A query may name the region of another
address, a read may deliver less than it was asked for or fail, and the bytes that were not
delivered are those the image had, zeros at first. So the statement is about the log: a byte of the
image is what the read of the window with this byte delivered for it, or zero. The windows are
disjoint since `address` only goes up, and the sums that find the next one saturate, at the end of
the address space too; that the rounds do not run out rests on it as well. For the payload nothing
is proved again (`rounds_mirror`).
-/

namespace SteamInputLease
namespace Recovery

open Lib Lib.Program
open Launch (Error RemoteModule)

/-- The call reads the byte at an address. -/
def SnapshotCall.reads (x : Nat) : SnapshotCall → Bool
  | .readProcessMemory _ address length => decide (address ≤ x ∧ x < address + length)
  | _ => false

/-- The read was answered with a byte for the address. -/
def Delivers : SnapshotCall × SnapshotAnswer → Nat → UInt8 → Prop
  | (.readProcessMemory _ address length, answer), x, byte =>
    address ≤ x ∧ x < address + length ∧ answer.delivered (x - address) = some byte
  | _, _, _ => False

/-- What the rounds from `address` on do to an image of the memory from `base` on. -/
structure Copied (base address stop : Nat) (before : List UInt8)
    (log : List (SnapshotCall × SnapshotAnswer)) (after : List UInt8) : Prop where
  length : after.length = before.length
  inside : ∀ p ∈ log, ∀ x, p.1.reads x = true → address ≤ x ∧ x < stop
  once : ∀ x, log.countP (fun p => p.1.reads x) ≤ 1
  placed : ∀ p ∈ log, ∀ x byte, Delivers p x byte → after[x - base]? = some byte
  kept : ∀ i, (∀ p ∈ log, ∀ byte, ¬ Delivers p (base + i) byte) → after[i]? = before[i]?

/-- A snapshot of `size` bytes from `base` on. -/
structure Placed (base size : Nat) (log : List (SnapshotCall × SnapshotAnswer))
    (image : List UInt8) : Prop where
  length : image.length = size
  ends : log.length ≤ 2 * size
  inside : ∀ p ∈ log, ∀ x, p.1.reads x = true → base ≤ x ∧ x < base + size
  once : ∀ x, log.countP (fun p => p.1.reads x) ≤ 1
  placed : ∀ p ∈ log, ∀ x byte, Delivers p x byte → image[x - base]? = some byte
  zero : ∀ i, i < size → (∀ p ∈ log, ∀ byte, ¬ Delivers p (base + i) byte) → image[i]? = some 0

theorem Delivers.reads {p : SnapshotCall × SnapshotAnswer} {x : Nat} {byte : UInt8}
    (h : Delivers p x byte) : p.1.reads x = true := by
  obtain ⟨call, answer⟩ := p
  cases call with
  | readProcessMemory process address length => exact decide_eq_true ⟨h.1, h.2.1⟩
  | _ => cases h

/-! ## A window -/

section

variable {image : List UInt8} {answer : SnapshotAnswer} {start length : Nat}

/-- The image with the window `[start, start + length)` behind a read. -/
def refilled (image : List UInt8) (answer : SnapshotAnswer) (start length : Nat) : List UInt8 :=
  image.take start ++ answer.fill ((image.drop start).take length) ++ image.drop (start + length)

theorem length_fill (answer : SnapshotAnswer) (h : start + length ≤ image.length) :
    (answer.fill ((image.drop start).take length)).length = length := by
  rw [SnapshotAnswer.fill, List.length_mapIdx, List.length_take, List.length_drop]
  omega

theorem length_refilled (h : start + length ≤ image.length) :
    (refilled image answer start length).length = image.length := by
  rw [refilled, List.length_append, List.length_append, length_fill answer h, List.length_take,
    List.length_drop]
  omega

/-- In the window a byte that is delivered takes the place of the old one. -/
theorem refilled_window (h : start + length ≤ image.length) {i : Nat} (hstart : start ≤ i)
    (hend : i < start + length) :
    (refilled image answer start length)[i]? =
      image[i]?.map fun old => (answer.delivered (i - start)).getD old := by
  have hbefore : (image.take start).length = start := List.length_take_of_le (by omega)
  have hwindow := length_fill answer h
  rw [refilled, List.append_assoc, List.getElem?_append_right (by omega), hbefore,
    List.getElem?_append_left (by omega), SnapshotAnswer.fill, List.getElem?_mapIdx,
    List.getElem?_take_of_lt (by omega), List.getElem?_drop, Nat.add_sub_cancel' hstart]

/-- Outside of the window the image is as it was. -/
theorem refilled_outside (h : start + length ≤ image.length) {i : Nat}
    (hi : i < start ∨ start + length ≤ i) :
    (refilled image answer start length)[i]? = image[i]? := by
  have hbefore : (image.take start).length = start := List.length_take_of_le (by omega)
  have hwindow := length_fill answer h
  rcases hi with hi | hi
  · rw [refilled, List.append_assoc, List.getElem?_append_left (by omega),
      List.getElem?_take_of_lt hi]
  · rw [refilled, List.append_assoc, List.getElem?_append_right (by omega), hbefore,
      List.getElem?_append_right (by omega), hwindow, List.getElem?_drop]
    congr 1
    omega

/-- A byte that is not delivered is the old one. -/
theorem refilled_kept (h : start + length ≤ image.length) {i : Nat}
    (hnone : start ≤ i → i < start + length → answer.delivered (i - start) = none) :
    (refilled image answer start length)[i]? = image[i]? := by
  by_cases hwindow : start ≤ i ∧ i < start + length
  · rw [refilled_window h hwindow.1 hwindow.2, hnone hwindow.1 hwindow.2]
    cases image[i]? <;> rfl
  · exact refilled_outside h (by omega)

end

/-! ## The rounds that are left -/

section

variable {base address next stop : Nat} {before after : List UInt8}
  {rest : List (SnapshotCall × SnapshotAnswer)} {query : SnapshotCall} {answer : SnapshotAnswer}

theorem Copied.done : Copied base address stop before [] before := by
  refine ⟨rfl, ?_, fun x => Nat.zero_le 1, ?_, fun i _ => rfl⟩
  · intro p hp
    cases hp
  · intro p hp
    cases hp

/-- A query before other rounds. -/
theorem Copied.queried (hle : address ≤ next) (hquery : ∀ x, query.reads x = false)
    (h : Copied base next stop before rest after) :
    Copied base address stop before ((query, answer) :: rest) after := by
  refine ⟨h.length, ?_, ?_, ?_, ?_⟩
  · intro p hp x hx
    rcases List.mem_cons.mp hp with rfl | hp
    · rw [hquery x] at hx
      cases hx
    · have hinside := h.inside p hp x hx
      omega
  · intro x
    rw [List.countP_cons, hquery x]
    exact h.once x
  · intro p hp x byte hdelivers
    rcases List.mem_cons.mp hp with rfl | hp
    · have hreads := hdelivers.reads
      rw [hquery x] at hreads
      cases hreads
    · exact h.placed p hp x byte hdelivers
  · intro i hi
    exact h.kept i fun p hp => hi p (List.mem_cons_of_mem _ hp)

/-- Behind the window nothing is delivered for it any more. -/
theorem Copied.not_delivered (h : Copied base next stop before rest after) {x : Nat}
    (hx : x < next) : ∀ p ∈ rest, ∀ byte, ¬ Delivers p x byte := by
  intro p hp byte hdelivers
  have hinside := h.inside p hp x hdelivers.reads
  omega

theorem Copied.not_read (h : Copied base next stop before rest after) {x : Nat} (hx : x < next) :
    rest.countP (fun p => p.1.reads x) = 0 := by
  rw [List.countP_eq_zero]
  intro p hp hreads
  have hinside := h.inside p hp x hreads
  omega

variable {start : Nat} {read : SnapshotAnswer}

/-- A read of `[start, next)` before the rounds from `next` on. -/
theorem Copied.window (process : UInt64) (hbase : base ≤ address) (haddress : address ≤ start)
    (hlt : start < next) (hnext : next ≤ stop) (himage : stop ≤ base + before.length)
    (h : Copied base next stop (refilled before read (start - base) (next - start)) rest after) :
    Copied base address stop before
      ((.readProcessMemory process start (next - start), read) :: rest) after := by
  have hin : start - base + (next - start) ≤ before.length := by omega
  have hread : ∀ x, (SnapshotCall.readProcessMemory process start (next - start)).reads x = true →
      start ≤ x ∧ x < next := by
    intro x hx
    have hwindow : start ≤ x ∧ x < start + (next - start) := of_decide_eq_true hx
    omega
  have hplaced : ∀ x byte,
      Delivers (.readProcessMemory process start (next - start), read) x byte →
        after[x - base]? = some byte := by
    intro x byte hdelivers
    obtain ⟨hfrom, hto, hbyte⟩ := hdelivers
    have hoffset : x - base - (start - base) = x - start := by omega
    have hold : x - base < before.length := by omega
    rw [h.kept (x - base) (h.not_delivered (by omega)),
      refilled_window hin (by omega) (by omega), hoffset, hbyte, List.getElem?_eq_getElem hold]
    rfl
  -- below `next` only this read counts, from `next` on only those of the rounds behind it
  refine ⟨h.length.trans (length_refilled hin), ?_, ?_, ?_, ?_⟩
  · intro p hp x hx
    rcases List.mem_cons.mp hp with rfl | hp
    · have hwindow := hread x hx
      omega
    · have hinside := h.inside p hp x hx
      omega
  · intro x
    rw [List.countP_cons]
    by_cases hx : x < next
    · rw [h.not_read hx]
      split <;> omega
    · have hnot : (SnapshotCall.readProcessMemory process start (next - start)).reads x ≠ true :=
        fun hreads => hx (hread x hreads).2
      rw [if_neg hnot]
      exact h.once x
  · intro p hp x byte hdelivers
    rcases List.mem_cons.mp hp with rfl | hp
    · exact hplaced x byte hdelivers
    · exact h.placed p hp x byte hdelivers
  · intro i hi
    rw [h.kept i fun p hp => hi p (List.mem_cons_of_mem _ hp)]
    refine refilled_kept hin fun hfrom hto => ?_
    have hoffset : i - (start - base) = base + i - start := by omega
    rw [hoffset, Option.eq_none_iff_forall_ne_some]
    intro byte hbyte
    exact hi _ List.mem_cons_self byte ⟨by omega, by omega, hbyte⟩

end

/-! ## The loop of the host -/

theorem lt_satAdd_page {address stop : Nat} (hstop : address < stop) (hmax : stop ≤ usizeMax) :
    address < satAdd address 0x1000 := by
  rw [satAdd]
  omega

/-- The rounds do not run out, nothing crashes, and the bytes are where they belong. -/
theorem remoteRounds_yields (process : UInt64) (module : RemoteModule) {stop : Nat}
    (hmax : stop ≤ usizeMax) : ∀ (rounds address : Nat) (image : List UInt8),
    module.base ≤ address → stop ≤ module.base + image.length → stop - address ≤ rounds →
      Yields (fun log r => ∃ after, r = .ok after ∧ log.length ≤ 2 * (stop - address) ∧
        Copied module.base address stop image log after)
        (remoteRounds process module stop rounds address image).run := by
  intro rounds
  induction rounds with
  | zero =>
    intro address image _ _ hrounds
    have hdone : ¬ address < stop := by omega
    rw [remoteRounds, if_neg hdone]
    exact .pure ⟨image, rfl, Nat.zero_le _, .done⟩
  | succ rounds ih =>
    intro address image hbase himage hrounds
    rw [remoteRounds]
    split
    case isFalse => exact .pure ⟨image, rfl, Nat.zero_le _, .done⟩
    case isTrue hlt =>
      have hpage := lt_satAdd_page hlt hmax
      -- the loop goes on at `next` without a read
      have hskip : ∀ next query, address < next →
          Yields (fun log r => ∃ after, r = .ok after ∧ log.length + 1 ≤ 2 * (stop - address) ∧
            Copied module.base address stop image ((.virtualQueryEx process address, query) :: log)
              after) (remoteRounds process module stop rounds next image).run := by
        intro next query hnext
        refine (ih next image (by omega) himage (by omega)).imp fun log r hr => ?_
        obtain ⟨after, rfl, hends, hafter⟩ := hr
        exact ⟨after, rfl, by omega, hafter.queried (Nat.le_of_lt hnext) fun _ => rfl⟩
      refine .calling fun query => ?_
      cases query.region with
      | none => exact hskip _ query hpage
      | some memory =>
        have hfrom : address ≤ max memory.base address := Nat.le_max_right _ _
        have hto : min (satAdd memory.base memory.size) stop ≤ stop := Nat.min_le_right _ _
        dsimp only
        generalize max memory.base address = start at hfrom ⊢
        generalize min (satAdd memory.base memory.size) stop = next at hto ⊢
        split
        case isTrue => exact hskip _ query hpage
        case isFalse hclipped =>
          split
          case isFalse => exact hskip next query (by omega)
          case isTrue =>
            have hin : start - module.base + (next - start) ≤ image.length := by omega
            refine .step (MayPanic.sub_ok (by omega)) (.step (MayPanic.sub_ok (by omega)) ?_)
            refine .step (MayPanic.add_ok (by omega)) (.step (MayPanic.slice_ok (by omega) hin) ?_)
            rw [Nat.add_sub_cancel_left]
            refine .calling fun read => ?_
            refine (ih next (refilled image read (start - module.base) (next - start)) (by omega)
              (by rwa [length_refilled hin]) (by omega)).imp fun log r hr => ?_
            obtain ⟨after, rfl, hends, hafter⟩ := hr
            have hwindow := hafter.window process hbase hfrom (by omega) hto himage
            refine ⟨after, rfl, ?_, hwindow.queried (Nat.le_refl address) fun _ => rfl⟩
            rw [List.length_cons, List.length_cons]
            omega

/-! ## The payload does the same -/

/-- The call the payload makes where the host makes this one. -/
def SnapshotCall.ofPayload : SnapshotCall → SnapshotCall
  | .virtualQueryEx _ address => .virtualQuery address
  | .virtualQuery address => .virtualQuery address
  | .readProcessMemory _ address length => .readProcessMemory currentProcess address length

theorem rounds_mirror (process : UInt64) (module : RemoteModule) (stop : Nat) :
    ∀ (rounds address : Nat) (image : List UInt8),
      Mirrors SnapshotCall.ofPayload (remoteRounds process module stop rounds address image).run
        (currentRounds module.base stop rounds address image).run := by
  intro rounds
  induction rounds with
  | zero =>
    intro address image
    rw [remoteRounds, currentRounds]
    split
    · exact .pure _
    · exact .pure _
  | succ rounds ih =>
    intro address image
    rw [remoteRounds, currentRounds]
    split
    case isFalse => exact .pure _
    case isTrue =>
      refine .calling fun query => ?_
      cases query.region with
      | none => exact ih _ image
      | some memory =>
        dsimp only
        split
        case isTrue => exact ih _ image
        case isFalse =>
          split
          case isFalse => exact ih _ image
          case isTrue =>
            refine .step fun destination => .step fun length => .step fun past => ?_
            exact .step fun window => .calling fun read => ih _ _

theorem SnapshotCall.reads_ofPayload (call : SnapshotCall) (x : Nat) :
    call.ofPayload.reads x = call.reads x := by
  cases call <;> rfl

theorem delivers_ofPayload (p : SnapshotCall × SnapshotAnswer) (x : Nat) (byte : UInt8) :
    Delivers (Prod.map SnapshotCall.ofPayload id p) x byte ↔ Delivers p x byte := by
  obtain ⟨call, answer⟩ := p
  cases call <;> exact Iff.rfl

section

variable {base size : Nat} {log : List (SnapshotCall × SnapshotAnswer)} {image : List UInt8}

/-- The loop from `base` on, over an image of zeros. -/
theorem Copied.snapshot {stop : Nat} (hstop : stop ≤ base + size)
    (hends : log.length ≤ 2 * (stop - base))
    (h : Copied base base stop (.replicate size 0) log image) : Placed base size log image := by
  refine ⟨by rw [h.length, List.length_replicate], by omega, ?_, h.once, h.placed, ?_⟩
  · intro p hp x hx
    have hinside := h.inside p hp x hx
    omega
  · intro i hi hnone
    rw [h.kept i hnone, List.getElem?_replicate, if_pos hi]

/-- The names of the calls do not matter. -/
theorem Placed.ofPayload (h : Placed base size log image) :
    Placed base size (log.map (Prod.map SnapshotCall.ofPayload id)) image := by
  refine ⟨h.length, by rw [List.length_map]; exact h.ends, ?_, ?_, ?_, ?_⟩
  · intro p hp x hx
    obtain ⟨q, hq, rfl⟩ := List.mem_map.mp hp
    exact h.inside q hq x (by rwa [← SnapshotCall.reads_ofPayload])
  · intro x
    have hreads : ((fun p : SnapshotCall × SnapshotAnswer => p.1.reads x) ∘
        Prod.map SnapshotCall.ofPayload id) = fun p => p.1.reads x :=
      funext fun p => p.1.reads_ofPayload x
    rw [List.countP_map, hreads]
    exact h.once x
  · intro p hp x byte hdelivers
    obtain ⟨q, hq, rfl⟩ := List.mem_map.mp hp
    exact h.placed q hq x byte ((delivers_ofPayload q x byte).mp hdelivers)
  · intro i hi hnone
    refine h.zero i hi fun p hp byte hdelivers => ?_
    exact hnone _ (List.mem_map_of_mem hp) byte ((delivers_ofPayload p _ byte).mpr hdelivers)

end

/-- Within the limits the host's snapshot is what its loop leaves. -/
theorem snapshotRemoteModule_run (process : UInt64) (module : RemoteModule) (rounds : Nat)
    (hpos : 0 < module.size) (hlimit : module.size ≤ moduleSnapshotLimit)
    (answers : Nat → SnapshotAnswer) :
    Program.run (snapshotRemoteModule process module rounds).run answers =
      let loop := Program.run (remoteRounds process module (satAdd module.base module.size) rounds
        module.base (.replicate module.size 0)).run answers
      (loop.1, loop.2.map .ok) := by
  have haccepted : ¬ (module.size = 0 ∨ moduleSnapshotLimit < module.size) := by omega
  let finish : List UInt8 → Snapshotting (Except Error (List UInt8)) :=
    fun image => pure (.ok image)
  have hfinish : ExceptT.bindCont finish = fun r => pure (r.map .ok) := by
    funext r
    cases r <;> rfl
  rw [snapshotRemoteModule, if_neg haccepted]
  show Program.run (ExceptT.run _ >>= ExceptT.bindCont finish) answers = _
  rw [hfinish]
  exact run_bind_pure _ _ answers

/-- Both snapshots are the same and have every byte at its RVA. -/
theorem module_snapshots (process : UInt64) (base size rounds : Nat)
    (answers : Nat → SnapshotAnswer) (hpos : 0 < size) (hlimit : size ≤ moduleSnapshotLimit)
    (hrounds : size ≤ rounds) : ∃ image : List UInt8,
      (Program.run (snapshotRemoteModule process ⟨base, size⟩ rounds).run answers).2 =
        .ok (.ok image) ∧
      (Program.run (snapshotCurrentRange base size rounds).run answers).2 = .ok image ∧
      (Program.run (snapshotCurrentRange base size rounds).run answers).1 =
        (Program.run (snapshotRemoteModule process ⟨base, size⟩ rounds).run answers).1.map
          (Prod.map SnapshotCall.ofPayload id) ∧
      Placed base size
        (Program.run (snapshotRemoteModule process ⟨base, size⟩ rounds).run answers).1 image ∧
      Placed base size
        (Program.run (snapshotCurrentRange base size rounds).run answers).1 image := by
  have hmax : satAdd base size ≤ usizeMax := Nat.min_le_right _ _
  have hstop : satAdd base size ≤ base + size := Nat.min_le_left _ _
  have hhost := snapshotRemoteModule_run process ⟨base, size⟩ rounds hpos hlimit answers
  have hpayload := rounds_mirror process ⟨base, size⟩ (satAdd base size) rounds base
    (.replicate size 0) answers
  obtain ⟨image, hok, hends, himage⟩ := (remoteRounds_yields process ⟨base, size⟩ hmax rounds base
    (.replicate size 0) (Nat.le_refl base) (by rwa [List.length_replicate]) (by omega)).run answers
  have hplaced := himage.snapshot hstop hends
  rw [snapshotCurrentRange, hhost, hpayload]
  refine ⟨image, ?_, hok, rfl, hplaced, hplaced.ofPayload⟩
  show Except.map _ _ = _
  rw [hok]
  rfl

/-- One readable region as large as the address space, of which a read delivers the first byte. -/
def wholeRegion : SnapshotAnswer :=
  { region := some { base := 0, size := usizeMax, state := memCommit, protect := 4, kind := 0 }
    delivered := fun offset => if offset = 0 then some 7 else none }

/-- At the end of the address space only two of the four bytes are asked for. -/
theorem module_snapshots_saturated :
    (Program.run (snapshotRemoteModule 1 ⟨2 ^ 64 - 3, 4⟩ 4).run fun _ => wholeRegion).2 =
        .ok (.ok [7, 0, 0, 0]) ∧
      Placed (2 ^ 64 - 3) 4
        (Program.run (snapshotRemoteModule 1 ⟨2 ^ 64 - 3, 4⟩ 4).run fun _ => wholeRegion).1
        [7, 0, 0, 0] := by
  obtain ⟨image, hhost, -, -, hplaced, -⟩ := module_snapshots 1 (2 ^ 64 - 3) 4 4
    (fun _ => wholeRegion) (by decide) (by decide) (by decide)
  have hrun : (Program.run (snapshotRemoteModule 1 ⟨2 ^ 64 - 3, 4⟩ 4).run
      fun _ => wholeRegion).2 = .ok (.ok [7, 0, 0, 0]) := by rfl
  obtain rfl : image = [7, 0, 0, 0] := Except.ok.inj (Except.ok.inj (hhost.symm.trans hrun))
  exact ⟨hrun, hplaced⟩

end Recovery
end SteamInputLease
