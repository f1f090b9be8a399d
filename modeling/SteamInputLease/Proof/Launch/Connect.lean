import SteamInputLease.Launch.Connect
import SteamInputLease.Lib.Hoare

/-!
# When `connect` makes a second gate

The probe and the lookup by name are what keeps `connect` from injecting. One lemma for each says
when it lets through, and they do so for a gate under any other name.

The gate that is there may be one that was injected before, under its own name, or one that Steam
has loaded as its `XInput1_4.dll`. The probe asks for its pipe and does not care about names, but it
gives up after a short time; the lookup waits for no pipe but asks for one name only, and takes a
snapshot that failed for one without the module. A gate that slips through both is therefore one
that has no pipe instance ready for the whole of the probe and either the other name or snapshots
that fail. `Overlooked` says just that of a target, and the theorem is exact.
-/

namespace SteamInputLease
namespace Launch

/-! ## The probe -/

section

variable {processId : UInt32} {deadline : Nat}

/-- The error of an attempt that opened the pipe is never that there is none. -/
theorem openedPipe_ne (attempt : PipeAttempt) (handle : UInt64) (context source : String) :
    openedPipe processId attempt handle ≠ .error (.payloadUnavailable context source) := by
  rw [openedPipe]
  cases attempt.server with
  | none => simp
  | some server =>
    simp only [verifyPipeServer]
    split <;> simp [Except.map]

theorem refused_iff {attempt : PipeAttempt} {code : UInt32} (h : attempt.createFile = .error code) :
    attempt.Refused ↔ ¬(code ≠ errorPipeBusy ∧ code ≠ errorFileNotFound) := by
  simp only [PipeAttempt.Refused, h, Except.error.injEq, not_and_or, not_not]

/-- The loop ends for want of a pipe just when it is refused up to its deadline. -/
theorem pollPipe_unavailable {attempts : List PipeAttempt} :
    (∃ context source,
        pollPipe processId deadline attempts = some (.error (.payloadUnavailable context source))) ↔
      ∃ (before : List PipeAttempt) (last : PipeAttempt) (rest : List PipeAttempt),
        attempts = before ++ last :: rest ∧
        (∀ attempt ∈ before, attempt.Refused ∧ attempt.now < deadline) ∧
        last.Refused ∧ deadline ≤ last.now := by
  induction attempts with
  | nil => simp [pollPipe]
  | cons attempt rest ih =>
    have hsplit :
        (∃ (before : List PipeAttempt) (last : PipeAttempt) (more : List PipeAttempt),
          attempt :: rest = before ++ last :: more ∧
          (∀ a ∈ before, a.Refused ∧ a.now < deadline) ∧ last.Refused ∧ deadline ≤ last.now) ↔
        (attempt.Refused ∧ deadline ≤ attempt.now) ∨ (attempt.Refused ∧ attempt.now < deadline) ∧
          ∃ (before : List PipeAttempt) (last : PipeAttempt) (more : List PipeAttempt),
            rest = before ++ last :: more ∧
            (∀ a ∈ before, a.Refused ∧ a.now < deadline) ∧ last.Refused ∧ deadline ≤ last.now := by
      constructor
      · rintro ⟨before, last, more, heq, hbefore, hlast⟩
        cases before with
        | nil =>
          obtain ⟨rfl, rfl⟩ := List.cons.inj heq
          exact .inl hlast
        | cons first before =>
          obtain ⟨rfl, rfl⟩ := List.cons.inj heq
          exact .inr ⟨hbefore _ List.mem_cons_self, before, last, more, rfl,
            fun a ha => hbefore a (List.mem_cons_of_mem _ ha), hlast⟩
      · rintro (hlast | ⟨hfirst, before, last, more, rfl, hbefore, hlast⟩)
        · exact ⟨[], attempt, rest, rfl, fun a ha => absurd ha List.not_mem_nil, hlast⟩
        · exact ⟨attempt :: before, last, more, rfl, List.forall_mem_cons.mpr ⟨hfirst, hbefore⟩,
            hlast⟩
    -- the first attempt either is the last one, or is refused in time and the loop goes on
    rw [hsplit, ← ih, pollPipe]
    cases hcreate : attempt.createFile with
    | ok handle =>
      have hnot : ¬attempt.Refused := by simp [PipeAttempt.Refused, hcreate]
      simp only [hnot, false_and, or_false, Option.some.injEq, iff_false, not_exists]
      exact openedPipe_ne attempt handle
    | error code =>
      rw [refused_iff hcreate]
      dsimp only
      split
      case isTrue hother => simp [hother]
      case isFalse hrefused =>
        split
        case isTrue hover => simp [hrefused, hover]
        case isFalse hwaits =>
          have hlt : attempt.now < deadline := Nat.lt_of_not_le hwaits
          simp only [hrefused, not_false_eq_true, true_and, hwaits, false_or, hlt]

end

/-! ## The lookup -/

section

variable {name : List Char} {snapshots : Nat → Snapshot} {attempt left : Nat}

theorem overlooked_zero : Overlooked name snapshots attempt 0 :=
  ⟨0, Nat.le_refl 0, fun _ h => absurd h (Nat.not_lt_zero _), fun h => absurd h (Nat.lt_irrefl 0)⟩

/-- The first attempt ends the lookup, or the later ones overlook the module too. -/
theorem overlooked_succ : Overlooked name snapshots attempt (left + 1) ↔
    (snapshots attempt).Without name ∨
      (snapshots attempt).Transient ∧ Overlooked name snapshots (attempt + 1) left := by
  have hshift : ∀ i, attempt + 1 + i = attempt + (i + 1) := fun i => by
    rw [Nat.add_assoc, Nat.add_comm 1]
  constructor
  · rintro ⟨n, hn, htransient, hwithout⟩
    cases n with
    | zero => exact .inl (hwithout (Nat.succ_pos left))
    | succ n =>
      refine .inr ⟨htransient 0 (Nat.succ_pos n), n, Nat.le_of_succ_le_succ hn, ?_, ?_⟩
      · intro i hi
        rw [hshift]
        exact htransient (i + 1) (Nat.succ_lt_succ hi)
      · intro hlt
        rw [hshift]
        exact hwithout (Nat.succ_lt_succ hlt)
  · rintro (hwithout | ⟨hfirst, n, hn, htransient, hwithout⟩)
    · exact ⟨0, Nat.zero_le _, fun _ h => absurd h (Nat.not_lt_zero _), fun _ => hwithout⟩
    · refine ⟨n + 1, Nat.succ_le_succ hn, ?_, ?_⟩
      · intro i hi
        cases i with
        | zero => exact hfirst
        | succ i =>
          rw [← hshift]
          exact htransient i (Nat.lt_of_succ_lt_succ hi)
      · intro hlt
        rw [← hshift]
        exact hwithout (Nat.lt_of_succ_lt_succ hlt)

/-- The lookup finds nothing just when it overlooks what there is. -/
theorem remoteModuleFrom_none :
    remoteModuleFrom name snapshots attempt left = none ↔ Overlooked name snapshots attempt left := by
  induction left generalizing attempt with
  | zero => exact iff_of_true rfl overlooked_zero
  | succ left ih =>
    rw [overlooked_succ, ← ih, remoteModuleFrom]
    cases snapshots attempt with
    | invalid code =>
      simp only [Snapshot.Without, Snapshot.Transient]
      split
      case isTrue hbad => simp [hbad]
      case isFalse hother => simp [hother]
    | taken mapped listed =>
      simp only [Snapshot.Without, Snapshot.Transient]
      split
      case isTrue hempty => simp [hempty]
      case isFalse hlisted => simp [hlisted]

theorem residentByName_false {options : ClientOptions} {target : Target} :
    residentByName options target = false ↔ ∀ name, options.payloadName = some name →
      Overlooked name target.snapshots 0 moduleSnapshotAttempts := by
  rw [residentByName]
  cases options.payloadName with
  | none => simp
  | some name =>
    simp only [Option.isSome_eq_false_iff, Option.isNone_iff_eq_none, Option.some.injEq,
      forall_eq', remoteModule, remoteModuleFrom_none]

end

/-! ## The client -/

section

variable {options : ClientOptions} {processId : UInt32} {target : Target}

theorem connectPipe_unavailable {timeout : Nat} {calls : PipeCalls} :
    (∃ context source,
        connectPipe processId timeout calls = some (.error (.payloadUnavailable context source))) ↔
      Unanswered timeout calls := pollPipe_unavailable

/-- What leads to `inject_payload`. -/
structure Injects (options : ClientOptions) (target : Target) : Prop where
  allowed : options.allowInjection = true
  unanswered : Unanswered probeTimeout target.probe
  absent : residentByName options target = false
  payload : target.isFile = true

/-- A probe that has any other end is the end of `connect`. -/
theorem connectOrInject_answered (h : ¬Unanswered probeTimeout target.probe) :
    ((connectOrInject options processId target).run []).2 = [] := by
  rw [connectOrInject]
  split
  case h_1 context source heq => exact absurd (connectPipe_unavailable.mp ⟨context, source, heq⟩) h
  case h_2 => rfl

theorem connectOrInject_unanswered (h : Unanswered probeTimeout target.probe) :
    ((connectOrInject options processId target).run []).2 =
      if residentByName options target = false ∧ target.isFile = true then [target.mapped] else [] := by
  have hprobe : ∃ context source, connectPipe processId probeTimeout target.probe =
      some (.error (.payloadUnavailable context source)) := connectPipe_unavailable.mpr h
  obtain ⟨context, source, heq⟩ := hprobe
  rw [connectOrInject, heq]
  cases residentByName options target with
  | true => rfl
  | false =>
    cases target.isFile with
    | false => rfl
    | true =>
      show ((injectPayload target >>= _).run []).2 = [target.mapped]
      rw [Lib.run_bind, injectPayload]
      cases target.injectPayload with
      | error e => rfl
      | ok _ => rfl

/-- `connect` reaches `inject_payload` once, or not at all. -/
theorem injections_eq [Decidable (Injects options target)] : injections options processId target =
    if Injects options target then [target.mapped] else [] := by
  rw [injections, connect]
  cases hallow : options.allowInjection with
  | false =>
    have hnot : ¬Injects options target := fun h => by
      rw [h.allowed] at hallow
      cases hallow
    rw [if_neg hnot]
    rfl
  | true =>
    rw [if_pos rfl]
    by_cases hprobe : Unanswered probeTimeout target.probe
    · rw [connectOrInject_unanswered hprobe]
      refine if_congr ⟨fun h => ⟨hallow, hprobe, h.1, h.2⟩, fun h => ⟨h.absent, h.payload⟩⟩ rfl rfl
    · rw [connectOrInject_answered hprobe, if_neg fun h => hprobe h.unanswered]

end

/-! ## The theorem -/

/-- `connect` injects at most once, where it may, and beside no gate, unless a gate is mapped that
    the probe and the lookup overlook. -/
theorem injectsSafely_iff (options : ClientOptions) (processId : UInt32) (target : Target) :
    InjectsSafely options processId target ↔ ¬SecondGate options target := by
  classical
  have heq : injections options processId target =
      if Injects options target then [target.mapped] else [] := injections_eq
  constructor
  · rintro ⟨-, halone, -⟩ ⟨hallowed, hprobe, hoverlooked, hpayload, entry, hentry, hgate⟩
    have hinjects : Injects options target :=
      ⟨hallowed, hprobe, residentByName_false.mpr hoverlooked, hpayload⟩
    rw [heq, if_pos hinjects] at halone
    have hnot := halone _ List.mem_cons_self entry hentry
    rw [hgate] at hnot
    cases hnot
  · intro hnone
    by_cases hinjects : Injects options target
    · rw [if_pos hinjects] at heq
      refine ⟨fun _ => hinjects.allowed, ?_, by rw [heq]; exact Nat.le_refl 1⟩
      intro mapped hmapped entry hentry
      rw [heq, List.mem_singleton] at hmapped
      subst hmapped
      apply Bool.eq_false_iff.mpr
      intro hgate
      exact hnone ⟨hinjects.allowed, hinjects.unanswered, residentByName_false.mp hinjects.absent,
        hinjects.payload, entry, hentry, hgate⟩
    · rw [if_neg hinjects] at heq
      refine ⟨fun h => absurd heq h, ?_, by rw [heq]; exact Nat.zero_le 1⟩
      intro mapped hmapped
      rw [heq] at hmapped
      cases hmapped

/-- A gate under the name of `XInput1_4.dll`, whose pipe has no instance for 20 ms. -/
def proxyTarget : Target :=
  let gate : ModuleEntry :=
    { szModule := [0x58, 0x49, 0x6e, 0x70, 0x75, 0x74, 0x31, 0x5f, 0x34, 0x2e, 0x64, 0x6c, 0x6c, 0]
      modBaseAddr := 0x180000000
      modBaseSize := 0x10000
      gate := true }
  { probe := { started := 0, attempts := [⟨.error errorFileNotFound, none, "", 20⟩] }
    wait := { started := 30, attempts := [⟨.ok 8, some 4, "", 30⟩] }
    snapshots := fun _ => .taken [gate] 1
    isFile := true
    mapped := [gate]
    injectPayload := .ok () }

/-- A client that may inject loads a second gate beside it. -/
theorem not_injectsSafely : ¬InjectsSafely
    { payloadPath := "steam_input_gate.dll"
      payloadName := some "steam_input_gate.dll".toList
      connectTimeout := 10000
      allowInjection := true } 4 proxyTarget := by
  intro h
  exact absurd h.alone (by decide)

end Launch
end SteamInputLease
