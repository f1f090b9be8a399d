import SteamInputLease.Proof.Ffi.Session

/-!
# What a failed call writes

An export writes its outputs last, by steps that do not fail. Before that it only reads, and puts
null into the handle it is to return.

So a closure is taken apart into three kinds of parts: those that write nothing (`Reads`, and
`Silent` over the boxes), those that cannot fail (`Succeeds`), and the clearing of the output, which
is the one write that a failed call may leave behind. Put in this order they fail cleanly. A panic
is no different from an error here, since a closure ends with either in the same place, but for one
thing: a report that does not fit its buffer could panic between two writes. The message of an
outcome has room for its terminator, so it does not (`ofRelease_ok`). `ffi_call` adds the code and
the text, and the text is replaced as a whole whatever it was.
-/

namespace SteamInputLease
namespace Ffi

open Lib
open Launch (ReleaseOutcome Status)

section

variable {α β γ : Type} {output : Option Nat}

/-! ## Over the memory -/

/-- `x` writes nothing. -/
def Reads (x : Operation α) : Prop := ∀ m, ((x.run).run m).2 = m

theorem Reads.result (r : Except Failure α) : Reads (ExceptT.mk (pure r)) := fun _ => rfl

/-- A part that writes nothing may be followed by another. -/
theorem Reads.bind {x : Operation α} {f : α → Operation β} (hx : Reads x)
    (hf : ∀ a, Reads (f a)) : Reads (x >>= f) := by
  intro m
  have hm := hx m
  rw [run_bind]
  generalize (x.run).run m = result at hm ⊢
  obtain ⟨r, m'⟩ := result
  cases r with
  | error e => exact hm
  | ok a => exact (hf a m').trans hm

theorem Reads.failIf (condition : Prop) [Decidable condition] (message : String) :
    Reads (failIf condition message) := by
  rw [Ffi.failIf]
  split <;> exact .result _

theorem Reads.readUtf16 (pointer : Nat → UInt16) : Reads (readUtf16 pointer) := by
  rw [Ffi.readUtf16]
  split <;> exact .result _

theorem Reads.readUnlessNull (pointer : Option (Nat → UInt16)) : Reads (readUnlessNull pointer) := by
  cases pointer with
  | none => exact .result _
  | some pointer => exact .bind (.readUtf16 pointer) fun _ => .result _

theorem Reads.resolveOptions (resolved : ClientOptions) (options : Option SilClientOptions) :
    Reads (resolveOptions resolved options) := by
  cases options with
  | none => exact .result _
  | some options =>
    exact .bind (.readUnlessNull _) fun _ => .bind (.readUnlessNull _) fun _ => .result _

theorem Reads.readArguments (arguments : List (Option (Nat → UInt16))) :
    Reads (arguments.mapM readArgument) := by
  induction arguments with
  | nil =>
    rw [List.mapM_nil]
    exact .result _
  | cons argument arguments ih =>
    rw [List.mapM_cons]
    refine .bind ?_ fun _ => .bind ih fun _ => .result _
    cases argument with
    | none => exact .result _
    | some pointer => exact .readUtf16 pointer

theorem Cleared.refl {m : Memory} : Cleared output m m := ⟨rfl, fun _ => .inl rfl⟩

theorem Cleared.trans {m m' m'' : Memory} (h : Cleared output m m') (h' : Cleared output m' m'') :
    Cleared output m m'' := by
  refine ⟨h'.status.trans h.status, fun p => ?_⟩
  rcases h'.handle p with hp | hp
  · rw [hp]
    exact h.handle p
  · exact .inr hp

/-- Where `x` fails it writes nothing but null into the output. -/
def FailsClean (output : Option Nat) (x : Operation α) : Prop :=
  ∀ m, (∀ a, ((x.run).run m).1 ≠ .ok a) → Cleared output m ((x.run).run m).2

/-- What comes before a part that fails clean may clear the output and nothing else. -/
theorem FailsClean.bind {x : Operation α} {f : α → Operation β}
    (hx : ∀ m, Cleared output m ((x.run).run m).2) (hf : ∀ a, FailsClean output (f a)) :
    FailsClean output (x >>= f) := by
  intro m
  have hm := hx m
  rw [run_bind]
  generalize (x.run).run m = result at hm ⊢
  obtain ⟨r, m'⟩ := result
  cases r with
  | error e => exact fun _ => hm
  | ok a => exact fun hne => hm.trans (hf a m' hne)

theorem Reads.cleared {x : Operation α} (hx : Reads x) (m : Memory) :
    Cleared output m ((x.run).run m).2 := by
  rw [hx m]
  exact .refl

theorem FailsClean.of_ok {x : Operation α} (h : ∀ m, ∃ a, ((x.run).run m).1 = .ok a) :
    FailsClean output x := fun m hne => absurd (h m).choose_spec (hne _)

theorem setHandle_cleared (p : Nat) (m : Memory) :
    Cleared (some p) m (((setHandle p 0).run).run m).2 := by
  refine ⟨rfl, fun q => ?_⟩
  by_cases hq : q = p
  · subst hq
    exact .inr ⟨rfl, Function.update_self ..⟩
  · exact .inl (Function.update_of_ne hq ..)

/-- What an export of the memory leaves behind. -/
structure Clean (output : Option Nat) (x : StateM Memory Int) : Prop where
  failed : ∀ m, (x.run m).1 ≠ silOk → Cleared output m (x.run m).2
  terminated : ∀ m, '\x00' ∉ (x.run m).2.lastError
  succeeded : ∀ m, (x.run m).1 = silOk → (x.run m).2.lastError = []

/-- What `ffi_call` makes of a closure. -/
theorem FailsClean.ffiCall {x : Operation Unit} (hx : FailsClean output x) :
    Clean output (ffiCall x) := by
  have hrun : ∀ m, (Ffi.ffiCall x).run m =
      ((outcome ((x.run).run m).1).1, { ((x.run).run m).2 with
        lastError := replaceNul (outcome ((x.run).run m).1).2.toList }) := fun _ => rfl
  refine ⟨fun m hne => ?_, fun m => ?_, fun m hok => ?_⟩
  · rw [hrun] at hne ⊢
    have hclean := hx m fun a ha => hne (outcome_eq_ok.mpr ha)
    exact ⟨hclean.status, hclean.handle⟩
  · rw [hrun]
    exact nul_not_mem_replaceNul _
  · rw [hrun] at hok ⊢
    rw [outcome_eq_ok.mp hok]
    rfl

theorem giveHandle_failsClean (p : Nat) : FailsClean output (giveHandle p) :=
  .of_ok fun _ => ⟨(), rfl⟩

theorem silClientCreate_clean (w : Wrapped) (options : Option SilClientOptions) (p : Nat) :
    Clean (some p) (silClientCreate w options p) := by
  refine FailsClean.ffiCall (.bind (Reads.failIf _ _).cleared fun _ => ?_)
  refine .bind (setHandle_cleared p) fun _ => .bind (Reads.result _).cleared fun resolved => ?_
  refine .bind (Reads.resolveOptions _ _).cleared fun resolved => ?_
  exact .bind (Reads.result _).cleared fun _ => giveHandle_failsClean p

theorem grantTo_failsClean (client : Nat) (result : Except Failure Status) (status p : Nat) :
    FailsClean output (grantTo client result status p) := by
  refine .bind (Reads.failIf _ _).cleared fun _ => .bind (Reads.result _).cleared fun value => ?_
  exact .of_ok fun _ => ⟨(), rfl⟩

theorem silClientAcquire_clean (w : Wrapped) (client p status : Nat) :
    Clean (some p) (silClientAcquire w client p status) := by
  refine FailsClean.ffiCall (.bind (Reads.failIf _ _).cleared fun _ => ?_)
  exact .bind (setHandle_cleared p) fun _ => grantTo_failsClean client (w.acquire client) status p

theorem silClientAcquirePassThrough_clean (w : Wrapped) (client p status : Nat) :
    Clean (some p) (silClientAcquirePassThrough w client p status) := by
  refine FailsClean.ffiCall (.bind (Reads.failIf _ _).cleared fun _ => ?_)
  refine .bind (setHandle_cleared p) fun _ => .bind (Reads.failIf _ _).cleared fun _ => ?_
  exact grantTo_failsClean client (w.acquirePassThrough client) status p

end

/-! ## Over the boxes -/

section

variable {α β : Type} {output : Option Nat} {abi abi' abi'' : Abi}

theorem Unwritten.refl : Unwritten output abi abi := ⟨.refl, rfl, rfl, rfl⟩

theorem Unwritten.trans (h : Unwritten output abi abi') (h' : Unwritten output abi' abi'') :
    Unwritten output abi abi'' :=
  ⟨h.memory.trans h'.memory, h'.outcome.trans h.outcome, h'.rescan.trans h.rescan,
    h'.exitCode.trans h.exitCode⟩

/-- `x` writes no output. -/
def Silent (x : AbiOperation α) : Prop :=
  ∀ abi r abi', x.run abi = some (r, abi') → Unwritten none abi abi'

/-- Where `x` fails it writes no output. -/
def FailsSilent (x : AbiOperation α) : Prop :=
  ∀ abi r abi', x.run abi = some (r, abi') → (∀ a, r ≠ .ok a) → Unwritten none abi abi'

theorem Silent.failsSilent {x : AbiOperation α} (hx : Silent x) : FailsSilent x :=
  fun abi r abi' hrun _ => hx abi r abi' hrun

/-- A run of two parts is a run of the first and then one of the second. -/
theorem abi_run_bind {x : AbiOperation α} {f : α → AbiOperation β} {r : Except Failure β}
    (h : (x >>= f).run abi = some (r, abi'')) :
    ∃ r' abi', x.run abi = some (r', abi') ∧ ExceptT.bindCont f r' abi' = some (r, abi'') := by
  obtain ⟨⟨r', abi'⟩, hx, hf⟩ := Option.bind_eq_some_iff.mp h
  exact ⟨r', abi', hx, hf⟩

theorem FailsSilent.bind {x : AbiOperation α} {f : α → AbiOperation β} (hx : Silent x)
    (hf : ∀ a, FailsSilent (f a)) : FailsSilent (x >>= f) := by
  intro abi r abi'' hrun hne
  obtain ⟨r', abi', hrun', hcont⟩ := abi_run_bind hrun
  cases r' with
  | error e =>
    cases hcont
    exact hx _ _ _ hrun'
  | ok a => exact (hx _ _ _ hrun').trans (hf a _ _ _ hcont hne)

theorem Silent.onMemory {x : Operation α} (hx : Reads x) : Silent (onMemory x) := by
  intro abi r abi' hrun
  cases hrun
  exact ⟨Reads.cleared hx _, rfl, rfl, rfl⟩

/-- Following a client reads its box. -/
theorem Silent.clientOf (client : Nat) : Silent (clientOf client) := by
  intro abi r abi'' hrun
  obtain ⟨r', abi', hrun', hcont⟩ := abi_run_bind hrun
  have hread := Silent.onMemory (Reads.failIf _ _) _ _ _ hrun'
  cases r' with
  | error e =>
    cases hcont
    exact hread
  | ok a =>
    obtain ⟨⟨u, abi₁⟩, hfollow, hpure⟩ := Option.bind_eq_some_iff.mp hcont
    obtain ⟨-, hsame⟩ := Option.ite_none_right_eq_some.mp hfollow
    cases hsame
    cases hpure
    exact hread

theorem Silent.fromRaw (handle : Nat) (kind : Kind) :
    Silent (liftM (fromRaw handle kind) : AbiOperation Unit) := by
  intro abi r abi' hrun
  obtain ⟨⟨u, abi₁⟩, htake, hpure⟩ := Option.bind_eq_some_iff.mp hrun
  obtain ⟨-, htaken⟩ := Option.ite_none_right_eq_some.mp htake
  cases htaken
  cases hpure
  exact ⟨⟨rfl, fun _ => .inl rfl⟩, rfl, rfl, rfl⟩

theorem Silent.mayPanic (r : MayPanic α) : Silent (mayPanic r) := by
  intro abi r' abi' hrun
  cases r with
  | ok a =>
    cases hrun
    exact .refl
  | error e =>
    cases hrun
    exact .refl

/-- A part that always gets to its end. -/
def Succeeds (x : AbiOperation α) : Prop := ∀ abi r abi', x.run abi = some (r, abi') → ∃ a, r = .ok a

theorem Succeeds.failsSilent {x : AbiOperation α} (hx : Succeeds x) : FailsSilent x := by
  intro abi r abi' hrun hne
  obtain ⟨a, rfl⟩ := hx abi r abi' hrun
  exact absurd rfl (hne a)

/-- Parts that get to their end, one behind the other. -/
theorem Succeeds.bind {x : AbiOperation α} {f : α → AbiOperation β} (hx : Succeeds x)
    (hf : ∀ a, Succeeds (f a)) : Succeeds (x >>= f) := by
  intro abi r abi'' hrun
  obtain ⟨r', abi', hrun', hcont⟩ := abi_run_bind hrun
  obtain ⟨a, rfl⟩ := hx _ _ _ hrun'
  exact hf a _ _ _ hcont

theorem Succeeds.setOutcome (p : Nat) (value : SilReleaseOutcome) :
    Succeeds (setOutcome p value) := by
  intro abi r abi' hrun
  cases hrun
  exact ⟨(), rfl⟩

theorem Succeeds.setExitCode (p : Nat) (value : UInt32) : Succeeds (setExitCode p value) := by
  intro abi r abi' hrun
  cases hrun
  exact ⟨(), rfl⟩

theorem Succeeds.setRescan (p : Nat) (value : Recovery.RescanResult) :
    Succeeds (setRescan p value) := by
  intro abi r abi' hrun
  cases hrun
  exact ⟨(), rfl⟩

theorem Succeeds.setStatus (p : Nat) (value : Status) : Succeeds (onMemory (setStatus p value)) := by
  intro abi r abi' hrun
  cases hrun
  exact ⟨(), rfl⟩

/-- The message of an outcome has room for a zero, so no report of one panics. -/
theorem ofRelease_ok (release : Except String ReleaseOutcome) :
    ∃ value, SilReleaseOutcome.ofRelease release = .ok value := by
  have hunavailable : ∀ (outcome : SilReleaseOutcome) (reason : String),
      outcome.recoveryMessage ≠ [] → ∃ value, outcome.unavailable reason = .ok value := by
    intro outcome reason hroom
    obtain ⟨kept, -, hwritten⟩ := writeFixedUtf8_eq reason.toList hroom
    rw [SilReleaseOutcome.unavailable, hwritten]
    exact ⟨_, rfl⟩
  have hdefault : SilReleaseOutcome.default.recoveryMessage ≠ [] := List.cons_ne_nil _ _
  cases release with
  | error error => exact hunavailable _ error hdefault
  | ok value =>
    obtain ⟨status, recovery⟩ := value
    cases recovery with
    | notRequired => exact ⟨_, rfl⟩
    | scheduled => exact ⟨_, rfl⟩
    | completed result => exact ⟨_, rfl⟩
    | unavailable error => exact hunavailable _ error.display hdefault

/-- A release is reported whole. -/
theorem Succeeds.reportRelease (p : Nat) (release : Except String ReleaseOutcome) :
    Succeeds (reportRelease p release) := by
  rw [Ffi.reportRelease]
  split
  · intro abi r abi' hrun
    cases hrun
    exact ⟨(), rfl⟩
  · obtain ⟨value, hvalue⟩ := ofRelease_ok release
    rw [hvalue]
    exact .bind (fun abi r abi' hrun => ⟨value, by cases hrun; rfl⟩) fun _ => .setOutcome p _

/-! ## The exports -/

/-- Whatever the call returns, that is what it leaves behind. -/
def Telling (output : Option Nat) (x : AbiState Int) : Prop :=
  ∀ abi code abi', x abi = some (code, abi') → Reports output abi code abi'

/-- What `ffi_call` makes of a closure. -/
theorem Telling.abiCall {operation : AbiOperation Unit} (h : FailsSilent operation) :
    Telling none (abiCall operation) := by
  intro abi code abi'' hrun
  obtain ⟨⟨r, abi'⟩, hoperation, hrest⟩ := Option.bind_eq_some_iff.mp hrun
  cases hrest
  refine ⟨fun hne => ?_, nul_not_mem_replaceNul _, fun hok => ?_⟩
  · obtain ⟨⟨hstatus, hhandle⟩, houtcome, hrescan, hexit⟩ :=
      h abi r abi' hoperation fun a ha => hne (outcome_eq_ok.mpr ha)
    exact ⟨⟨hstatus, hhandle⟩, houtcome, hrescan, hexit⟩
  · rw [outcome_eq_ok.mp hok]
    rfl

/-- An export of the memory. -/
theorem Clean.granting {x : StateM Memory Int} (hx : Clean output x) (kind : Kind) :
    Telling output (granting kind x) := by
  intro abi code abi' hrun
  cases hrun
  exact ⟨fun hne => ⟨hx.failed _ hne, rfl, rfl, rfl⟩, hx.terminated _, hx.succeeded _⟩

theorem Telling.naming {x : AbiState Int} (hx : Telling output x) (client : Nat) :
    Telling output (naming client x) := by
  intro abi code abi'' hrun
  obtain ⟨⟨u, abi'⟩, hfollow, hrest⟩ := Option.bind_eq_some_iff.mp hrun
  rw [followUnlessNull] at hfollow
  split at hfollow
  · cases hfollow
    exact hx _ _ _ hrest
  · obtain ⟨-, hsame⟩ := Option.ite_none_right_eq_some.mp hfollow
    cases hsame
    exact hx _ _ _ hrest

variable {l : Library}

/-- The exports that return a status and no handle. -/
theorem statusCall_telling (client status : Nat) (result : Except Failure Status) :
    Telling none (statusCall client status result) := by
  refine .abiCall (.bind (.onMemory (.failIf _ _)) fun _ => .bind (.clientOf client) fun _ => ?_)
  exact .bind (.onMemory (.result _)) fun value => Succeeds.failsSilent (.setStatus status value)

theorem silClientRescan_telling (client result : Nat) :
    Telling none (silClientRescan l client result) := by
  refine .abiCall (.bind (.onMemory (.failIf _ _)) fun _ => .bind (.clientOf client) fun _ => ?_)
  exact .bind (.onMemory (.result _)) fun value => Succeeds.failsSilent (.setRescan result value)

theorem silClientCheckRecovery_telling (client : Nat) :
    Telling none (silClientCheckRecovery l client) :=
  .abiCall (.bind (.clientOf client) fun _ => Silent.failsSilent (.onMemory (.result _)))

/-- The exit code and the outcome are written behind the run. -/
theorem silClientRunWrapped_telling (client : Nat) (argv : Option (List (Option (Nat → UInt16))))
    (exitCode release : Nat) : Telling none (silClientRunWrapped l client argv exitCode release) := by
  refine .abiCall (.bind (.onMemory (.failIf _ _)) fun _ => ?_)
  refine .bind (.onMemory (.readArguments _)) fun arguments => .bind (.clientOf client) fun _ => ?_
  refine .bind (.onMemory (.result _)) fun value => Succeeds.failsSilent ?_
  exact .bind (.setExitCode exitCode _) fun _ => .reportRelease release _

/-- The lease is taken back before it is released, and the outcome is written last. -/
theorem silLeaseRelease_telling (lease p : Nat) : Telling none (silLeaseRelease l lease p) := by
  refine .abiCall (.bind (.onMemory (.failIf _ _)) fun _ => .bind (.fromRaw lease .lease) fun _ => ?_)
  refine .bind (.onMemory (.failIf _ _)) fun _ => .bind (.onMemory (.result _)) fun value => ?_
  exact .bind (.mayPanic _) fun value => Succeeds.failsSilent (.setOutcome p value)

theorem silPassThroughRelease_telling (claim status : Nat) :
    Telling none (silPassThroughRelease l claim status) := by
  refine .abiCall (.bind (.onMemory (.failIf _ _)) fun _ => ?_)
  refine .bind (.fromRaw claim .passThrough) fun _ => .bind (.onMemory (.failIf _ _)) fun _ => ?_
  exact .bind (.onMemory (.result _)) fun value => Succeeds.failsSilent (.setStatus status value)

theorem Telling.of_some {x : AbiState Int} (hx : Telling output x) {code : Int}
    (hrun : (some <$> x : AbiState (Option Int)) abi = some (some code, abi')) :
    Reports output abi code abi' := by
  obtain ⟨⟨code', abi₁⟩, hcall, hrest⟩ := Option.bind_eq_some_iff.mp hrun
  cases hrest
  exact hx _ _ _ hcall

end

/-- **A failed call writes no output.** Where an export returns an error or caught a panic, no
    status, outcome, rescan result or exit code was written, and no handle but null into the output
    of the call. The message is a C string whatever was returned, and empty with success. -/
theorem call_reports {l : Library} {call : AbiCall} {abi abi' : Abi} {code : Int}
    (hrun : call.run l abi = some (some code, abi')) :
    Reports (call.produces.map Prod.fst) abi code abi' := by
  cases call with
  | create options output => exact ((silClientCreate_clean _ _ _).granting _).of_some hrun
  | acquire client lease status =>
    exact (((silClientAcquire_clean _ _ _ _).granting _).naming client).of_some hrun
  | acquirePassThrough client claim status =>
    exact (((silClientAcquirePassThrough_clean _ _ _ _).granting _).naming client).of_some hrun
  | ensurePayload client status => exact (statusCall_telling _ _ _).of_some hrun
  | status client status => exact (statusCall_telling _ _ _).of_some hrun
  | rescan client result => exact (silClientRescan_telling _ _).of_some hrun
  | checkRecovery client => exact (silClientCheckRecovery_telling _).of_some hrun
  | runWrapped client argv exitCode release =>
    exact (silClientRunWrapped_telling _ _ _ _).of_some hrun
  | leaseRelease lease outcome => exact (silLeaseRelease_telling _ _).of_some hrun
  | passThroughRelease claim status => exact (silPassThroughRelease_telling _ _).of_some hrun
  | destroy handle kind =>
    obtain ⟨⟨u, abi₁⟩, -, hrest⟩ := Option.bind_eq_some_iff.mp hrun
    cases hrest

/-- A lease is live. -/
def leased : Abi :=
  { untouched with
    memory := { untouched.memory with handles := ⟨2, [1], by decide, by decide⟩ }
    kindOf := fun _ => .lease }

/-- A release that panics behind the export. -/
theorem call_reports_panicked :
    ∃ abi', (AbiCall.leaseRelease 1 8).run panicking leased = some (some silPanic, abi') ∧
      Reports none leased silPanic abi' := by
  have hrun : (AbiCall.leaseRelease 1 8).run panicking leased = some (some silPanic, _) := rfl
  exact ⟨_, hrun, call_reports hrun⟩

end Ffi
end SteamInputLease
