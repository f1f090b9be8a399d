import SteamInputLease.Ffi.Session
import SteamInputLease.Proof.Ffi.Handles
import SteamInputLease.Proof.Ffi.Message

/-!
# The caller owns what is live

Each export either leaves the boxes alone, or puts one more behind its output and says so, or takes
back the one it was given, whatever it returns. So what a caller believes it owns is what is live,
and no handle it may use is a dead one.

The caller goes by codes and outputs, the boxes by what the exports did. `Linear` equates the two
and is kept by every call within the contract, in three lemmas, one for each kind of export
(`Linear.idle`, `Linear.consumed`, `Linear.produced`). Definedness is proved along with them, as a
call is undefined only where it follows a handle that is not live, and the contract lets a caller
pass none but those it owns. The release is the case to watch: it takes its box back before it does
anything else, so a release that fails or panics has consumed the handle all the same.
-/

namespace SteamInputLease
namespace Ffi

open Lib
open Launch (Status)

/-! ## Exports that give out a handle -/

section

variable {α β : Type} {output : Nat}

/-- `x` gives out no handle. -/
def KeepsHandles (x : Operation α) : Prop := ∀ m, ((x.run).run m).2.handles = m.handles

theorem Keeps.handles {x : Operation α} (h : Keeps x) : KeepsHandles x := fun m => (h m).2

theorem KeepsHandles.setHandle (output handle : Nat) : KeepsHandles (setHandle output handle) :=
  fun _ => rfl

theorem KeepsHandles.bind {x : Operation α} {f : α → Operation β} (hx : KeepsHandles x)
    (hf : ∀ a, KeepsHandles (f a)) : KeepsHandles (x >>= f) := by
  intro m
  have hhandles := hx m
  rw [run_bind]
  generalize (x.run).run m = result at hhandles ⊢
  obtain ⟨r, m'⟩ := result
  cases r with
  | error e => exact hhandles
  | ok a => exact (hf a m').trans hhandles

/-- `x` puts a new handle into `output`, or gives out none. -/
def Gives (output : Nat) (x : Operation Unit) : Prop :=
  ∀ m, (((x.run).run m).1 = .ok () → ((x.run).run m).2.handleAt output = m.handles.next ∧
      ((x.run).run m).2.handles = m.handles.intoRaw) ∧
    (((x.run).run m).1 ≠ .ok () → ((x.run).run m).2.handles = m.handles)

theorem Gives.give : Gives output (giveHandle output) :=
  fun _ => ⟨fun _ => ⟨Function.update_self .., rfl⟩, fun h => absurd rfl h⟩

theorem Gives.bind {x : Operation α} {f : α → Operation Unit} (hx : KeepsHandles x)
    (hf : ∀ a, Gives output (f a)) : Gives output (x >>= f) := by
  intro m
  have hhandles := hx m
  rw [run_bind]
  generalize (x.run).run m = result at hhandles ⊢
  obtain ⟨r, m'⟩ := result
  cases r with
  | error e => exact ⟨nofun, fun _ => hhandles⟩
  | ok a =>
    have h := hf a m'
    rw [show m'.handles = m.handles from hhandles] at h
    exact h

/-- A call puts a new handle into `output` and succeeds, or gives out none and fails. -/
def Granting (output : Nat) (x : StateM Memory Int) : Prop :=
  ∀ m, ((x.run m).1 = silOk → (x.run m).2.handleAt output = m.handles.next ∧
      (x.run m).2.handles = m.handles.intoRaw) ∧
    ((x.run m).1 ≠ silOk → (x.run m).2.handles = m.handles)

theorem Gives.granting {x : Operation Unit} (hx : Gives output x) :
    Granting output (ffiCall x) := by
  intro m
  obtain ⟨hok, hno⟩ := hx m
  have hrun : (ffiCall x).run m = ((outcome ((x.run).run m).1).1, { ((x.run).run m).2 with
      lastError := replaceNul (outcome ((x.run).run m).1).2.toList }) := rfl
  rw [hrun]
  exact ⟨fun h => hok (outcome_eq_ok.mp h), fun h => hno fun hr => h (outcome_eq_ok.mpr hr)⟩

theorem silClientCreate_granting (w : Wrapped) (options : Option SilClientOptions) :
    Granting output (silClientCreate w options output) := by
  refine Gives.granting (.bind (Keeps.failIf _ _).handles fun _ => ?_)
  refine .bind (.setHandle output 0) fun _ => .bind (Keeps.result _).handles fun resolved => ?_
  refine .bind (Keeps.resolveOptions _ _).handles fun resolved => ?_
  exact .bind (Keeps.result _).handles fun _ => .give

theorem Gives.grantTo (client : Nat) (result : Except Failure Status) (status : Nat) :
    Gives output (grantTo client result status output) := by
  refine .bind (Keeps.failIf _ _).handles fun _ => .bind (Keeps.result _).handles fun value => ?_
  exact .bind (Keeps.setStatus status value).handles fun _ => .give

theorem silClientAcquire_granting (w : Wrapped) (client status : Nat) :
    Granting output (silClientAcquire w client output status) := by
  refine Gives.granting (.bind (Keeps.failIf _ _).handles fun _ => ?_)
  exact .bind (.setHandle output 0) fun _ => .grantTo client (w.acquire client) status

theorem silClientAcquirePassThrough_granting (w : Wrapped) (client status : Nat) :
    Granting output (silClientAcquirePassThrough w client output status) := by
  refine Gives.granting (.bind (Keeps.failIf _ _).handles fun _ => ?_)
  refine .bind (.setHandle output 0) fun _ => .bind (Keeps.failIf _ _).handles fun _ => ?_
  exact .grantTo client (w.acquirePassThrough client) status

end

/-! ## Exports that leave the boxes alone -/

section

variable {α β : Type} {abi abi' : Abi}

/-- The boxes are the same. -/
def Same (abi abi' : Abi) : Prop :=
  abi'.memory.handles = abi.memory.handles ∧ abi'.kindOf = abi.kindOf

theorem Same.refl : Same abi abi := ⟨rfl, rfl⟩

theorem Same.trans {abi'' : Abi} (h : Same abi abi') (h' : Same abi' abi'') : Same abi abi'' :=
  ⟨h'.1.trans h.1, h'.2.trans h.2⟩

theorem Same.boxes (h : Same abi abi') : abi'.boxes = abi.boxes := by
  rw [Abi.boxes, Abi.boxes, h.1, h.2]

/-- From `abi`, the part is defined and leaves the boxes as they are. -/
def Idle (x : AbiState α) (abi : Abi) : Prop := ∃ a abi', x abi = some (a, abi') ∧ Same abi abi'

theorem Idle.bind {x : AbiState α} {f : α → AbiState β} (hx : Idle x abi)
    (hf : ∀ a abi', Same abi abi' → Idle (f a) abi') : Idle (x >>= f) abi := by
  obtain ⟨a, abi', hrun, hsame⟩ := hx
  obtain ⟨b, abi'', hrun', hsame'⟩ := hf a abi' hsame
  refine ⟨b, abi'', ?_, hsame.trans hsame'⟩
  show (x abi).bind (fun r => f r.1 r.2) = _
  rw [hrun]
  exact hrun'

/-- The same for a part of a closure. -/
theorem Idle.andThen {x : AbiOperation α} {f : α → AbiOperation β} (hx : Idle x.run abi)
    (hf : ∀ a abi', Same abi abi' → Idle (f a).run abi') : Idle (x >>= f).run abi := by
  refine Idle.bind hx fun r abi' hsame => ?_
  cases r with
  | error e => exact ⟨_, abi', rfl, .refl⟩
  | ok a => exact hf a abi' hsame

theorem Idle.onMemory {x : Operation α} (hx : KeepsHandles x) (abi : Abi) :
    Idle (onMemory x).run abi := ⟨_, _, rfl, hx abi.memory, rfl⟩

theorem Idle.clientOf {client : Nat} (h : client = 0 ∨ (client, .client) ∈ abi.boxes) :
    Idle (clientOf client).run abi := by
  by_cases hc : client = 0
  · subst hc
    exact ⟨.error (.failed "client handle was null"), abi, rfl, .refl⟩
  · refine .andThen (.onMemory (Keeps.failIf _ _).handles abi) fun _ abi' hsame => ?_
    have hbox : (client, .client) ∈ abi'.boxes := by
      rw [hsame.boxes]
      exact h.resolve_left hc
    exact ⟨.ok (), abi', by
      show (Ffi.follow client .client abi').bind _ = _
      rw [Ffi.follow, if_pos hbox]
      rfl, .refl⟩

/-- A closure that leaves the boxes alone, and the code. -/
theorem Idle.abiCall {operation : AbiOperation Unit} (h : Idle operation.run abi) :
    Idle (abiCall operation) abi :=
  .bind h fun _ _ _ => ⟨_, _, rfl, rfl, rfl⟩

theorem Idle.mayPanic (r : MayPanic α) (abi : Abi) : Idle (mayPanic r).run abi := by
  cases r with
  | ok a => exact ⟨.ok a, abi, rfl, .refl⟩
  | error e => exact ⟨.error .panicked, abi, rfl, .refl⟩

theorem KeepsHandles.mapM {γ : Type} {f : γ → Operation α} (hf : ∀ c, KeepsHandles (f c))
    (cs : List γ) : KeepsHandles (cs.mapM f) := by
  induction cs with
  | nil =>
    rw [List.mapM_nil]
    exact (Keeps.result _).handles
  | cons c cs ih =>
    rw [List.mapM_cons]
    refine .bind (hf c) fun a => .bind ih fun as => ?_
    exact (Keeps.result _).handles

theorem KeepsHandles.readArgument (argument : Option (Nat → UInt16)) :
    KeepsHandles (readArgument argument) := by
  cases argument with
  | none => exact (Keeps.result _).handles
  | some pointer => exact (Keeps.readUtf16 pointer).handles

/-! ### The exports -/

variable {l : Library} {client : Nat}

theorem statusCall_idle (h : client = 0 ∨ (client, .client) ∈ abi.boxes) (status : Nat)
    (result : Except Failure Status) : Idle (statusCall client status result) abi := by
  refine .abiCall (.andThen (.onMemory (Keeps.failIf _ _).handles abi) fun _ abi₁ h₁ => ?_)
  refine .andThen (.clientOf (by rwa [h₁.boxes])) fun _ abi₂ _ => ?_
  refine .andThen (.onMemory (Keeps.result _).handles abi₂) fun value abi₃ _ => ?_
  exact .onMemory (Keeps.setStatus status value).handles abi₃

theorem silClientRescan_idle (h : client = 0 ∨ (client, .client) ∈ abi.boxes) (result : Nat) :
    Idle (silClientRescan l client result) abi := by
  refine .abiCall (.andThen (.onMemory (Keeps.failIf _ _).handles abi) fun _ abi₁ h₁ => ?_)
  refine .andThen (.clientOf (by rwa [h₁.boxes])) fun _ abi₂ _ => ?_
  refine .andThen (.onMemory (Keeps.result _).handles abi₂) fun value abi₃ _ => ?_
  exact ⟨.ok (), _, rfl, rfl, rfl⟩

theorem silClientCheckRecovery_idle (h : client = 0 ∨ (client, .client) ∈ abi.boxes) :
    Idle (silClientCheckRecovery l client) abi := by
  refine .abiCall (.andThen (.clientOf h) fun _ abi₁ _ => ?_)
  exact .onMemory (Keeps.result _).handles abi₁

theorem silClientRunWrapped_idle (h : client = 0 ∨ (client, .client) ∈ abi.boxes)
    (argv : Option (List (Option (Nat → UInt16)))) (exitCode release : Nat) :
    Idle (silClientRunWrapped l client argv exitCode release) abi := by
  refine .abiCall (.andThen (.onMemory (Keeps.failIf _ _).handles abi) fun _ abi₁ h₁ => ?_)
  refine .andThen (.onMemory (.mapM .readArgument _) abi₁) fun arguments abi₂ h₂ => ?_
  refine .andThen (.clientOf (by rwa [(h₁.trans h₂).boxes])) fun _ abi₃ _ => ?_
  refine .andThen (.onMemory (Keeps.result _).handles abi₃) fun value abi₄ _ => ?_
  refine .andThen ⟨.ok (), _, rfl, rfl, rfl⟩ fun _ abi₅ _ => ?_
  unfold reportRelease
  split
  · exact ⟨.ok (), abi₅, rfl, .refl⟩
  · exact .andThen (.mayPanic _ abi₅) fun _ abi₆ _ => ⟨.ok (), _, rfl, rfl, rfl⟩

/-! ## Exports that consume a handle -/

/-- The box is taken back, and nothing else. -/
def Abi.without (abi : Abi) (handle : Nat) : Abi :=
  { abi with memory := { abi.memory with handles := abi.memory.handles.fromRaw handle } }

/-- The part is defined and takes the box back. -/
def Consumes (x : AbiState α) (abi : Abi) (handle : Nat) : Prop :=
  ∃ a abi', x abi = some (a, abi') ∧ Same (abi.without handle) abi'

theorem Consumes.andThen {x : AbiOperation α} {f : α → AbiOperation β} {handle : Nat}
    (hx : Consumes x.run abi handle) (hf : ∀ a abi', Idle (f a).run abi') :
    Consumes (x >>= f).run abi handle := by
  obtain ⟨r, abi', hrun, hsame⟩ := hx
  have hbind : (x >>= f).run abi = (ExceptT.bindCont f r) abi' := by
    show (x.run abi).bind _ = _
    rw [hrun]
    rfl
  cases r with
  | error e => exact ⟨_, abi', hbind, hsame⟩
  | ok a =>
    obtain ⟨r', abi'', hrun', hsame'⟩ := hf a abi'
    exact ⟨r', abi'', hbind.trans hrun', hsame.trans hsame'⟩

theorem Consumes.fromRaw {handle : Nat} {kind : Kind} (h : (handle, kind) ∈ abi.boxes) :
    Consumes (liftM (fromRaw handle kind) : AbiOperation Unit).run abi handle := by
  refine ⟨.ok (), abi.without handle, ?_, .refl⟩
  show (Ffi.fromRaw handle kind abi).bind _ = _
  rw [Ffi.fromRaw, if_pos h]
  rfl

theorem Consumes.abiCall {operation : AbiOperation Unit} {handle : Nat}
    (h : Consumes operation.run abi handle) : Consumes (abiCall operation) abi handle := by
  obtain ⟨r, abi', hrun, hsame⟩ := h
  refine ⟨(outcome r).1, { abi' with memory := ((setLastError (outcome r).2).run abi'.memory).2 },
    ?_, hsame.trans ⟨rfl, rfl⟩⟩
  show (operation.run abi).bind _ = _
  rw [hrun]
  rfl

/-- Null is not taken; another handle is, whatever comes behind it. -/
theorem consuming {handle : Nat} {kind : Kind} {message : String} {x : AbiOperation Unit}
    (h : handle = 0 ∨ (handle, kind) ∈ abi.boxes) (hx : ∀ abi, Idle x.run abi) :
    (handle = 0 → Idle (abiCall do
      onMemory (failIf (handle = 0) message)
      liftM (fromRaw handle kind)
      x) abi) ∧
    (handle ≠ 0 → Consumes (abiCall do
      onMemory (failIf (handle = 0) message)
      liftM (fromRaw handle kind)
      x) abi handle) := by
  constructor
  · rintro rfl
    exact ⟨silError, _, rfl, rfl, rfl⟩
  · intro hne
    rw [failIf, if_neg hne]
    have hrest : Consumes (liftM (fromRaw handle kind) >>= fun _ => x : AbiOperation Unit).run abi
        handle := .andThen (.fromRaw (h.resolve_left hne)) fun _ => hx
    exact .abiCall hrest

/-- `sil_lease_release` and `sil_pass_through_release` take back what they are given. -/
theorem silLeaseRelease_takes {lease : Nat} (h : lease = 0 ∨ (lease, .lease) ∈ abi.boxes)
    (output : Nat) :
    (lease = 0 → Idle (silLeaseRelease l lease output) abi) ∧
      (lease ≠ 0 → Consumes (silLeaseRelease l lease output) abi lease) := by
  refine consuming h fun abi => ?_
  refine .andThen (.onMemory (Keeps.failIf _ _).handles abi) fun _ abi₁ _ => ?_
  refine .andThen (.onMemory (Keeps.result _).handles abi₁) fun value abi₂ _ => ?_
  refine .andThen (.mayPanic _ abi₂) fun value abi₃ _ => ?_
  exact ⟨.ok (), _, rfl, rfl, rfl⟩

theorem silPassThroughRelease_takes {claim : Nat}
    (h : claim = 0 ∨ (claim, .passThrough) ∈ abi.boxes) (status : Nat) :
    (claim = 0 → Idle (silPassThroughRelease l claim status) abi) ∧
      (claim ≠ 0 → Consumes (silPassThroughRelease l claim status) abi claim) := by
  refine consuming h fun abi => ?_
  refine .andThen (.onMemory (Keeps.failIf _ _).handles abi) fun _ abi₁ _ => ?_
  refine .andThen (.onMemory (Keeps.result _).handles abi₁) fun value abi₂ _ => ?_
  exact .onMemory (Keeps.setStatus status value).handles abi₂

theorem silDestroy_takes {handle : Nat} {kind : Kind}
    (h : handle = 0 ∨ (handle, kind) ∈ abi.boxes) :
    (handle = 0 → Idle (silDestroy handle kind) abi) ∧
      (handle ≠ 0 → Consumes (silDestroy handle kind) abi handle) := by
  constructor
  · rintro rfl
    exact ⟨(), abi, rfl, .refl⟩
  · intro hne
    rw [silDestroy, if_neg hne]
    exact ⟨(), abi.without handle, if_pos (h.resolve_left hne), .refl⟩

end

/-! ## What the caller owns -/

section

variable {abi abi' : Abi} {owned : List (Nat × Kind)} {l : Library}

/-- What the caller owns is what is live, each box once. -/
structure Linear (abi : Abi) (owned : List (Nat × Kind)) : Prop where
  owned : abi.boxes.Perm owned
  nodup : abi.memory.handles.live.Nodup
  nonnull : 0 ∉ abi.memory.handles.live

theorem Linear.same (h : Linear abi owned) (hs : Same abi abi') : Linear abi' owned := by
  refine ⟨?_, ?_, ?_⟩
  · rw [hs.boxes]
    exact h.owned
  · rw [hs.1]
    exact h.nodup
  · rw [hs.1]
    exact h.nonnull

/-- A box that was taken back. -/
theorem Linear.without (h : Linear abi owned) {handle : Nat × Kind} (hh : handle ∈ abi.boxes) :
    Linear (abi.without handle.1) (owned.erase handle) := by
  have hinj : Function.Injective fun p => (p, abi.kindOf p) := fun p q hpq => (Prod.mk.inj hpq).1
  have hboxes : (abi.without handle.1).boxes = abi.boxes.erase handle := by
    obtain ⟨p, -, rfl⟩ := List.mem_map.mp hh
    exact List.map_erase hinj abi.memory.handles.live
  refine ⟨?_, h.nodup.erase _, fun hz => h.nonnull (List.mem_of_mem_erase hz)⟩
  rw [hboxes]
  exact h.owned.erase handle

/-- A null handle is not owned. -/
theorem Linear.null (h : Linear abi owned) (kind : Kind) : (0, kind) ∉ owned := by
  intro hmem
  obtain ⟨p, hp, heq⟩ := List.mem_map.mp (h.owned.mem_iff.mpr hmem)
  exact h.nonnull ((Prod.mk.inj heq).1 ▸ hp)

/-- A box that was given out. -/
theorem Linear.granted (h : Linear abi owned) {output : Nat} {kind : Kind} {x : StateM Memory Int}
    (hx : Granting output x) :
    ∃ code abi', granting kind x abi = some (code, abi') ∧
      Linear abi' (if code = silOk then (abi'.memory.handleAt output, kind) :: owned else owned) := by
  obtain ⟨hok, hno⟩ := hx abi.memory
  refine ⟨_, _, rfl, ?_⟩
  -- the boxes that were there keep their kinds
  have hold : (abi.memory.handles.live.map fun p =>
      (p, Function.update abi.kindOf abi.memory.handles.next kind p)) = abi.boxes := by
    refine List.map_congr_left fun p hp => ?_
    rw [Function.update_of_ne (Nat.ne_of_lt (abi.memory.handles.below p hp))]
  split
  next hcode =>
    obtain ⟨hat, hhandles⟩ := hok hcode
    refine ⟨?_, ?_, ?_⟩
    · rw [Abi.boxes]
      dsimp only
      rw [hhandles, hat]
      show ((abi.memory.handles.next, Function.update abi.kindOf _ kind _) :: _).Perm _
      rw [Function.update_self, hold]
      exact h.owned.cons _
    · dsimp only
      rw [hhandles]
      refine List.nodup_cons.mpr ⟨fun hmem => ?_, h.nodup⟩
      exact Nat.lt_irrefl _ (abi.memory.handles.below _ hmem)
    · dsimp only
      rw [hhandles]
      intro hz
      rcases List.mem_cons.mp hz with hz | hz
      · exact Nat.ne_of_lt abi.memory.handles.positive hz
      · exact h.nonnull hz
  next hcode =>
    have hhandles := hno hcode
    refine ⟨?_, ?_, ?_⟩
    · rw [Abi.boxes]
      dsimp only
      rw [hhandles, hold]
      exact h.owned
    · dsimp only
      rw [hhandles]
      exact h.nodup
    · dsimp only
      rw [hhandles]
      exact h.nonnull

theorem map_some {x : AbiState Int} {code : Int} (h : x abi = some (code, abi')) :
    (some <$> x : AbiState (Option Int)) abi = some (some code, abi') := by
  show (x abi).bind _ = _
  rw [h]
  rfl

/-- A call that leaves the boxes alone and consumes and produces nothing. -/
theorem Linear.idle (h : Linear abi owned) {x : AbiState Int} (hx : Idle x abi) :
    ∃ code abi', (some <$> x : AbiState (Option Int)) abi = some (code, abi') ∧
      Linear abi' owned := by
  obtain ⟨code, abi', hrun, hsame⟩ := hx
  exact ⟨some code, abi', map_some hrun, h.same hsame⟩

/-- A call that consumes a handle, which may be null. -/
theorem Linear.consumed (h : Linear abi owned) {x : AbiState α} {handle : Nat} {kind : Kind}
    (hin : handle = 0 ∨ (handle, kind) ∈ abi.boxes) (hx : (handle = 0 → Idle x abi) ∧
      (handle ≠ 0 → Consumes x abi handle)) :
    ∃ a abi', x abi = some (a, abi') ∧ Linear abi' (owned.erase (handle, kind)) := by
  by_cases hz : handle = 0
  · subst hz
    obtain ⟨a, abi', hrun, hsame⟩ := hx.1 rfl
    refine ⟨a, abi', hrun, ?_⟩
    rw [List.erase_of_not_mem (h.null kind)]
    exact h.same hsame
  · obtain ⟨a, abi', hrun, hsame⟩ := hx.2 hz
    exact ⟨a, abi', hrun, (h.without (hin.resolve_left hz)).same hsame⟩

theorem Linear.produced (h : Linear abi owned) {output : Nat} {kind : Kind} {x : StateM Memory Int}
    (hx : Granting output x) {y : AbiState Int} (hy : y abi = granting kind x abi) :
    ∃ code abi', (some <$> y : AbiState (Option Int)) abi = some (code, abi') ∧
      Linear abi' (if code = some silOk then (abi'.memory.handleAt output, kind) :: owned
        else owned) := by
  obtain ⟨code, abi', hrun, hlinear⟩ := h.granted hx
  refine ⟨some code, abi', map_some (hy.trans hrun), ?_⟩
  simpa only [Option.some.injEq] using hlinear

theorem naming_eq {client : Nat} (h : client = 0 ∨ (client, .client) ∈ abi.boxes)
    (x : AbiState Int) : naming client x abi = x abi := by
  show (followUnlessNull client abi).bind _ = _
  by_cases hc : client = 0
  · rw [followUnlessNull, if_pos hc]
    rfl
  · rw [followUnlessNull, if_neg hc, follow, if_pos (h.resolve_left hc)]
    rfl

/-- A call within the contract is defined, and the caller owns what is live behind it. -/
theorem Linear.run {call : AbiCall} (h : Linear abi owned)
    (ha : call.allowed owned = true) :
    ∃ code abi', call.run l abi = some (code, abi') ∧
      Linear abi' (call.owns owned code abi') := by
  rw [AbiCall.allowed, Bool.and_eq_true] at ha
  have hclient : ∀ client, call.client = some client →
      client = 0 ∨ (client, .client) ∈ abi.boxes := by
    intro client hc
    have hc' := ha.1
    rw [hc] at hc'
    simpa [h.owned.mem_iff] using hc'
  have hhandle : ∀ handle kind, call.consumes = some (handle, kind) →
      handle = 0 ∨ (handle, kind) ∈ abi.boxes := by
    intro handle kind hc
    have hc' := ha.2
    rw [hc] at hc'
    simpa [h.owned.mem_iff] using hc'
  -- a call that makes a box, one that only borrows, or one that takes its box back
  cases call with
  | create options output =>
    exact h.produced (silClientCreate_granting l.toWrapped options) rfl
  | acquire client lease status =>
    exact h.produced (silClientAcquire_granting l.toWrapped client status)
      (naming_eq (hclient client rfl) _)
  | acquirePassThrough client claim status =>
    exact h.produced (silClientAcquirePassThrough_granting l.toWrapped client status)
      (naming_eq (hclient client rfl) _)
  | ensurePayload client status => exact h.idle (statusCall_idle (hclient client rfl) _ _)
  | status client status => exact h.idle (statusCall_idle (hclient client rfl) _ _)
  | rescan client result => exact h.idle (silClientRescan_idle (hclient client rfl) _)
  | checkRecovery client => exact h.idle (silClientCheckRecovery_idle (hclient client rfl))
  | runWrapped client argv exitCode release =>
    exact h.idle (silClientRunWrapped_idle (hclient client rfl) _ _ _)
  | leaseRelease lease outcome =>
    have hin := hhandle lease .lease rfl
    obtain ⟨code, abi', hrun, hlinear⟩ := h.consumed hin (silLeaseRelease_takes hin outcome)
    exact ⟨some code, abi', map_some hrun, hlinear⟩
  | passThroughRelease claim status =>
    have hin := hhandle claim .passThrough rfl
    obtain ⟨code, abi', hrun, hlinear⟩ := h.consumed hin (silPassThroughRelease_takes hin status)
    exact ⟨some code, abi', map_some hrun, hlinear⟩
  | destroy handle kind =>
    have hin := hhandle handle kind rfl
    obtain ⟨u, abi', hrun, hlinear⟩ := h.consumed hin (silDestroy_takes hin)
    refine ⟨none, abi', ?_, hlinear⟩
    show (silDestroy handle kind abi).bind _ = _
    rw [hrun]
    rfl

end

/-- **A caller that keeps to the contract owns what is live.** Whatever it calls, in any order, and
    however the library behind the exports fails or panics, no call is undefined: the boxes that
    are live are those the caller was given and has not handed back, each once. -/
theorem abi_linear {s : Session} (hr : abiSystem.Reach s) :
    ∃ abi owned, s = .defined abi owned ∧ abi.boxes.Perm owned ∧ owned.Nodup := by
  have hlinear : ∃ abi owned, s = .defined abi owned ∧ Linear abi owned := by
    refine System.ReachUnder.invariant
      (I := fun s => ∃ abi owned, s = .defined abi owned ∧ Linear abi owned) ?_ ?_ hr
    · rintro _ ⟨abi, rfl, hlive⟩
      refine ⟨abi, [], rfl, ?_, by simp [hlive], by simp [hlive]⟩
      rw [Abi.boxes, hlive]
      exact .nil
    · rintro _ ⟨call, l⟩ s' - ⟨abi, owned, rfl, h⟩ - hstep
      simp only [abiSystem] at hstep
      split at hstep
      next hallowed =>
        obtain ⟨code, abi', hrun, hlinear⟩ := h.run (l := l) hallowed
        rw [hrun] at hstep
        cases hstep
        exact ⟨abi', _, rfl, hlinear⟩
      · cases hstep
  obtain ⟨abi, owned, rfl, h⟩ := hlinear
  refine ⟨abi, owned, rfl, h.owned, h.owned.nodup_iff.mp ?_⟩
  exact h.nodup.map fun p q hpq => (Prod.mk.inj hpq).1

/-- A library in which every operation succeeds but the release, which panics. -/
def panicking : Library where
  toWrapped := obliging
  ensurePayload _ := .ok ⟨1, 0, 0, 0⟩
  status _ := .ok ⟨1, 0, 0, 0⟩
  rescan _ := .ok ⟨0, 0, 0⟩
  checkRecovery _ := .ok ()
  runWrapped _ _ := .ok ⟨0, .error "the payload pipe is gone"⟩
  release _ := .error .panicked
  releasePassThrough _ := .error .panicked

/-- Nothing was handed out yet. -/
def untouched : Abi where
  memory := ⟨⟨1, [], by decide, by decide⟩, fun _ => 0, fun _ => ⟨0, 0, 0, 0, 0⟩, []⟩
  kindOf _ := .client
  outcomeAt _ := .default
  rescanAt _ := ⟨0, 0, 0⟩
  exitCodeAt _ := 0

/-- A client and two leases, of which one is released in vain and one is destroyed. -/
def releasedInVain : List (AbiCall × Library) :=
  [(.create none 8, panicking), (.acquire 1 16 24, panicking), (.acquire 1 32 24, panicking),
    (.leaseRelease 2 0, panicking), (.destroy 3 .lease, panicking)]

theorem abi_linear_released :
    ∃ abi owned, (abiSystem.exec (.defined untouched []) releasedInVain).getD .undefined =
      .defined abi owned ∧ abi.boxes.Perm owned ∧ owned.Nodup := by
  have hrun : abiSystem.exec (.defined untouched []) releasedInVain =
      some ((abiSystem.exec (.defined untouched []) releasedInVain).getD .undefined) := rfl
  exact abi_linear (System.Reach.exec (.init ⟨untouched, rfl, rfl⟩) hrun)

end Ffi
end SteamInputLease
