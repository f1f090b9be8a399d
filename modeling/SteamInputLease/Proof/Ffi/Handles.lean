import SteamInputLease.Ffi.Handles

/-!
# What a failed call leaves behind

Between clearing the output and giving out the handle nothing touches either, so that a call that
gets as far as clearing it leaves null or a fresh handle. `sil_client_acquire` looks at `status`
before that.

What is shown of a part is that it keeps the handles and the output (`Keeps`) or that it grants
(`Grants`): from an output that is null it goes to one that has a new handle, exactly where it
succeeds. The two acquires differ in the order of their checks and share all that comes behind them,
which is `grantTo`. That the handle is fresh needs the allocator, which gives no address out twice;
`Handles` carries that as a field, so that no lemma has to bring it along.
-/

namespace SteamInputLease
namespace Ffi

open Lib
open Launch (Status)

/-! ## Steps that leave the handles alone -/

section

variable {α β : Type} {x : Operation α} {f : α → Operation β} {output : Nat}

theorem run_bind (x : Operation α) (f : α → Operation β) (m : Memory) :
    ((x >>= f).run).run m =
      ((ExceptT.bindCont f ((x.run).run m).1).run) ((x.run).run m).2 := rfl

/-- `x` gives out no handle and writes none. -/
def Keeps (x : Operation α) : Prop :=
  ∀ m, ((x.run).run m).2.handleAt = m.handleAt ∧ ((x.run).run m).2.handles = m.handles

theorem Keeps.result (r : Except Failure α) : Keeps (ExceptT.mk (pure r)) := by
  intro m
  exact ⟨rfl, rfl⟩

theorem Keeps.bind (hx : Keeps x) (hf : ∀ a, Keeps (f a)) : Keeps (x >>= f) := by
  intro m
  obtain ⟨hat, hhandles⟩ := hx m
  rw [run_bind]
  generalize (x.run).run m = result at hat hhandles ⊢
  obtain ⟨r, m'⟩ := result
  cases r with
  | error e => exact ⟨hat, hhandles⟩
  | ok a =>
    obtain ⟨hat', hhandles'⟩ := hf a m'
    exact ⟨hat'.trans hat, hhandles'.trans hhandles⟩

theorem Keeps.setStatus (status : Nat) (value : Status) : Keeps (setStatus status value) := by
  intro m
  exact ⟨rfl, rfl⟩

theorem Keeps.failIf (condition : Prop) [Decidable condition] (message : String) :
    Keeps (failIf condition message) := by
  rw [Ffi.failIf]
  split
  · exact .result _
  · exact .result _

theorem Keeps.readUtf16 (pointer : Nat → UInt16) : Keeps (readUtf16 pointer) := by
  rw [Ffi.readUtf16]
  split
  · exact .result _
  · exact .result _

theorem Keeps.readUnlessNull (pointer : Option (Nat → UInt16)) :
    Keeps (readUnlessNull pointer) := by
  cases pointer with
  | none => exact .result _
  | some pointer => exact .bind (.readUtf16 pointer) fun _ => .result _

theorem Keeps.resolveOptions (resolved : ClientOptions) (options : Option SilClientOptions) :
    Keeps (resolveOptions resolved options) := by
  cases options with
  | none => exact .result _
  | some options =>
    refine .bind (.readUnlessNull _) ?_
    intro targetName
    refine .bind (.readUnlessNull _) ?_
    intro payloadPath
    exact .result _

/-! ## Giving out a handle -/

/-- From memory in which the output is null, `x` puts a new handle there or leaves it null. -/
def Grants (output : Nat) (x : Operation Unit) : Prop :=
  ∀ m, m.handleAt output = 0 →
    (((x.run).run m).1 = .ok () → ((x.run).run m).2.handleAt output = m.handles.next ∧
      ((x.run).run m).2.handles = m.handles.intoRaw) ∧
    (((x.run).run m).1 ≠ .ok () → ((x.run).run m).2.handleAt output = 0)

theorem Grants.give : Grants output (giveHandle output) := by
  intro m _
  have hrun : ((giveHandle output).run).run m = (.ok (), { m with
      handles := m.handles.intoRaw
      handleAt := Function.update m.handleAt output m.handles.next }) := rfl
  rw [hrun]
  refine ⟨?_, ?_⟩
  · intro _
    exact ⟨Function.update_self .., rfl⟩
  · intro h
    exact absurd rfl h

theorem Grants.bind {f : α → Operation Unit} (hx : Keeps x) (hf : ∀ a, Grants output (f a)) :
    Grants output (x >>= f) := by
  intro m hm
  obtain ⟨hat, hhandles⟩ := hx m
  rw [run_bind]
  generalize (x.run).run m = result at hat hhandles ⊢
  obtain ⟨r, m'⟩ := result
  dsimp only at hat hhandles
  cases r with
  | error e =>
    refine ⟨?_, ?_⟩
    · intro h
      cases h
    · intro _
      exact (congrFun hat output).trans hm
  | ok a =>
    rw [← hhandles]
    exact hf a m' (hat ▸ hm)

/-- What the two acquires do once their outputs are checked and cleared. -/
def grantTo (client : Nat) (result : Except Failure Status) (status output : Nat) :
    Operation Unit := do
  clientRef client
  let value ← wrapped result
  setStatus status value
  giveHandle output

theorem Grants.grantTo (client : Nat) (result : Except Failure Status) (status : Nat) :
    Grants output (grantTo client result status output) := by
  refine .bind (.failIf _ _) ?_
  intro _
  refine .bind (.result _) ?_
  intro value
  refine .bind (.setStatus status value) ?_
  intro _
  exact .give

end

/-- What the law asks of a call: a fresh live handle with `SIL_OK`, and null with anything else. -/
structure HandleLaw (output : Nat) (before : Memory) (result : Int × Memory) : Prop where
  fresh : result.1 = silOk → result.2.handleAt output ≠ 0 ∧
    result.2.handleAt output ∈ result.2.handles.live ∧
    result.2.handleAt output ∉ before.handles.live
  null : result.1 ≠ silOk → result.2.handleAt output = 0

section

variable {output : Nat} {x : Operation Unit}

theorem outcome_eq_ok {result : Except Failure Unit} :
    (outcome result).1 = silOk ↔ result = .ok () := by
  cases result with
  | ok u => exact iff_of_true rfl rfl
  | error failure =>
    refine iff_of_false ?_ ?_
    · cases failure with
      | failed message => exact (by decide : silError ≠ silOk)
      | panicked => exact (by decide : silPanic ≠ silOk)
    · intro h
      cases h

/-- A call that clears its output and goes on without touching it. -/
theorem handleLaw_of_grants (hx : Grants output x) (m : Memory) :
    HandleLaw output m ((ffiCall (setHandle output 0 >>= fun _ => x)).run m) := by
  let cleared : Memory := { m with handleAt := Function.update m.handleAt output 0 }
  obtain ⟨hgrant, hnull⟩ := hx cleared (Function.update_self ..)
  have hrun : (ffiCall (setHandle output 0 >>= fun _ => x)).run m =
      ((outcome ((x.run).run cleared).1).1, { ((x.run).run cleared).2 with
        lastError := replaceNul (outcome ((x.run).run cleared).1).2.toList }) := rfl
  rw [hrun]
  refine ⟨?_, ?_⟩
  · intro hok
    obtain ⟨hat, hhandles⟩ := hgrant (outcome_eq_ok.mp hok)
    dsimp only
    rw [hat, hhandles]
    have hpos := m.handles.positive
    refine ⟨Nat.ne_of_gt hpos, List.mem_cons_self, ?_⟩
    intro hlive
    exact Nat.lt_irrefl _ (m.handles.below _ hlive)
  · intro hne
    exact hnull fun h => hne (outcome_eq_ok.mpr h)

theorem silClientCreate_law (w : Wrapped) (options : Option SilClientOptions) (hout : output ≠ 0)
    (m : Memory) : HandleLaw output m ((silClientCreate w options output).run m) := by
  rw [silClientCreate, failIf, if_neg hout, pure_bind]
  apply handleLaw_of_grants
  refine .bind (.result _) ?_
  intro resolved
  refine .bind (.resolveOptions _ _) ?_
  intro resolved
  refine .bind (.result _) ?_
  intro _
  exact .give

theorem silClientAcquire_law (w : Wrapped) {client status : Nat} (hout : output ≠ 0)
    (hstatus : status ≠ 0)
    (m : Memory) : HandleLaw output m ((silClientAcquire w client output status).run m) := by
  rw [silClientAcquire, failIf, if_neg (not_or.mpr ⟨hout, hstatus⟩), pure_bind]
  exact handleLaw_of_grants (.grantTo client (w.acquire client) status) m

theorem silClientAcquirePassThrough_law (w : Wrapped) (client status : Nat) (hout : output ≠ 0)
    (m : Memory) :
    HandleLaw output m ((silClientAcquirePassThrough w client output status).run m) := by
  rw [silClientAcquirePassThrough, failIf, if_neg hout, pure_bind]
  apply handleLaw_of_grants
  refine .bind (.failIf _ _) ?_
  intro _
  exact .grantTo client (w.acquirePassThrough client) status

/-- `sil_client_acquire` with a null `status` returns before it clears its output. -/
theorem silClientAcquire_nullStatus (w : Wrapped) (client output : Nat) (m : Memory) :
    ((silClientAcquire w client output 0).run m).1 = silError ∧
      ((silClientAcquire w client output 0).run m).2.handleAt = m.handleAt := by
  rw [silClientAcquire, failIf, if_pos (.inr rfl)]
  exact ⟨rfl, rfl⟩

end

/-- **A call keeps the law** just when it is not `sil_client_acquire` with a null `status` and
    something in its output. -/
theorem handleLaw_iff (w : Wrapped) (call : HandleCall) (output : Nat) (m : Memory)
    (houtput : output ≠ 0) : HandleLaw output m ((call.run w output).run m) ↔
      ¬((∃ client, call = .acquire client 0) ∧ m.handleAt output ≠ 0) := by
  cases call with
  | create options =>
    refine iff_of_true (silClientCreate_law w options houtput m) ?_
    intro h
    obtain ⟨⟨client, hcall⟩, _⟩ := h
    cases hcall
  | acquirePassThrough client status =>
    refine iff_of_true (silClientAcquirePassThrough_law w client status houtput m) ?_
    intro h
    obtain ⟨⟨client, hcall⟩, _⟩ := h
    cases hcall
  | acquire client status =>
    by_cases hstatus : status = 0
    · subst hstatus
      obtain ⟨hcode, hat⟩ := silClientAcquire_nullStatus w client output m
      have hcall : (HandleCall.acquire client 0).run w output = silClientAcquire w client output 0 :=
        rfl
      rw [hcall]
      constructor
      · intro h hstale
        -- the law asks for a null handle on failure, but the stale one is still there
        apply hstale.2
        have hnull := h.null (by rw [hcode]; decide)
        rwa [hat] at hnull
      · intro h
        have hnull : m.handleAt output = 0 := by
          apply Decidable.byContradiction
          intro hne
          exact h ⟨⟨client, rfl⟩, hne⟩
        refine ⟨?_, ?_⟩
        · intro hok
          rw [hcode] at hok
          exact absurd hok (by decide)
        · intro _
          rw [hat, hnull]
    · refine iff_of_true (silClientAcquire_law w houtput hstatus m) ?_
      intro h
      obtain ⟨⟨client', hcall⟩, _⟩ := h
      cases hcall
      exact hstatus rfl

/-- A library in which everything succeeds. -/
def obliging : Wrapped where
  defaultOptions := .ok ⟨"steam.exe".toList, [], 10000, false⟩
  newClient _ := .ok ()
  acquire _ := .ok ⟨1, 1, 0, 0⟩
  acquirePassThrough _ := .ok ⟨3, 1, 0, 0⟩

/-- A client in `5` is live, and the caller's variable at `8` still holds a lease it had before. -/
def stale : Memory where
  handles := ⟨8, [5], by decide, by decide⟩
  handleAt _ := 7
  statusAt _ := ⟨0, 0, 0, 0, 0⟩
  lastError := []

theorem handleLaw_passThrough :
    HandleLaw 8 stale (((HandleCall.acquirePassThrough 5 0).run obliging 8).run stale) :=
  (handleLaw_iff obliging (.acquirePassThrough 5 0) 8 stale (by decide)).mpr
    (by rintro ⟨⟨client, hcall⟩, _⟩; cases hcall)

/-- The lease that was there is still there after the call has failed. -/
theorem not_handleLaw : ¬∀ (w : Wrapped) (call : HandleCall) (output : Nat) (m : Memory),
    output ≠ 0 → HandleLaw output m ((call.run w output).run m) := by
  intro h
  have hnull := (h obliging (.acquire 5 0) 8 stale (by decide)).null (by decide)
  exact absurd hnull (by decide)

end Ffi
end SteamInputLease
