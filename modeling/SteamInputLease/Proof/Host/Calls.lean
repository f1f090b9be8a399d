import SteamInputLease.Host.Calls

/-!
# What the parts of the library hold

A part that opens a handle drops it, so behind each of them the library holds what it held before.

Custody is followed with the rules of `Lib.Custody`: `Guards` says what is held before a part, and
for every answer what is held behind it and that nothing was named or given back in between that was
not held. The parts here are those that everything else in `Host` is made of, dropping a handle,
looking for the target among the processes, and looking for a module in its snapshots. Besides what
is held they say that their calls are quiet, which is to say that no request is sent and no remote
path is touched; so where an operation is followed by its requests or by its path, these parts drop
out at once.
-/

namespace SteamInputLease
namespace Host

open Lib
open Launch (Error RemoteModule)

section

variable {held : Multiset HostHandle}

/-- Not a call by which a remote thread gets its path, runs, or is watched, nor a request. -/
def HostCall.quiet : HostCall → Prop
  | .virtualAllocEx _ _ | .virtualFreeEx _ _ | .createRemoteThread _ _ _
  | .waitForSingleObject _ | .getExitCodeThread _ | .writeFile _ _ => False
  | _ => True

def Quiet (log : List (HostCall × HostAnswer)) : Prop := ∀ e ∈ log, e.1.quiet

theorem Quiet.nil : Quiet [] := List.forall_mem_nil _

theorem Quiet.cons {c : HostCall} {a : HostAnswer} {log : List (HostCall × HostAnswer)}
    (hc : c.quiet) (h : Quiet log) : Quiet ((c, a) :: log) := List.forall_mem_cons.mpr ⟨hc, h⟩

theorem Quiet.append {log rest : List (HostCall × HostAnswer)} (h : Quiet log) (hr : Quiet rest) :
    Quiet (log ++ rest) := fun e he => (List.mem_append.mp he).elim (h e) (hr e)

/-- A handle that a call names is among what is held. -/
theorem owned_mem {handle : UInt64} (h : owned handle ≤ held) : ∀ x ∈ owned handle, x ∈ held :=
  fun _ hx => Multiset.mem_of_le h hx

/-- Dropping a handle gives it back, if it is one. -/
theorem dropHandle_guards (handle : UInt64) :
    hostCustody.Guards (fun log _ rest => rest = held ∧ ∀ e ∈ log, e.1 = .closeHandle handle)
      (dropHandle handle) (held + owned handle) := by
  unfold dropHandle owned
  split
  · exact .pure ⟨add_zero _, List.forall_mem_nil _⟩
  · refine .spend (by simp [hostCustody]) (fun _ => rfl) (fun _ => rfl) fun a => .pure ⟨rfl, ?_⟩
    intro e he
    rw [List.mem_singleton.mp he]

theorem windowsError_guards {α : Type} (operation : String) :
    hostCustody.Guards (fun log r rest => rest = held ∧
        ∃ a : HostAnswer, log = [(.lastOsError, a)] ∧
          r = (.error (.windows operation a.text) : Except Error α))
      (windowsError operation) held :=
  .look (by simp [hostCustody]) (fun _ => rfl) (fun _ => rfl) fun a => .pure ⟨rfl, a, rfl, rfl⟩

/-! ## The target -/

theorem inSession_guards (name : String) (session : UInt32) (entry : ProcessEntry) :
    hostCustody.Guards (fun log _ rest => rest = held ∧ Quiet log) (inSession name session entry)
      held := by
  unfold inSession
  split
  · exact .pure ⟨rfl, .nil⟩
  · exact .look (by simp [hostCustody]) (fun _ => rfl) (fun _ => rfl) fun _ =>
      .pure ⟨rfl, .cons trivial .nil⟩

theorem matchProcesses_guards (name : String) (session : UInt32) (entries : List ProcessEntry)
    (matched : Option UInt32) :
    hostCustody.Guards (fun log _ rest => rest = held ∧ Quiet log)
      (matchProcesses name session entries matched) held := by
  induction entries generalizing matched with
  | nil =>
    refine .look (by simp [hostCustody]) (fun _ => rfl) (fun _ => rfl) fun last => ?_
    split
    · exact .pure ⟨rfl, .cons trivial .nil⟩
    · cases matched <;> exact .pure ⟨rfl, .cons trivial .nil⟩
  | cons entry entries ih =>
    refine .bind (inSession_guards name session entry) fun log found rest h => ?_
    obtain ⟨rfl, hlog⟩ := h
    have hmore : ∀ matched, hostCustody.Guards
        (fun more _ rest' => rest' = rest ∧ Quiet (log ++ more))
        (matchProcesses name session entries matched) rest := fun matched =>
      (ih matched).imp fun _ _ _ h => ⟨h.1, hlog.append h.2⟩
    split
    · exact hmore matched
    · cases matched with
      | none => exact hmore _
      | some first => exact .pure ⟨rfl, hlog.append .nil⟩

/-- The snapshot of the processes is closed however the search ends. -/
theorem findProcess_guards (name : String) :
    hostCustody.Guards (fun log _ rest => rest = held ∧ Quiet log) (findProcess name) held := by
  unfold findProcess
  split
  · exact .pure ⟨rfl, .nil⟩
  refine .look (by simp [hostCustody]) (fun _ => rfl) (fun _ => rfl) fun session => ?_
  split
  · refine (windowsError_guards _).imp fun log r rest h => ?_
    obtain ⟨hrest, a, rfl, -⟩ := h
    exact ⟨hrest, .cons trivial (.cons trivial .nil)⟩
  refine .receive (by simp [hostCustody]) (fun _ => rfl) fun snapshot => ?_
  split
  case isTrue hi =>
    rw [show hostCustody.gives .snapshotProcesses snapshot = 0 from if_pos (.inr hi), add_zero]
    refine (windowsError_guards _).imp fun log r rest h => ?_
    obtain ⟨hrest, a, rfl, -⟩ := h
    exact ⟨hrest, .cons trivial (.cons trivial (.cons trivial .nil))⟩
  case isFalse =>
    refine .bind (matchProcesses_guards name session.value snapshot.processes none)
      fun log r rest h => ?_
    obtain ⟨rfl, hlog⟩ := h
    refine .bind (dropHandle_guards snapshot.handle) fun closing _ rest h => ?_
    obtain ⟨rfl, hclosing⟩ := h
    refine .pure ⟨rfl, .cons trivial (.cons trivial (hlog.append ?_))⟩
    rw [List.append_nil]
    intro e he
    rw [hclosing e he]
    trivial

/-! ## The modules of the target -/

/-- What is found was listed in a snapshot of the process. -/
def Listed (processId : UInt32) (name : List Char) (log : List (HostCall × HostAnswer))
    (r : Option RemoteModule) : Prop :=
  ∀ module, r = some module → ∃ snapshot : HostAnswer,
    (.snapshotModules processId, snapshot) ∈ log ∧
      findModule name snapshot.modules = some (some module)

theorem Listed.append {processId : UInt32} {name : List Char}
    {log more : List (HostCall × HostAnswer)} {r : Option RemoteModule}
    (h : Listed processId name more r) : Listed processId name (log ++ more) r := by
  intro module hr
  obtain ⟨snapshot, hmem, hfind⟩ := h module hr
  exact ⟨snapshot, List.mem_append_right _ hmem, hfind⟩

theorem retryDelay_guards (left : Nat) :
    hostCustody.Guards (fun log _ rest => rest = held ∧ Quiet log) (retryDelay left) held := by
  unfold retryDelay
  split
  · exact .look (by simp [hostCustody]) (fun _ => rfl) (fun _ => rfl) fun _ =>
      .pure ⟨rfl, .cons trivial .nil⟩
  · exact .pure ⟨rfl, .nil⟩

/-- A snapshot is closed before the next one is taken, by induction on the attempts. -/
theorem remoteModuleFrom_guards (processId : UInt32) (name : List Char) (left : Nat) :
    hostCustody.Guards (fun log r rest => rest = held ∧ Quiet log ∧ Listed processId name log r)
      (remoteModuleFrom processId name left) held := by
  induction left with
  | zero => exact .pure ⟨rfl, .nil, nofun⟩
  | succ left ih =>
    unfold remoteModuleFrom
    refine .bind (retryDelay_guards _) fun pause _ rest h => ?_
    obtain ⟨rfl, hpause⟩ := h
    refine .receive (by simp [hostCustody]) (fun _ => rfl) fun snapshot => ?_
    -- another attempt, behind what this one did
    have hagain : ∀ log, Quiet log → hostCustody.Guards
        (fun more r rest' => rest' = rest ∧ Quiet (log ++ more) ∧
          Listed processId name (log ++ more) r)
        (remoteModuleFrom processId name left) rest := fun log hlog =>
      ih.imp fun _ _ _ h => ⟨h.1, hlog.append h.2.1, h.2.2.append⟩
    split
    case isTrue hi =>
      rw [show hostCustody.gives (.snapshotModules processId) snapshot = 0 from if_pos (.inr hi),
        add_zero]
      refine .look (by simp [hostCustody]) (fun _ => rfl) (fun _ => rfl) fun last => ?_
      have hfailed : Quiet (pause ++ [(.snapshotModules processId, snapshot), (.lastOsError, last)]) := by
        refine hpause.append ?_
        exact .cons trivial (.cons trivial .nil)
      split
      · have h := hagain _ hfailed
        simpa only [List.append_assoc, List.cons_append, List.nil_append] using h
      · exact .pure ⟨rfl, hfailed, nofun⟩
    case isFalse =>
      refine .bind (dropHandle_guards snapshot.handle) fun closing _ rest h => ?_
      obtain ⟨rfl, hclosing⟩ := h
      have hquiet : Quiet (pause ++ (.snapshotModules processId, snapshot) :: closing) := by
        refine hpause.append (.cons trivial fun e he => ?_)
        rw [hclosing e he]
        trivial
      split
      next found hfind =>
        refine .pure ⟨rfl, by rwa [List.append_nil], ?_⟩
        rintro module rfl
        exact ⟨snapshot, by simp, hfind⟩
      next =>
        have h := hagain _ hquiet
        simpa only [List.append_assoc, List.cons_append] using h

/-- The lookup leaves nothing open, and what it finds was listed. -/
theorem remoteModule_guards (processId : UInt32) (name : List Char) :
    hostCustody.Guards (fun log r rest => rest = held ∧ Quiet log ∧ Listed processId name log r)
      (remoteModule processId name) held := remoteModuleFrom_guards processId name _

end

end Host
end SteamInputLease
