import SteamInputLease.Gate.HandleTable

/-!
# The handles of Steam's process

What Windows keeps: which numeric values are open and which object each names. A value that was
closed may be given out again. The probes of the payload are answered from it.
-/

namespace SteamInputLease
namespace Gate

/-- What a handle can name, as far as `is_file_object` and `probe_file_handle` tell. -/
inductive ObjectKind
  | notFile
  | file
  | hid
  deriving DecidableEq, Repr

structure OpenHandle where
  value : UInt64
  /-- The object, as `CompareObjectHandles` tells objects apart. -/
  object : Nat
  kind : ObjectKind
  /-- Opened by a detour on a HID path. -/
  detoured : Bool
  deriving DecidableEq, Repr

structure Kernel where
  handles : List OpenHandle
  /-- The objects created so far. -/
  objects : Nat
  deriving DecidableEq, Repr

def Kernel.initial : Kernel := { handles := [], objects := 0 }

/-- The open handle of a value. -/
def Kernel.find (k : Kernel) (h : UInt64) : Option OpenHandle :=
  k.handles.find? (·.value == h)

/-- A new object under a value that is not open. -/
def Kernel.create (k : Kernel) (h : UInt64) (kind : ObjectKind) (detoured : Bool) :
    Option Kernel :=
  if notTracked h || (k.find h).isSome then none
  else some
    { handles := k.handles ++ [{ value := h, object := k.objects, kind := kind, detoured := detoured }]
      objects := k.objects + 1 }

/-- `DuplicateHandle` of `h` under the value `d`. -/
def Kernel.duplicate (k : Kernel) (h d : UInt64) : Option Kernel :=
  (k.find h).bind fun o =>
    if notTracked d || (k.find d).isSome then none
    else some { k with handles := k.handles ++ [{ o with value := d, detoured := false }] }

/-- The original `NtClose`. -/
def Kernel.close (k : Kernel) (h : UInt64) : Kernel :=
  { k with handles := k.handles.filter (·.value != h) }

/-- `CompareObjectHandles`. -/
def Kernel.sameObject (k : Kernel) (h d : UInt64) : Bool :=
  match k.find h, k.find d with
  | some a, some b => a.object == b.object
  | _, _ => false

/-- `is_file_object`. -/
def Kernel.isFileObject (k : Kernel) (h : UInt64) : Bool := (k.find h).any (·.kind != .notFile)

/-- `probe_file_handle`. -/
def Kernel.probeFileHandle (k : Kernel) (h : UInt64) : HandleClass :=
  if (k.find h).any (·.kind == .hid) then .hid else .other

/-- `probe_handle`. -/
def Kernel.probeHandle (k : Kernel) (h : UInt64) : HandleClass :=
  if k.isFileObject h then k.probeFileHandle h else .other

/-- The end of the sweep at `h`, classified as `c`: it is remembered, and a HID handle is
    forgotten and closed. -/
def Kernel.settle (k : Kernel) (t : HandleTable) (h : UInt64) (c : HandleClass) :
    Kernel × HandleTable :=
  let t := t.rememberHandle h c
  if c = .hid then (k.close h, t.forgetHandle h) else (k, t)

/-! ## Values that stay as they are -/

section

variable {k k' : Kernel} {h d v : UInt64} {o : OpenHandle} {kind : ObjectKind} {detoured : Bool}

theorem find_append (hfree : k.find o.value = none) :
    ({ k with handles := k.handles ++ [o] } : Kernel).find v =
      if v = o.value then some o else k.find v := by
  rw [Kernel.find, List.find?_append]
  split
  · next hv =>
    subst hv
    rw [show k.handles.find? (·.value == o.value) = none from hfree, Option.none_or]
    simp
  · next hv =>
    rw [List.find?_singleton, if_neg (by simpa using Ne.symm hv), Option.or_none]
    rfl

theorem find_create (hk : k.create h kind detoured = some k') :
    notTracked h = false ∧ k.find h = none ∧ (k'.find h).map (·.kind) = some kind ∧
      (k'.find h).map (·.detoured) = some detoured ∧ ∀ v, v ≠ h → k'.find v = k.find v := by
  rw [Kernel.create] at hk
  split at hk
  · cases hk
  next hn =>
  rw [Bool.or_eq_true, not_or, Bool.not_eq_true, Bool.not_eq_true, Option.isSome_eq_false_iff,
    Option.isNone_iff_eq_none] at hn
  cases hk
  have hfind := fun v => find_append (v := v)
    (o := { value := h, object := k.objects, kind := kind, detoured := detoured }) hn.2
  refine ⟨hn.1, hn.2, ?_, ?_, fun v hv => (hfind v).trans (if_neg hv)⟩
  · exact congrArg (Option.map (·.kind)) ((hfind h).trans (if_pos rfl))
  · exact congrArg (Option.map (·.detoured)) ((hfind h).trans (if_pos rfl))

theorem find_duplicate (hk : k.duplicate h d = some k') :
    k.find d = none ∧ ∀ v, v ≠ d → k'.find v = k.find v := by
  obtain ⟨o, _, hk⟩ := Option.bind_eq_some_iff.mp hk
  split at hk
  · cases hk
  next hn =>
  rw [Bool.or_eq_true, not_or, Bool.not_eq_true, Bool.not_eq_true, Option.isSome_eq_false_iff,
    Option.isNone_iff_eq_none] at hn
  cases hk
  exact ⟨hn.2, fun v hv =>
    (find_append (o := { o with value := d, detoured := false }) hn.2).trans (if_neg hv)⟩

theorem find_close : (k.close h).find v = if v = h then none else k.find v := by
  rw [Kernel.find, Kernel.close, List.find?_filter]
  split
  · next hv =>
    rw [List.find?_eq_none]
    intro o _
    simp [hv]
  · next hv =>
    refine congrArg (fun p => List.find? p k.handles) (funext fun o => ?_)
    by_cases ho : o.value = v
    · simp [ho, hv]
    · simp [ho]

theorem probeFileHandle_hid : k.probeFileHandle h = .hid ↔ ∃ o, k.find h = some o ∧ o.kind = .hid := by
  rw [Kernel.probeFileHandle]
  cases k.find h with
  | none => simp
  | some o => simp

end

end Gate
end SteamInputLease
