import SteamInputLease.Gate.HandleTable

/-!
# What the handle table stands for

The finite map a caller of `remember_handle` and `forget_handle` has in mind, as an observer of
the table's threads: a handle has the class it was last remembered with, until it is forgotten.
-/

namespace SteamInputLease
namespace Gate

/-- The class each handle was last remembered with and not forgotten. -/
abbrev HandleMap := UInt64 → Option HandleClass

def HandleMap.empty : HandleMap := fun _ => none

/-- Every slot of the handle's probe window is taken by a live key. -/
def HandleTable.windowFull (t : HandleTable) (handle : UInt64) : Bool :=
  (List.range handleProbeLimit).all fun o => tombstone < (t.slots (probeIndex handle o)).key

/-- The slots classified `Hid`. -/
def HandleTable.hidSlots (t : HandleTable) : Nat :=
  ((List.range handleTableSize).map t.slots).countP (·.classification == .hid)

/-- The observer at one step. A forget takes effect at its removal, or where it finds nothing to
    remove; a remember of an absent key is dropped when its window is full. -/
def HandleMap.observe (m : HandleMap) (s : TableState) (e : TableLabel) (_ : TableState) :
    HandleMap :=
  match e with
  | .lookup _ => m
  | .remember h c =>
    if notTracked h || ((m h).isNone && s.table.windowFull h) then m
    else Function.update m h (some c)
  | .forgetCheck h => if s.table.forgetCheck h then m else Function.update m h none
  | .forgetRemove i =>
    match s.forgetting[i]? with
    | some h => Function.update m h none
    | none => m

/-- What makes the table of `s` an implementation of the map `m`. A live key is one above
    `TOMBSTONE`. -/
structure TableRefines (s : TableState) (m : HandleMap) : Prop where
  unique : ∀ i j, i < handleTableSize → j < handleTableSize → tombstone < (s.table.slots i).key →
    (s.table.slots i).key = (s.table.slots j).key → i = j
  window : ∀ i, i < handleTableSize → tombstone < (s.table.slots i).key →
    ∃ o, o < handleProbeLimit ∧ probeIndex (s.table.slots i).key o = i ∧
      ∀ b, b < o → (s.table.slots (probeIndex (s.table.slots i).key b)).key ≠ 0
  /-- However the run goes on, a slot that is in use is never empty again. -/
  used : ∀ es s', handleTable.exec s es = some s' →
    ∀ i, (s.table.slots i).key ≠ 0 → (s'.table.slots i).key ≠ 0
  counted : s.table.hidHandleCount = s.table.hidSlots
  nonneg : 0 ≤ s.table.hidHandleCount
  lookup : ∀ h, notTracked h = false → s.table.lookupHandle h = (m h).getD .unknown
  dropped : ∀ h c, notTracked h = false → m h = none → s.table.windowFull h = true →
    s.table.rememberHandle h c = s.table

end Gate
end SteamInputLease
