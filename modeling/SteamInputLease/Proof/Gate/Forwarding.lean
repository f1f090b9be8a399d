import SteamInputLease.Gate.Proxy

/-!
# What `initialize_forwarding` guarantees

The worker fills the table entry by entry: what is done has the answer for its own export, the rest
is empty. It releases the exports when it has finished, and calls nothing after that.

`Filling` is the state of the table between two entries, and each function below keeps it for more
entries than it was given. Whether the real module was found decides where the answers come from; a
module that is this image is let through by no guard (`Filling.isSelf`), so that a call is never
forwarded to itself. An entry that is not found stays empty, and is allowed to unless it is one of
the required ones. What Steam sees in the meantime is said by `Bootstraps`, of every call on its
own: `Proxy` needs it between any two of them, and not only where the closure returns.
-/

namespace SteamInputLease
namespace Gate

open Lib Lib.Program

/-- What holds of the table whenever Steam looks at it. -/
structure ForwardingTable (vector : ProxyVector) (image : UInt64) (s : Forwarding) : Prop where
  unreleased : s.ready = false → s.releases = 0
  released : s.ready = true → s.releases = 1
  complete : s.ready = true → ∀ entry ∈ vector.required, s.slots entry.1 ≠ 0
  own : s.ready = true → ∀ entry ∈ vector.table, s.Resolved image entry.2 (s.slots entry.1)
  empty : ∀ slot, slot ∉ vector.table.map Prod.fst → s.slots slot = 0

/-- What a call of the worker may do: none comes behind the release. -/
structure Bootstraps (vector : ProxyVector) (image : UInt64) (s s' : Forwarding) : Prop where
  before : s.ready = false
  after : ForwardingTable vector image s'

/-- What holds when `initialize_forwarding` has run. -/
structure Initialized (vector : ProxyVector) (image : UInt64) (initialized : Bool)
    (s : Forwarding) : Prop where
  verdict : s.ready = initialized
  table : ForwardingTable vector image s

/-- The table while it is filled: the entries that are done, and those among them that were
    found. -/
structure Filling (image : UInt64) (found done : List (ProxyExport × Export)) (s : Forwarding) :
    Prop where
  itself : s.selfModule = 0 ∨ s.selfModule = image
  blocked : s.ready = false
  unreleased : s.releases = 0
  own : ∀ entry ∈ done, s.Resolved image entry.2 (s.slots entry.1)
  empty : ∀ slot, slot ∉ done.map Prod.fst → s.slots slot = 0
  filled : ∀ entry ∈ found, s.slots entry.1 ≠ 0

section

variable {vector : ProxyVector} {image : UInt64} {found done : List (ProxyExport × Export)}
  {s s' : Forwarding}

/-- The entries that are done are entries of the vector's table. -/
theorem Filling.table (h : Filling image found done s) (hdone : done ⊆ vector.table) :
    ForwardingTable vector image s := by
  have hnot : s.ready ≠ true := by simp [h.blocked]
  refine ⟨fun _ => h.unreleased, fun hr => absurd hr hnot, fun hr => absurd hr hnot,
    fun hr => absurd hr hnot, fun slot hslot => h.empty slot fun hmem => hslot ?_⟩
  obtain ⟨entry, hentry, rfl⟩ := List.mem_map.mp hmem
  exact List.mem_map_of_mem (hdone hentry)

theorem Filling.bootstraps (h : Filling image found done s) (h' : Filling image found done s')
    (hdone : done ⊆ vector.table) : Bootstraps vector image s s' := ⟨h.blocked, h'.table hdone⟩

/-! ## The real module -/

theorem Filling.load (h : Filling image found done s) (path : List UInt16) :
    Filling image found done { s with loaded := s.loaded ++ [path] } :=
  ⟨h.itself, h.blocked, h.unreleased, h.own, h.empty, h.filled⟩

/-- The guard lets no module through that is this image. -/
theorem Filling.isSelf (h : Filling image found done s) (hdone : done ⊆ vector.table)
    (module : UInt64) :
    Ensures Forwarding.act (Bootstraps vector image)
      (fun itself s' => Filling image found done s' ∧ (itself = false → module ≠ image))
      (Gate.isSelf module) s := by
  refine Ensures.ask fun a s₁ hact => ?_
  simp only [Forwarding.act] at hact
  split at hact
  · next hself =>
    cases hact
    refine ⟨h.bootstraps h hdone, h, fun hother himage => ?_⟩
    rw [Bool.or_eq_false_iff, beq_eq_false_iff_ne, beq_eq_false_iff_ne, hself] at hother
    rcases h.itself with hzero | hitself
    · exact hother.1 hzero
    · exact hother.2 (hitself.trans himage.symm)
  · cases hact

theorem Filling.loadSystem32Module (h : Filling image found done s) (hdone : done ⊆ vector.table)
    (name : String) :
    Ensures Forwarding.act (Bootstraps vector image)
      (fun module s' => Filling image found done s' ∧ (module ≠ 0 → module ≠ image))
      (Gate.loadSystem32Module name) s := by
  refine Ensures.ask fun directory s₁ hact => ?_
  cases hact
  refine ⟨h.bootstraps h hdone, ?_⟩
  split
  · exact .pure ⟨h, fun hne => absurd rfl hne⟩
  refine Ensures.ask fun module s₂ hact => ?_
  cases hact
  have hload := h.load (directory.buffer.take directory.length ++ [0x5c] ++ encodeAscii name ++ [0])
  refine ⟨h.bootstraps hload hdone, ?_⟩
  split
  · exact .pure ⟨hload, fun hne => absurd rfl hne⟩
  refine (hload.isSelf hdone module.address).bind fun itself s₃ hs => ?_
  obtain ⟨h₃, hother⟩ := hs
  cases itself with
  | true =>
    refine Ensures.ask fun _ s₄ hact => ?_
    cases hact
    exact ⟨h₃.bootstraps h₃ hdone, h₃, fun hne => absurd rfl hne⟩
  | false => exact .pure ⟨h₃, fun _ => hother rfl⟩

/-! ## The table -/

theorem Filling.resolve (h : Filling image found done s) (answer : UInt64 × Export × UInt64) :
    Filling image found done { s with resolved := s.resolved ++ [answer] } := by
  refine ⟨h.itself, h.blocked, h.unreleased, fun entry hentry => ?_, h.empty, h.filled⟩
  obtain ⟨module, hother, hmem⟩ := h.own entry hentry
  exact ⟨module, hother, List.mem_append_left _ hmem⟩

/-- The answer for one more entry is in its slot. -/
theorem Filling.entry (h : Filling image found done s) {slot : ProxyExport} {name : Export}
    (hfresh : slot ∉ done.map Prod.fst) {module : UInt64} (hmodule : module ≠ image)
    (address : UInt64) :
    Filling image found (done ++ [(slot, name)]) { s with
      resolved := s.resolved ++ [(module, name, address)]
      slots := fun other => if other = slot then address else s.slots other } := by
  have hother : ∀ {other}, other ≠ slot → (if other = slot then address else s.slots other) =
      s.slots other := fun hne => if_neg hne
  refine ⟨h.itself, h.blocked, h.unreleased, fun entry hentry => ?_, fun other hslot => ?_,
    fun entry hentry => ?_⟩
  · rcases List.mem_append.mp hentry with hold | hnew
    · obtain ⟨loaded, hloaded, hmem⟩ := h.own entry hold
      refine ⟨loaded, hloaded, List.mem_append_left _ ?_⟩
      have hne : entry.1 ≠ slot := fun heq => hfresh (heq ▸ List.mem_map_of_mem hold)
      show (loaded, entry.2, if entry.1 = slot then address else s.slots entry.1) ∈ s.resolved
      rw [hother hne]
      exact hmem
    · obtain rfl := List.mem_singleton.mp hnew
      refine ⟨module, hmodule, List.mem_append_right _ ?_⟩
      show (module, name, if slot = slot then address else _) ∈ [(module, name, address)]
      rw [if_pos rfl]
      exact List.mem_cons_self
  · rw [List.map_append, List.mem_append, not_or] at hslot
    have hne : other ≠ slot := fun heq => hslot.2 (List.mem_singleton.mpr heq)
    exact (hother hne).trans (h.empty other hslot.1)
  · have hne : entry.1 ≠ slot := fun heq => h.filled entry hentry (heq ▸ h.empty slot hfresh)
    show (if entry.1 = slot then address else s.slots entry.1) ≠ 0
    rw [hother hne]
    exact h.filled entry hentry

/-- One entry: its slot gets what is answered for its export, or stays empty. -/
theorem Filling.cacheExport (h : Filling image found done s) {slot : ProxyExport} {name : Export}
    (hdone : done ++ [(slot, name)] ⊆ vector.table) (hfresh : slot ∉ done.map Prod.fst)
    {module : UInt64} (hmodule : module ≠ image) :
    Ensures Forwarding.act (Bootstraps vector image)
      (fun cached s' => Filling image found (done ++ [(slot, name)]) s' ∧
        (cached = true → s'.slots slot ≠ 0))
      (Gate.cacheExport slot module name) s := by
  have hbefore : done ⊆ vector.table := fun entry hentry => hdone (List.mem_append_left _ hentry)
  refine Ensures.ask fun function s₁ hact => ?_
  cases hact
  have hentry : Filling image found (done ++ [(slot, name)]) { s with
      resolved := s.resolved ++ [(module, name, function.address)]
      slots := fun other => if other = slot then function.address else s.slots other } :=
    h.entry hfresh hmodule function.address
  have hresolve := h.resolve (module, name, function.address)
  refine ⟨h.bootstraps hresolve hbefore, ?_⟩
  split
  next hnull =>
    -- the slot is empty already
    have hslots : (fun other => if other = slot then function.address else s.slots other) =
        s.slots := by
      funext other
      split
      next heq => rw [heq, h.empty slot hfresh, hnull]
      next => rfl
    rw [hslots] at hentry
    exact .pure ⟨hentry, fun hcached => absurd hcached Bool.false_ne_true⟩
  next hsome =>
    refine Ensures.ask fun _ s₂ hact => ?_
    cases hact
    refine ⟨⟨h.blocked, hentry.table hdone⟩, hentry, fun _ => ?_⟩
    show (if slot = slot then function.address else _) ≠ 0
    rw [if_pos rfl]
    exact hsome

/-- The entries of a list, where none of their slots is done yet. -/
theorem Filling.cacheExports (h : Filling image found done s)
    {entries : List (ProxyExport × Export)} (hdone : done ++ entries ⊆ vector.table)
    (hfresh : ((done ++ entries).map Prod.fst).Nodup) {module : UInt64} (hmodule : module ≠ image) :
    Ensures Forwarding.act (Bootstraps vector image)
      (fun missing s' => ∃ more, Filling image more (done ++ entries) s' ∧ found ⊆ more ∧
        (missing = 0 → entries ⊆ more))
      (Gate.cacheExports module entries) s := by
  induction entries generalizing s found done with
  | nil =>
    rw [List.append_nil]
    exact .pure ⟨found, h, List.Subset.refl _, fun _ => List.nil_subset _⟩
  | cons entry entries ih =>
    have hcat : done ++ entry :: entries = done ++ [entry] ++ entries := by simp
    have hslot : entry.1 ∉ done.map Prod.fst := by
      rw [List.map_append, List.nodup_append] at hfresh
      intro hmem
      exact hfresh.2.2 entry.1 hmem entry.1 List.mem_cons_self rfl
    rw [hcat] at hdone hfresh ⊢
    refine (h.cacheExport (fun e he => hdone (List.mem_append_left _ he)) hslot hmodule).bind
      fun cached s₁ hs => ?_
    obtain ⟨h₁, hcached⟩ := hs
    cases cached with
    | false =>
      refine (ih h₁ hdone hfresh).bind fun missing s₂ hs => ?_
      obtain ⟨more, h₂, hmore, _⟩ := hs
      exact ⟨more, h₂, hmore, fun hzero => absurd hzero (Nat.succ_ne_zero missing)⟩
    | true =>
      have hfound : Filling image (entry :: found) (done ++ [entry]) s₁ :=
        ⟨h₁.itself, h₁.blocked, h₁.unreleased, h₁.own, h₁.empty,
          List.forall_mem_cons.mpr ⟨hcached rfl, h₁.filled⟩⟩
      refine (ih hfound hdone hfresh).bind fun missing s₂ hs => ?_
      obtain ⟨more, h₂, hmore, hall⟩ := hs
      refine ⟨more, h₂, fun e he => hmore (List.mem_cons_of_mem _ he), fun hzero => ?_⟩
      exact List.cons_subset.mpr ⟨hmore List.mem_cons_self, hall hzero⟩

/-! ## The whole -/

/-- What the resolution of the targets leaves: on success the required entries are found. -/
def Resolution (vector : ProxyVector) (image : UInt64) (ok : Bool) (s : Forwarding) : Prop :=
  ∃ found done, done ⊆ vector.table ∧ Filling image found done s ∧
    (ok = true → done = vector.table ∧ vector.required ⊆ found)

theorem table_nodup (vector : ProxyVector) : (vector.table.map Prod.fst).Nodup := by
  cases vector <;> decide

theorem Filling.resolveVector (h : Filling image [] [] s) (name : String) :
    Ensures Forwarding.act (Bootstraps vector image) (Resolution vector image)
      (Gate.resolveVector vector name) s := by
  refine (h.loadSystem32Module (List.nil_subset _) name).bind fun module s₁ hs => ?_
  obtain ⟨h₁, hmodule⟩ := hs
  split
  · exact .pure ⟨[], [], List.nil_subset _, h₁, fun hok => absurd hok Bool.false_ne_true⟩
  next hsome =>
  refine Ensures.ask fun _ s₂ hact => ?_
  cases hact
  have h₂ : Filling image [] [] { s₁ with
      realModule := fun other => if other = vector then module else s₁.realModule other } :=
    ⟨h₁.itself, h₁.blocked, h₁.unreleased, h₁.own, h₁.empty, h₁.filled⟩
  refine ⟨⟨h₁.blocked, h₂.table (List.nil_subset _)⟩, ?_⟩
  have hrequired : ([] ++ vector.required) ⊆ vector.table := List.subset_append_left _ _
  have hnodup : (([] ++ vector.required).map Prod.fst).Nodup := by
    have hall := table_nodup vector
    rw [ProxyVector.table, List.map_append, List.nodup_append] at hall
    exact hall.1
  refine (h₂.cacheExports hrequired hnodup (hmodule hsome)).bind fun missing s₃ hs => ?_
  obtain ⟨found, h₃, _, hfound⟩ := hs
  refine (h₃.cacheExports (List.Subset.refl _) (table_nodup vector) (hmodule hsome)).bind
    fun missingOptional s₄ hs => ?_
  obtain ⟨more, h₄, hmore, _⟩ := hs
  refine Ensures.ask fun _ s₅ hact => ?_
  cases hact
  have h₅ : Filling image more vector.table { s₄ with missing := (missing, missingOptional) } :=
    ⟨h₄.itself, h₄.blocked, h₄.unreleased, h₄.own, h₄.empty, h₄.filled⟩
  refine ⟨⟨h₄.blocked, h₅.table (List.Subset.refl _)⟩, more, vector.table, List.Subset.refl _, h₅,
    fun hok => ⟨rfl, fun e he => hmore (hfound (beq_iff_eq.mp hok) he)⟩⟩

theorem Filling.resolveTargets (h : Filling image [] [] s) :
    Ensures Forwarding.act (Bootstraps vector image) (Resolution vector image)
      (Gate.resolveTargets vector) s := by
  have hnone : Resolution vector image false s :=
    ⟨[], [], List.nil_subset _, h, fun hok => absurd hok Bool.false_ne_true⟩
  cases vector with
  | injected => exact .pure hnone
  | xinput14 => exact h.resolveVector "XInput1_4.dll"
  | dinput8 => exact h.resolveVector "dinput8.dll"
  | unknown => exact .pure hnone

/-- The whole closure, from an empty table. -/
theorem Filling.initializeForwarding (h : Filling image [] [] s) :
    Ensures Forwarding.act (Bootstraps vector image) (Initialized vector image)
      (Gate.initializeForwarding vector) s := by
  refine h.resolveTargets.bind fun ok s₁ hs => ?_
  obtain ⟨found, done, hdone, h₁, hok⟩ := hs
  cases ok with
  | false => exact .pure ⟨h₁.blocked, h₁.table hdone⟩
  | true =>
    obtain ⟨rfl, hfound⟩ := hok rfl
    refine Ensures.ask fun _ s₂ hact => ?_
    cases hact
    have htable : ForwardingTable vector image { s₁ with ready := true, releases := s₁.releases + 1 } := by
      refine ⟨fun hr => absurd hr.symm Bool.false_ne_true, fun _ => ?_,
        fun _ entry hentry => h₁.filled entry (hfound hentry), fun _ => h₁.own, h₁.empty⟩
      show s₁.releases + 1 = 1
      rw [h₁.unreleased]
    exact ⟨⟨h₁.blocked, htable⟩, rfl, htable⟩

theorem filling_initial {selfModule : UInt64} (hself : selfModule = 0 ∨ selfModule = image) :
    Filling image [] [] (.initial selfModule) :=
  ⟨hself, rfl, rfl, fun _ hentry => absurd hentry List.not_mem_nil, fun _ _ => rfl,
    fun _ hentry => absurd hentry List.not_mem_nil⟩

end

end Gate
end SteamInputLease
