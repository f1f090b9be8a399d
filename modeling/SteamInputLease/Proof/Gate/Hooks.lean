import SteamInputLease.Gate.Hooks

/-!
# What `install_hooks` guarantees

Until `MH_ApplyQueued` nothing is enabled and every created hook has its original published;
`Prepared` says so, with the detours that are queued. One lemma for each part of `install_hooks`
keeps it.

A hooked function that is entered before its trampoline is published would call null. MinHook's
queue makes it impossible, and the point of the invariant is that it holds between any two calls and
not just at the end, since Steam's threads run all the while: each part is given as what a run of it
shows of every moment (`Publishes`) and what it leaves (`Prepared`). A failure on the way goes to
`MH_Uninitialize`, which is called once and takes back no original, so that a thread that is in a
detour still finds its way out. Modules and exports that are optional may be missing, and then
nothing of them is queued.
-/

namespace SteamInputLease
namespace Gate

open Lib Lib.Program

/-- What a call may do to the slots while Steam runs: none is taken back, and what is enabled has
    its original. -/
structure Publishes (s s' : Hooking) : Prop where
  stays : ∀ d, s.slots d ≠ 0 → s'.slots d ≠ 0
  guarded : ∀ h ∈ s'.hooks, h.enabled = true → s'.slots h.detour ≠ 0

/-- MinHook runs and every hook has its original. -/
structure Running (s : Hooking) : Prop where
  started : s.initialized = true
  kept : s.uninitialized = 0
  published : ∀ h ∈ s.hooks, s.slots h.detour ≠ 0

/-- Nothing is enabled yet, and the detours of a list are queued. -/
structure Prepared (queued : List Detour) (s : Hooking) : Prop extends Running s where
  disabled : ∀ h ∈ s.hooks, h.enabled = false
  waiting : ∀ d ∈ queued, ∃ h ∈ s.hooks, h.detour = d ∧ h.queued = true

/-- What holds when `install_hooks` returns. -/
structure Finished (installed : Bool) (s : Hooking) : Prop where
  complete : installed = true → ∀ hook ∈ requiredHooks,
    ∃ h ∈ s.hooks, h.detour = hook.2.2 ∧ h.queued = true ∧ h.enabled = true
  undone : installed = false → s.initialized = true → s.uninitialized = 1

section

variable {s s' : Hooking} {queued : List Detour}

theorem Running.publishes (h : Running s') (hslots : ∀ d, s.slots d ≠ 0 → s'.slots d ≠ 0) :
    Publishes s s' := ⟨hslots, fun hook hmem _ => h.published hook hmem⟩

theorem Running.refl (h : Running s) : Publishes s s := h.publishes fun _ => id

/-- A call that changes nothing. -/
theorem Running.idle (h : Running s) {c : HookCall} (hact : ∀ a s', s.act c a = some s' → s' = s) :
    Ensures Hooking.act Publishes (fun _ s' => s' = s) (Program.ask c) s := by
  intro a s' ha
  obtain rfl := hact a s' ha
  exact ⟨h.refl, rfl⟩

theorem Running.procedure (h : Running s) (module : UInt64) (name : Export) :
    Ensures Hooking.act Publishes (fun _ s' => s' = s) (Gate.procedure module name) s := by
  have hact : ∀ a s', s.act (.getProcAddress module name) a = some s' → s' = s :=
    fun _ _ ha => (Option.some.inj ha).symm
  exact (h.idle hact).bind fun _ _ hs => .pure hs

/-! ## One hook -/

/-- A hook that was created, before its original is published. -/
theorem Prepared.created (h : Prepared queued s) (target : UInt64) (detour : Detour) :
    Publishes s { s with
      hooks := s.hooks ++ [{ target := target, detour := detour, queued := false, enabled := false }] } := by
  refine ⟨fun _ => id, fun hook hmem henabled => ?_⟩
  rcases List.mem_append.mp hmem with hold | hnew
  · rw [h.disabled hook hold] at henabled
    cases henabled
  · obtain rfl := List.mem_singleton.mp hnew
    cases henabled

/-- The original of the new hook is published, and no slot is emptied. -/
theorem Prepared.stored (h : Prepared queued s) {address : UInt64} (haddress : address ≠ 0)
    (target : UInt64) (detour : Detour) :
    Prepared queued { s with
      hooks := s.hooks ++ [{ target := target, detour := detour, queued := false, enabled := false }]
      slots := fun other => if other = detour then address else s.slots other } := by
  have hslot : ∀ d, s.slots d ≠ 0 → (if d = detour then address else s.slots d) ≠ 0 := by
    intro d hd
    split
    · exact haddress
    · exact hd
  refine ⟨⟨h.started, h.kept, ?_⟩, ?_, ?_⟩
  · intro hook hmem
    rcases List.mem_append.mp hmem with hold | hnew
    · exact hslot _ (h.published hook hold)
    · obtain rfl := List.mem_singleton.mp hnew
      show (if detour = detour then address else _) ≠ 0
      rw [if_pos rfl]
      exact haddress
  · intro hook hmem
    rcases List.mem_append.mp hmem with hold | hnew
    · exact h.disabled hook hold
    · obtain rfl := List.mem_singleton.mp hnew
      rfl
  · intro d hd
    obtain ⟨hook, hmem, hook_d, hq⟩ := h.waiting d hd
    exact ⟨hook, List.mem_append_left _ hmem, hook_d, hq⟩

/-- What is queued stays queued. -/
theorem Prepared.queue (h : Prepared queued s) (target : UInt64) :
    Prepared queued { s with
      hooks := s.hooks.map fun hook => { hook with queued := hook.queued || hook.target == target } } := by
  refine ⟨⟨h.started, h.kept, ?_⟩, ?_, ?_⟩
  · intro hook hmem
    obtain ⟨old, hold, rfl⟩ := List.mem_map.mp hmem
    exact h.published old hold
  · intro hook hmem
    obtain ⟨old, hold, rfl⟩ := List.mem_map.mp hmem
    exact h.disabled old hold
  · intro d hd
    obtain ⟨hook, hmem, hook_d, hq⟩ := h.waiting d hd
    refine ⟨_, List.mem_map_of_mem hmem, hook_d, ?_⟩
    show (hook.queued || _) = true
    rw [hq, Bool.true_or]

/-- `queue_hook` leaves what is prepared, and a required detour is queued where it succeeds. -/
theorem Prepared.queueHook (h : Prepared queued s) (target : UInt64) (detour : Detour)
    (required : Bool) :
    Ensures Hooking.act Publishes
      (fun ok s' => Prepared queued s' ∧
        (ok = true → required = true → Prepared (detour :: queued) s'))
      (Gate.queueHook target detour required) s := by
  rw [Gate.queueHook]
  split
  · refine ⟨h, fun hok hrequired => ?_⟩
    rw [hrequired] at hok
    cases hok
  refine Ensures.ask fun created s₁ hact => ?_
  cases hok : created.ok with
  | false =>
    simp only [Hooking.act, hok, Bool.not_false, if_true, Option.some.injEq] at hact
    subst hact
    refine ⟨h.refl, h, fun hret hrequired => ?_⟩
    rw [hrequired] at hret
    cases hret
  | true =>
    simp only [Hooking.act, hok, Bool.not_true, Bool.false_eq_true, if_false] at hact
    split at hact
    · cases hact
    next haddress =>
    cases hact
    -- the trampoline is published before the hook is queued
    have hstored := h.stored haddress target detour
    refine ⟨h.created target detour, Ensures.ask fun _ s₂ hact => ?_⟩
    cases hact
    refine ⟨hstored.publishes fun d hd => ?_, Ensures.ask fun queue s₃ hact => ?_⟩
    · show (if d = detour then created.address else s.slots d) ≠ 0
      split
      · exact haddress
      · exact hd
    cases hq : queue.ok with
    | false =>
      simp only [Hooking.act, hq, Bool.not_false, if_true, Option.some.injEq] at hact
      subst hact
      exact ⟨hstored.refl, hstored, fun hret => absurd hret Bool.false_ne_true⟩
    | true =>
      simp only [Hooking.act, hq, Bool.not_true, Bool.false_eq_true, if_false,
        Option.some.injEq] at hact
      subst hact
      have hqueue := hstored.queue target
      refine ⟨hqueue.publishes fun _ => id, hqueue, fun _ _ => ⟨hqueue.toRunning, hqueue.disabled, ?_⟩⟩
      intro d hd
      rcases List.mem_cons.mp hd with rfl | hd
      · refine ⟨_, List.mem_map_of_mem (List.mem_append_right _ List.mem_cons_self), rfl, ?_⟩
        show (false || target == target) = true
        rw [beq_self_eq_true, Bool.or_true]
      · exact hqueue.waiting d hd

/-! ## The loops -/

theorem Prepared.queueOptional (h : Prepared queued s) (module : UInt64)
    (hooks : List (Export × Detour)) :
    Ensures Hooking.act Publishes (fun _ s' => Prepared queued s')
      (Gate.queueOptional module hooks) s := by
  induction hooks generalizing s with
  | nil => exact .pure h
  | cons hook hooks ih =>
    refine (h.procedure module hook.1).bind fun target s₁ hs => ?_
    subst hs
    exact (h.queueHook target hook.2 false).bind fun _ s₂ h₂ => ih h₂.1

theorem Prepared.installXinputModule (h : Prepared queued s) (index : Fin 5) (name : String) :
    Ensures Hooking.act Publishes (fun _ s' => Prepared queued s')
      (Gate.installXinputModule index name) s := by
  refine Ensures.ask fun module s₁ hact => ?_
  cases hact
  refine ⟨h.refl, ?_⟩
  split
  · exact .pure h
  · exact h.queueOptional module.address (xinputHooks index)

theorem Prepared.installXinputModules (h : Prepared queued s) (modules : List (Fin 5 × String)) :
    Ensures Hooking.act Publishes (fun _ s' => Prepared queued s')
      (Gate.installXinputModules modules) s := by
  induction modules generalizing s with
  | nil => exact .pure h
  | cons module modules ih =>
    exact (h.installXinputModule module.1 module.2).bind fun _ s₁ h₁ => ih h₁

/-- Where all succeeded, all are queued. -/
theorem Prepared.queueRequired (h : Prepared queued s) (module : Library → UInt64)
    (hooks : List (Library × String × Detour)) (success : Bool) :
    Ensures Hooking.act Publishes
      (fun ok s' => ∃ more, Prepared more s' ∧ (ok = true → success = true ∧
        (∀ d ∈ queued, d ∈ more) ∧ ∀ hook ∈ hooks, hook.2.2 ∈ more))
      (Gate.queueRequired module hooks success) s := by
  induction hooks generalizing s queued success with
  | nil =>
    exact .pure ⟨queued, h, fun hok => ⟨hok, fun _ => id, fun _ hmem => absurd hmem List.not_mem_nil⟩⟩
  | cons hook hooks ih =>
    refine (h.procedure (module hook.1) (.name hook.2.1)).bind fun target s₁ hs => ?_
    subst hs
    refine (h.queueHook target hook.2.2 true).bind fun ok s₂ h₂ => ?_
    cases ok with
    | false =>
      refine (ih h₂.1 (success && false)).imp fun ret s₃ h₃ => ?_
      obtain ⟨more, hmore, hret⟩ := h₃
      refine ⟨more, hmore, fun hok => ?_⟩
      rw [Bool.and_false] at hret
      exact absurd (hret hok).1 Bool.false_ne_true
    | true =>
      refine (ih (h₂.2 rfl rfl) (success && true)).imp fun ret s₃ h₃ => ?_
      obtain ⟨more, hmore, hret⟩ := h₃
      refine ⟨more, hmore, fun hok => ?_⟩
      obtain ⟨hsuccess, hqueued, hrest⟩ := hret hok
      rw [Bool.and_true] at hsuccess
      refine ⟨hsuccess, fun d hd => hqueued d (List.mem_cons_of_mem _ hd), fun hook' hmem => ?_⟩
      rcases List.mem_cons.mp hmem with rfl | hmem
      · exact hqueued _ List.mem_cons_self
      · exact hrest hook' hmem

/-! ## The whole -/

/-- `MH_Uninitialize` takes no original back, and it is called once. -/
theorem Running.abandon (h : Running s) :
    Ensures Hooking.act Publishes Finished Gate.abandon s := by
  refine Ensures.ask fun a s₁ hact => ?_
  cases hact
  refine ⟨⟨fun _ => id, ?_⟩, fun hret => absurd hret Bool.false_ne_true, fun _ _ => ?_⟩
  · intro hook hmem _
    dsimp only at hmem
    split at hmem
    · exact absurd hmem List.not_mem_nil
    · obtain ⟨old, hold, rfl⟩ := List.mem_map.mp hmem
      exact h.published old hold
  · show s.uninitialized + 1 = 1
    rw [h.kept]

/-- What is queued is applied. -/
theorem Prepared.applyHooks (h : Prepared queued s)
    (hall : ∀ hook ∈ requiredHooks, hook.2.2 ∈ queued) :
    Ensures Hooking.act Publishes Finished Gate.applyHooks s := by
  refine (h.installXinputModules xinputModules).bind fun _ s₁ h₁ => ?_
  refine Ensures.ask fun a s₂ hact => ?_
  cases hact
  have hrunning : Running { s₁ with hooks := s₁.hooks.map fun h =>
      { h with enabled := h.enabled || (h.queued && (a.ok || a.enabled.contains h.target)) } } := by
    refine ⟨h₁.started, h₁.kept, fun hook hmem => ?_⟩
    obtain ⟨old, hold, rfl⟩ := List.mem_map.mp hmem
    exact h₁.published old hold
  refine ⟨hrunning.publishes fun _ => id, ?_⟩
  cases hok : a.ok with
  | false => exact (hok ▸ hrunning).abandon
  | true =>
    refine .pure ⟨fun _ hook hmem => ?_, fun hret => absurd hret.symm Bool.false_ne_true⟩
    obtain ⟨old, hold, hold_d, hq⟩ := h₁.waiting _ (hall hook hmem)
    refine ⟨_, List.mem_map_of_mem hold, hold_d, hq, ?_⟩
    show (old.enabled || (old.queued && (true || _))) = true
    rw [hq, Bool.true_or, Bool.and_true, Bool.or_true]

theorem Prepared.withQueries (h : Prepared queued s) (queries : NativeQuery → UInt64) :
    Prepared queued { s with queries := queries } :=
  ⟨⟨h.started, h.kept, h.published⟩, h.disabled, h.waiting⟩

/-- One query is resolved and stored. -/
theorem Prepared.resolveQuery (h : Prepared queued s) (ntdll : UInt64) (name : Export)
    (query : NativeQuery) {f : Installing Bool}
    (hf : ∀ s', Prepared queued s' →
      Ensures Hooking.act Publishes (fun _ s' => Prepared queued s') f s') :
    Ensures Hooking.act Publishes (fun _ s' => Prepared queued s')
      (do
        let address ← Gate.procedure ntdll name
        let _ ← Program.ask (.storeQuery query address)
        f) s := by
  refine (h.procedure ntdll name).bind fun address s₁ hs => ?_
  subst hs
  refine Ensures.ask fun _ s₂ hact => ?_
  cases hact
  exact ⟨(h.withQueries _).publishes fun _ => id, hf _ (h.withQueries _)⟩

theorem Prepared.loadQuery (h : Prepared queued s) (query : NativeQuery) :
    Ensures Hooking.act Publishes (fun _ s' => s' = s) (Program.ask (.loadQuery query)) s := by
  refine h.idle fun a s' hact => ?_
  simp only [Hooking.act] at hact
  split at hact
  · exact (Option.some.inj hact).symm
  · cases hact

theorem Prepared.resolveQueries (h : Prepared queued s) (ntdll : UInt64) :
    Ensures Hooking.act Publishes (fun _ s' => Prepared queued s')
      (Gate.resolveQueries ntdll) s := by
  refine h.resolveQuery ntdll _ _ fun s₁ h₁ => ?_
  refine h₁.resolveQuery ntdll _ _ fun s₂ h₂ => ?_
  refine h₂.resolveQuery ntdll _ _ fun s₃ h₃ => ?_
  refine (h₃.loadQuery .systemInformation).bind fun stored s₄ hs => ?_
  subst hs
  split
  · exact .pure h₃
  · refine (h₃.loadQuery .object).bind fun stored s₅ hs => ?_
    subst hs
    exact .pure h₃

/-- `install_hooks`, from the state the payload starts with. -/
theorem installHooks_ensures :
    Ensures Hooking.act Publishes Finished installHooks .initial := by
  refine Ensures.ask fun a s₁ hact => ?_
  cases hact
  have hnone : ∀ hook, hook ∉ Hooking.initial.hooks := fun _ => List.not_mem_nil
  refine ⟨⟨fun _ => id, fun hook hmem _ => absurd hmem (hnone hook)⟩, ?_⟩
  cases hok : a.ok with
  | false =>
    exact .pure ⟨fun hret => absurd hret Bool.false_ne_true,
      fun _ hstarted => absurd hstarted Bool.false_ne_true⟩
  | true =>
    have hprepared : Prepared [] { Hooking.initial with initialized := true } :=
      ⟨⟨rfl, rfl, fun hook hmem => absurd hmem (hnone hook)⟩,
        fun hook hmem => absurd hmem (hnone hook), fun _ hd => absurd hd List.not_mem_nil⟩
    show Ensures Hooking.act Publishes Finished (Program.ask _ >>= _)
      { Hooking.initial with initialized := true }
    refine Ensures.ask fun kernel32 s₂ hact => ?_
    cases hact
    refine ⟨hprepared.refl, Ensures.ask fun ntdll s₃ hact => ?_⟩
    cases hact
    refine ⟨hprepared.refl, ?_⟩
    split
    · exact hprepared.abandon
    refine (hprepared.resolveQueries ntdll.address).bind fun resolved s₄ h₄ => ?_
    cases resolved with
    | false => exact h₄.abandon
    | true =>
      refine (h₄.queueRequired _ requiredHooks true).bind fun success s₅ h₅ => ?_
      obtain ⟨more, hmore, hall⟩ := h₅
      cases success with
      | false => exact hmore.abandon
      | true => exact hmore.applyHooks (hall rfl).2.2

end

end Gate
end SteamInputLease
