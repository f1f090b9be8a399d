import SteamInputLease.Gate.SteamThread

/-!
# The detours on a thread of Steam

The code of a detour runs in a frame of its own, and what it calls may run other detours above it.
`Proceeds` is what such code does to its frame, whatever happens above; from the rules for it each
detour is found gated. Then the induction is on how deep calls may nest: if the detours are gated
when called `n` deep, so is what is called behind a call.

A detour returns in the middle of another one's call, so "gated" cannot be said of a whole run
alone. `Runs` has two parts for that: in each moment of the run the thread is sound, every detour
that has returned by then being gated, and at its end `Q` holds. `Proceeds` fixes a frame in the
middle of a stack and lets everything above it come and go; `Controls` says the same of a call that
hands the thread to other code, and is all that a detour may assume of it. The flag of the probe is
the one thing that reaches from one frame into another. `Stacked` ties it to the stack: a frame
knows whether there is a probe below it, and no probe is begun inside a probe, which is why a
probe's own I/O is let through and never looked into.
-/

namespace SteamInputLease
namespace Gate

open Lib Program

/-! ## The stack -/

/-- A probe is not begun inside a probe, and a frame knows whether it is inside one. -/
def Stacked : List Activity → Prop
  | [] => True
  | .detour f :: rest => f.probing = rest.any Activity.isProbe ∧ Stacked rest
  | .foreign c :: rest => (c.isProbe = true → rest.any Activity.isProbe = false) ∧ Stacked rest

/-- So no two probes are under way at once. -/
theorem Stacked.countP_le {stack : List Activity} (h : Stacked stack) :
    stack.countP Activity.isProbe ≤ 1 := by
  induction stack with
  | nil => exact Nat.zero_le _
  | cons activity rest ih =>
    cases activity with
    | detour f => simpa [List.countP_cons, Activity.isProbe] using ih h.2
    | foreign c =>
      cases hc : c.isProbe with
      | false => simpa [List.countP_cons, Activity.isProbe, hc] using ih h.2
      | true =>
        have hrest : rest.countP Activity.isProbe = 0 := by
          rw [List.countP_eq_zero]
          exact List.any_eq_false.mp (h.1 hc)
        simp [Activity.isProbe, hc, hrest]

structure Sound (w : Watch) : Prop where
  gated : ∀ e ∈ w.done, Gated e.1 e.2
  stacked : Stacked w.stack

/-! ## Rules -/

section

variable {α β : Type} {x : Detouring α} {f : α → Detouring β} {probing : Bool} {w : Watch}
  {Q : α → Bool → Watch → Prop} {R : β → Bool → Watch → Prop}

/-- The thread stays sound in each moment of every run, and `Q` holds where it comes to the end. -/
def Runs (x : Detouring α) (probing : Bool) (w : Watch) (Q : α → Bool → Watch → Prop) : Prop :=
  (x.run.run probing).Yields fun log r =>
    (∀ k, Sound ((log.take k).foldl Watch.next w)) ∧
      ∀ a, r.1 = some a → Q a r.2 (log.foldl Watch.next w)

theorem Runs.pure {a : α} (hw : Sound w) (h : Q a probing w) : Runs (pure a) probing w Q := by
  refine ⟨fun k => by simpa using hw, fun b hb => ?_⟩
  obtain rfl : a = b := by simpa using hb
  exact h

theorem Runs.failure (hw : Sound w) : Runs failure probing w Q :=
  ⟨fun k => by simpa using hw, fun _ h => by cases h⟩

theorem Runs.issue {c : DetourCall} {f : DetourAnswer → Detouring β} (hw : Sound w)
    (h : ∀ a, Runs (f a) probing (w.next (c, a)) R) : Runs (issue c >>= f) probing w R := by
  refine Yields.ask fun a => (h a).imp fun log r hlog => ⟨fun k => ?_, hlog.2⟩
  cases k with
  | zero => exact hw
  | succ k => exact hlog.1 k

/-- The moments of both parts are those of the whole. -/
theorem Runs.bind (hx : Runs x probing w Q)
    (hf : ∀ a p w', Sound w' → Q a p w' → Runs (f a) p w' R) : Runs (x >>= f) probing w R := by
  refine Yields.bind hx fun log r hlog => ?_
  have hend : Sound (log.foldl Watch.next w) := by
    have := hlog.1 log.length
    rwa [List.take_length] at this
  obtain ⟨a, p⟩ := r
  have hbefore : ∀ (rest : List (DetourCall × DetourAnswer)),
      (∀ k, Sound ((rest.take k).foldl Watch.next (log.foldl Watch.next w))) →
      ∀ k, Sound (((log ++ rest).take k).foldl Watch.next w) := by
    intro rest hrest k
    rw [List.take_append, List.foldl_append]
    rcases Nat.le_total k log.length with hk | hk
    · simpa [Nat.sub_eq_zero_of_le hk] using hlog.1 k
    · rw [List.take_of_length_le hk]
      exact hrest _
  cases a with
  | none =>
    refine ⟨hbefore [] fun k => by simpa using hend, fun b hb => by cases hb⟩
  | some a =>
    refine (hf a p _ hend (hlog.2 a rfl)).imp fun rest r hrest => ?_
    refine ⟨hbefore rest hrest.1, fun b hb => ?_⟩
    rw [List.foldl_append]
    exact hrest.2 b hb

theorem Runs.imp {Q' : α → Bool → Watch → Prop} (hx : Runs x probing w Q)
    (h : ∀ a p w', Q a p w' → Q' a p w') : Runs x probing w Q' :=
  Yields.imp hx fun _ _ hlog => ⟨hlog.1, fun a ha => h a _ _ (hlog.2 a ha)⟩

/-- The flag is put back behind a probe. -/
theorem Runs.probeGuard (hx : Runs x true w fun a _ w' => Q a probing w') :
    Runs (probeGuard x) probing w Q :=
  hx.bind (f := fun a => do set probing; Pure.pure a) fun _ _ _ hw' h => .pure hw' h

end

/-! ## A frame -/

section

variable {α β : Type} {x : Detouring α} {f : α → Detouring β} {request : Intercepted}
  {probing : Bool} {rest : List Activity}

/-- `x` runs in a frame, and what it adds to the frame satisfies `P`, whatever happens above the
    frame. -/
def Proceeds (request : Intercepted) (probing : Bool) (rest : List Activity) (x : Detouring α)
    (P : α → List (DetourCall × DetourAnswer) → Prop) : Prop :=
  ∀ own done, Sound ⟨.detour ⟨request, probing, own⟩ :: rest, done⟩ →
    Runs x probing ⟨.detour ⟨request, probing, own⟩ :: rest, done⟩ fun a p w =>
      p = probing ∧ ∃ more done', w = ⟨.detour ⟨request, probing, own ++ more⟩ :: rest, done'⟩ ∧
        P a more

variable {P P' : α → List (DetourCall × DetourAnswer) → Prop}
  {R : β → List (DetourCall × DetourAnswer) → Prop}

theorem Proceeds.pure {a : α} (h : P a []) : Proceeds request probing rest (pure a) P :=
  fun own done hw => .pure hw ⟨rfl, [], done, by rw [List.append_nil], h⟩

theorem Proceeds.failure : Proceeds request probing rest failure P := fun _ _ hw => .failure hw

theorem Proceeds.imp (hx : Proceeds request probing rest x P) (h : ∀ a more, P a more → P' a more) :
    Proceeds request probing rest x P' := by
  refine fun own done hw => (hx own done hw).imp fun a p w hrun => ?_
  obtain ⟨hp, more, done', hw', ha⟩ := hrun
  exact ⟨hp, more, done', hw', h a more ha⟩

/-- What a frame is given by two parts, one behind the other. -/
theorem Proceeds.bind (hx : Proceeds request probing rest x P)
    (hf : ∀ a more, P a more →
      Proceeds request probing rest (f a) fun b after => R b (more ++ after)) :
    Proceeds request probing rest (x >>= f) R := by
  refine fun own done hw => (hx own done hw).bind fun a p w hw' hrun => ?_
  obtain ⟨rfl, more, done', rfl, ha⟩ := hrun
  refine (hf a more ha (own ++ more) done' hw').imp fun b p w hrun => ?_
  obtain ⟨hp, after, done'', rfl, hb⟩ := hrun
  exact ⟨hp, more ++ after, done'', by rw [List.append_assoc], hb⟩

theorem Proceeds.get {f : Bool → Detouring β} (h : Proceeds request probing rest (f probing) R) :
    Proceeds request probing rest (get >>= f) R := h

/-- A call that other code of the thread is not behind. -/
theorem Proceeds.issue {c : DetourCall} {f : DetourAnswer → Detouring β} (hc : c.foreign = false)
    (h : ∀ a, Proceeds request probing rest (f a) fun b after => R b ((c, a) :: after)) :
    Proceeds request probing rest (issue c >>= f) R := by
  intro own done hw
  refine .issue hw fun a => ?_
  rw [show Watch.next _ (c, a) = ⟨.detour ⟨request, probing, own ++ [(c, a)]⟩ :: rest, done⟩ by
    simp [Watch.next, hc, Watch.note]]
  refine (h a (own ++ [(c, a)]) done ⟨hw.gated, hw.stacked⟩).imp fun b p w hrun => ?_
  obtain ⟨hp, after, done', rfl, hb⟩ := hrun
  exact ⟨hp, (c, a) :: after, done', by rw [List.append_assoc]; rfl, hb⟩

end

/-- The calls of other code, as a frame sees them. -/
structure Controls (control : DetourCall → Detouring DetourAnswer) : Prop where
  original : ∀ call request probing rest, Proceeds request probing rest (control (.original call))
    fun a own => own = [(.original call, a)]
  probe : ∀ handle request rest, Proceeds request false rest
    (probeGuard (control (.hidDGetAttributes handle)))
    fun a own => own = [(.hidDGetAttributes handle, a)]

/-! ## Looking into a handle -/

/-- A call of neither the caller's concern nor the gate's. -/
def DetourCall.Inner (c : DetourCall) : Prop :=
  c.isOriginal = false ∧ c.tells = false ∧ c ≠ .blocking

/-- A question about a handle. -/
def DetourCall.asks : DetourCall → Bool
  | .lookupHandle _ | .ntQueryObject _ | .getFileType _ | .getLastError | .hidDGetAttributes _ =>
    true
  | .setLastError code => code == errorSuccess
  | _ => false

theorem DetourCall.inner_of_asks {c : DetourCall} (h : c.asks = true) :
    c.Inner ∧ ∀ handle d, c ≠ .rememberHandle handle d := by
  cases c with
  | setLastError code =>
    have hcode : code = errorSuccess := beq_iff_eq.mp h
    simp [DetourCall.Inner, DetourCall.isOriginal, DetourCall.tells, hcode]
  | _ => first | exact absurd h Bool.false_ne_true | exact ⟨⟨rfl, rfl, by simp⟩, by simp⟩

def Asks (own : List (DetourCall × DetourAnswer)) : Prop := ∀ e ∈ own, e.1.asks = true

theorem Asks.nil : Asks [] := List.forall_mem_nil _

theorem Asks.cons {c : DetourCall} {a : DetourAnswer} {own : List (DetourCall × DetourAnswer)}
    (hc : c.asks = true) (h : Asks own) : Asks ((c, a) :: own) := List.forall_mem_cons.mpr ⟨hc, h⟩

theorem Asks.append {own more : List (DetourCall × DetourAnswer)} (h : Asks own)
    (hm : Asks more) : Asks (own ++ more) := fun e he =>
  (List.mem_append.mp he).elim (h e) (hm e)

/-- The class of a handle, by what was asked. -/
structure Classified (own : List (DetourCall × DetourAnswer)) (classification : HandleClass) :
    Prop where
  inner : ∀ e ∈ own, e.1.Inner
  /-- By fitting answers. -/
  fits : ∀ hid, (∀ e ∈ own, e.1.Fits hid e.2) →
    classification = (if hid then .hid else .other) ∧
      ∀ handle c, .rememberHandle handle c ∈ own.map Prod.fst → c = classification

section

variable {control : DetourCall → Detouring DetourAnswer} {request : Intercepted} {probing : Bool}
  {rest : List Activity}

theorem probeRefuses_proceeds (handle : UInt64) :
    Proceeds request probing rest (probeRefuses handle) fun refused own =>
      Asks own ∧ ∀ hid, (∀ e ∈ own, e.1.Fits hid e.2) → refused = true → hid = false := by
  refine .issue rfl fun _ => .issue rfl fun a => ?_
  split
  case isTrue h =>
    refine .pure ⟨.cons rfl (.cons rfl .nil), ?_⟩
    intro hid hfits _
    have := hfits _ (by simp : (DetourCall.getFileType handle, a) ∈ _)
    cases hid with
    | false => rfl
    | true => exact absurd h (not_or.mpr (this rfl))
  case isFalse h =>
    split
    · refine .issue rfl fun last => .pure ⟨.cons rfl (.cons rfl (.cons rfl .nil)), ?_⟩
      intro hid hfits hlast
      have := hfits _ (by simp : (DetourCall.getLastError, last) ∈ _)
      cases hid with
      | false => rfl
      | true => exact absurd (this rfl) (by simpa using hlast)
    · exact .pure ⟨.cons rfl (.cons rfl .nil), fun _ _ h => by cases h⟩

theorem probeFile_proceeds (hcontrol : Controls control) (handle : UInt64) :
    Proceeds request false rest (probeFile control handle) fun classification own =>
      Asks own ∧
        ∀ hid, (∀ e ∈ own, e.1.Fits hid e.2) → classification = if hid then .hid else .other := by
  refine (probeRefuses_proceeds handle).bind fun refused own h => ?_
  obtain ⟨hasks, hfits⟩ := h
  split
  next hrefused =>
    refine .pure ⟨hasks.append .nil, fun hid hall => ?_⟩
    rw [hfits hid (by rwa [List.append_nil] at hall) hrefused]
    rfl
  · refine (hcontrol.probe handle request rest).bind fun a more hmore => .pure ?_
    subst hmore
    refine ⟨hasks.append (.append (.cons rfl .nil) .nil), fun hid hall => ?_⟩
    rw [show a.isHid = hid from hall (.hidDGetAttributes handle, a) (by simp)]

theorem probeHandle_proceeds (hcontrol : Controls control) (handle : UInt64) :
    Proceeds request false rest (probeHandle control handle) fun classification own =>
      Asks own ∧
        ∀ hid, (∀ e ∈ own, e.1.Fits hid e.2) → classification = if hid then .hid else .other := by
  refine .issue rfl fun a => ?_
  split
  next hfile =>
    refine .pure ⟨.cons rfl .nil, ?_⟩
    intro hid hall
    have := hall (.ntQueryObject handle, a) (by simp)
    cases hid with
    | false => rfl
    | true => simp [this rfl] at hfile
  · refine (probeFile_proceeds hcontrol handle).imp fun classification own h => ?_
    exact ⟨.cons rfl h.1, fun hid hall => h.2 hid (List.forall_mem_cons.mp hall).2⟩

theorem classifyHandle_proceeds (hcontrol : Controls control) (handle : UInt64) :
    Proceeds request false rest (classifyHandle control handle) fun classification own =>
      Classified own classification := by
  have hlookup : (DetourCall.lookupHandle handle).Inner := (DetourCall.inner_of_asks rfl).1
  refine .issue rfl fun a => ?_
  split
  next hknown =>
    refine .pure ⟨by simpa using hlookup, fun hid hall => ⟨?_, by simp⟩⟩
    exact (hall (.lookupHandle handle, a) (by simp)).resolve_left hknown
  · refine (probeHandle_proceeds hcontrol handle).bind fun classification own h => ?_
    refine .issue rfl fun b => .pure ⟨?_, fun hid hall => ⟨?_, ?_⟩⟩
    · simp only [List.mem_cons, List.mem_append, List.not_mem_nil, or_false]
      rintro e (rfl | he | rfl)
      · exact hlookup
      · exact (DetourCall.inner_of_asks (h.1 e he)).1
      · exact ⟨rfl, rfl, by simp⟩
    · exact h.2 hid fun e he => hall e (by simp [he])
    · intro h' c hc
      simp only [List.map_cons, List.map_append, List.mem_cons, List.mem_append, List.map_nil,
        List.not_mem_nil, or_false, reduceCtorEq, false_or] at hc
      rcases hc with hc | hc
      · obtain ⟨e, he, hec⟩ := List.mem_map.mp hc
        exact absurd hec ((DetourCall.inner_of_asks (h.1 e he)).2 h' c)
      · cases hc
        rfl

/-- What `should_deny` found. -/
structure Judged (probing : Bool) (own : List (DetourCall × DetourAnswer)) (deny : Bool) :
    Prop where
  inner : ∀ e ∈ own, e.1.isOriginal = false ∧ e.1.tells = false
  denies : deny = true → (own.any fun e => e.1 == .blocking && e.2.blocking) = true ∧
    probing = false
  apart : probing = true → ∀ e ∈ own, e.1 = .blocking
  fits : ∀ hid, (∀ e ∈ own, e.1.Fits hid e.2) →
    ((own.any fun e => e.1 == .blocking && e.2.blocking) = true → probing = false → deny = hid) ∧
      ∀ handle c, .rememberHandle handle c ∈ own.map Prod.fst → c = if hid then .hid else .other

/-- Denied means that blocking was seen, outside a probe, for a handle that is found to be HID. -/
theorem shouldDeny_proceeds (hcontrol : Controls control) (handle : UInt64) :
    Proceeds request probing rest (shouldDeny control handle) fun deny own =>
      Judged probing own deny := by
  refine .issue rfl fun a => ?_
  split
  next hopen =>
    have hopen : a.blocking = false := by simpa using hopen
    refine .pure ⟨?_, ?_, ?_, ?_⟩ <;> simp [DetourCall.isOriginal, DetourCall.tells, hopen]
  next hblocking =>
    have hblocking : a.blocking = true := by simpa using hblocking
    refine .get ?_
    cases probing with
    | true => refine .pure ⟨?_, ?_, ?_, ?_⟩ <;> simp [DetourCall.isOriginal, DetourCall.tells]
    | false =>
      refine (classifyHandle_proceeds hcontrol handle).bind fun classification own h => .pure ?_
      rw [List.append_nil]
      refine ⟨?_, fun _ => ⟨by simp [hblocking], rfl⟩, (fun h => by cases h),
        fun hid hall => ?_⟩
      · refine List.forall_mem_cons.mpr ⟨⟨rfl, rfl⟩, fun e he => ?_⟩
        exact ⟨(h.inner e he).1, (h.inner e he).2.1⟩
      · obtain ⟨hclass, hremember⟩ := h.fits hid (List.forall_mem_cons.mp hall).2
        refine ⟨fun _ _ => ?_, fun handle c hc => ?_⟩
        · rw [hclass]
          cases hid <;> rfl
        · rw [← hclass]
          exact hremember handle c (by simpa using hc)

end

/-! ## Denied or let through -/

theorem Intercepted.told_tells {request : Intercepted} {c : DetourCall} (h : c ∈ request.told) :
    c.isOriginal = false ∧ c.tells = true ∧ ∀ handle d, c ≠ .rememberHandle handle d := by
  cases request <;> simp only [Intercepted.told, List.mem_append, List.not_mem_nil,
    List.mem_singleton] at h
  case createFileW | createFileA | createFile2 => subst h; exact ⟨rfl, rfl, by simp⟩
  case ntOpen =>
    rcases h with h | h <;> split at h <;> simp only [List.not_mem_nil, List.mem_singleton] at h <;>
      subst h <;> exact ⟨rfl, rfl, by simp⟩
  case io =>
    rcases h with h | h <;> split at h <;> simp only [List.not_mem_nil, List.mem_singleton] at h <;>
      subst h <;> exact ⟨rfl, rfl, by simp⟩

section

variable {request : Intercepted} {probing : Bool} {before after : List (DetourCall × DetourAnswer)}
  {r : Returned}

/-- Only `before` was asked, and then the call was denied. -/
theorem Gated.of_denied (hbefore : ∀ e ∈ before, e.1.isOriginal = false ∧ e.1.tells = false)
    (hafter : after.map Prod.fst = request.told) (hr : r = request.denial)
    (hblock : Frame.sawBlock ⟨request, probing, before⟩ = true)
    (hprobing : request.isIo = true → probing = false)
    (hclose : ∀ handle, request ≠ .ntClose handle)
    (habout : ∀ hid, Frame.About ⟨request, probing, before ++ after⟩ hid → hid = true ∧
      ∀ handle c, .rememberHandle handle c ∈ before.map Prod.fst →
        c = if hid then .hid else .other) :
    Gated ⟨request, probing, before ++ after⟩ r := by
  have htold : ∀ e ∈ after, e.1.isOriginal = false ∧ e.1.tells = true ∧
      ∀ handle d, e.1 ≠ .rememberHandle handle d := fun e he =>
    Intercepted.told_tells (hafter ▸ List.mem_map_of_mem he)
  have horiginals : Frame.originals ⟨request, probing, before ++ after⟩ = [] := by
    refine List.filter_eq_nil_iff.mpr fun e he => ?_
    rcases List.mem_append.mp he with he | he
    · simp [(hbefore e he).1]
    · simp [(htold e he).1]
  refine ⟨.inl horiginals, fun _ => hr, ?_, fun hid h => ?_, fun hio hp => ?_, fun hid h => ?_,
    fun handle h => absurd h (hclose handle)⟩
  · rw [if_pos horiginals, List.map_append, List.filter_append, hafter]
    rw [List.filter_eq_nil_iff.mpr, List.filter_eq_self.mpr, List.nil_append]
    · exact fun c hc => (Intercepted.told_tells hc).2.1
    · intro c hc
      obtain ⟨e, he, rfl⟩ := List.mem_map.mp hc
      simp [(hbefore e he).2]
  · refine iff_of_true horiginals ⟨(habout hid h).1, ?_, hprobing⟩
    rw [Frame.sawBlock] at hblock ⊢
    rw [List.any_append, hblock, Bool.true_or]
  · exact absurd ((hprobing hio).symm.trans hp) Bool.false_ne_true
  · refine ⟨fun _ hne => absurd horiginals hne, fun handle c hc => ?_⟩
    rw [List.map_append] at hc
    rcases List.mem_append.mp hc with hc | hc
    · exact (habout hid h).2 handle c hc
    · obtain ⟨e, he, hec⟩ := List.mem_map.mp hc
      exact absurd hec ((htold e he).2.2 handle c)

/-- The original was called between `before` and `after`. -/
theorem Gated.of_passed {a : DetourAnswer}
    (hbefore : ∀ e ∈ before, e.1.isOriginal = false ∧ e.1.tells = false)
    (hafter : ∀ e ∈ after, e.1.isOriginal = false ∧ e.1.tells = false)
    (hdecided : ∀ hid,
      Frame.About ⟨request, probing, before ++ (.original request, a) :: after⟩ hid → hid = true →
      Frame.sawBlock ⟨request, probing, before ++ after⟩ = true →
        request.isIo = true ∧ probing = true)
    (hapart : request.isIo = true → probing = true →
      (∀ e ∈ before, e.1 = .blocking) ∧ after = [])
    (hremembered : ∀ hid,
      Frame.About ⟨request, probing, before ++ (.original request, a) :: after⟩ hid →
      (hid = true → ∀ handle, request.opened a.returned = some handle →
        .rememberHandle handle .hid ∈ after.map Prod.fst) ∧
      ∀ handle c, .rememberHandle handle c ∈ (before ++ after).map Prod.fst →
        c = if hid then .hid else .other)
    (hclosed : ∀ handle, request = .ntClose handle → before.map Prod.fst =
      [.enterClose, .forgetHandle handle] ∧ after.map Prod.fst = [.leaveClose]) :
    Gated ⟨request, probing, before ++ (.original request, a) :: after⟩ a.returned := by
  have horiginals : Frame.originals ⟨request, probing, before ++ (.original request, a) :: after⟩ =
      [(.original request, a)] := by
    have hno : ∀ l : List (DetourCall × DetourAnswer),
        (∀ e ∈ l, e.1.isOriginal = false ∧ e.1.tells = false) →
        l.filter (fun e => e.1.isOriginal) = [] :=
      fun l h => List.filter_eq_nil_iff.mpr fun e he => by simp [(h e he).1]
    rw [Frame.originals, List.filter_append, hno before hbefore, List.nil_append,
      List.filter_cons_of_pos rfl, hno after hafter]
  have hne : Frame.originals ⟨request, probing, before ++ (.original request, a) :: after⟩ ≠
      [] := by
    rw [horiginals]
    exact List.cons_ne_nil _ _
  -- one goal for each clause of `Gated`, in its order
  refine ⟨.inr ⟨a, horiginals, rfl⟩, fun h => absurd h hne, ?_, fun hid h => ?_, fun hio hp => ?_,
    fun hid h => ?_, fun handle h => ?_⟩
  · rw [if_neg hne, List.filter_eq_nil_iff]
    intro c hc
    obtain ⟨e, he, rfl⟩ := List.mem_map.mp hc
    rcases List.mem_append.mp he with he | he
    · simp [(hbefore e he).2]
    · rcases List.mem_cons.mp he with rfl | he
      · simp [DetourCall.tells]
      · simp [(hafter e he).2]
  · refine iff_of_false hne fun hdeny => ?_
    obtain ⟨hhid, hblock, hprobing⟩ := hdeny
    have hsaw : Frame.sawBlock ⟨request, probing, before ++ after⟩ = true := by
      simpa [Frame.sawBlock] using hblock
    obtain ⟨hio, hp⟩ := hdecided hid h hhid hsaw
    exact absurd (hprobing hio) (by simp [hp])
  · obtain ⟨hall, rfl⟩ := hapart hio hp
    intro e he
    rcases List.mem_append.mp he with he | he
    · exact .inl (hall e he)
    · exact .inr (by rw [List.mem_singleton.mp he])
  · obtain ⟨hopened, hclass⟩ := hremembered hid h
    refine ⟨fun hhid _ handle ho => ?_, fun handle c hc => hclass handle c ?_⟩
    · rw [List.map_append, List.map_cons]
      exact List.mem_append_right _ (List.mem_cons_of_mem _ (hopened hhid handle ho))
    · simpa using hc
  · obtain ⟨hb, ha⟩ := hclosed handle h
    show List.map Prod.fst (before ++ _) = _
    rw [List.map_append, List.map_cons, hb, ha]
    rfl

end

/-! ## Each detour -/

section

variable {control : DetourCall → Detouring DetourAnswer} {request : Intercepted} {probing : Bool}
  {rest : List Activity}

theorem writeStatus_proceeds (status : UInt64) :
    Proceeds request probing rest (writeStatus status) fun _ own =>
      own.map Prod.fst =
        if status = 0 then [] else [.writeIoStatus status statusDeviceNotConnected 0] := by
  rw [writeStatus]
  split
  · exact .issue rfl fun _ => .pure rfl
  next h => exact .pure (by simp [not_not.mp h])

theorem deniedIo_proceeds (function : IoFunction) (file event status : UInt64) :
    Proceeds request probing rest (deniedIo status event) fun r own =>
      r = Intercepted.denial (.io function file event status) ∧
        own.map Prod.fst = Intercepted.told (.io function file event status) := by
  refine (writeStatus_proceeds status).bind fun _ own h => ?_
  split
  next he =>
    refine .issue rfl fun _ => .pure ⟨rfl, ?_⟩
    simp [Intercepted.told, h, he]
  next he =>
    refine .pure ⟨rfl, ?_⟩
    simp [Intercepted.told, h, not_not.mp he]

/-- I/O is judged by its handle. -/
theorem ioDetour_proceeds (hcontrol : Controls control) (function : IoFunction)
    (file event status : UInt64) :
    Proceeds (.io function file event status) probing rest
      (ioDetour control function file event status)
      fun r own => Gated ⟨.io function file event status, probing, own⟩ r := by
  refine (shouldDeny_proceeds hcontrol file).bind fun deny before hjudged => ?_
  cases deny with
  | true =>
    obtain ⟨hblock, hprobing⟩ := hjudged.denies rfl
    refine (deniedIo_proceeds function file event status).imp fun r after h => ?_
    refine .of_denied hjudged.inner h.2 h.1 hblock (fun _ => hprobing) (by simp)
      fun hid habout => ?_
    obtain ⟨hdeny, hclass⟩ := hjudged.fits hid fun e he => habout e (List.mem_append_left _ he)
    exact ⟨(hdeny hblock hprobing).symm, hclass⟩
  | false =>
    refine (hcontrol.original _ _ _ _).bind fun a more hmore => .pure ?_
    subst hmore
    rw [List.append_nil]
    refine .of_passed hjudged.inner (List.forall_mem_nil _) (fun hid habout hhid hblock => ?_)
      (fun _ hp => ⟨hjudged.apart hp, rfl⟩) (fun hid habout => ?_) (by simp)
    · refine ⟨rfl, Bool.of_not_eq_false fun hprobing => ?_⟩
      obtain ⟨hdeny, -⟩ := hjudged.fits hid fun e he => habout e (List.mem_append_left _ he)
      rw [List.append_nil] at hblock
      exact absurd ((hdeny hblock hprobing).trans hhid) Bool.false_ne_true
    · refine ⟨fun _ handle h => absurd h (by simp [Intercepted.opened]), ?_⟩
      rw [List.append_nil]
      exact (hjudged.fits hid fun e he => habout e (List.mem_append_left _ he)).2

theorem deniesOpen_proceeds (hid : Bool) :
    Proceeds request probing rest (deniesOpen hid) fun deny own =>
      (∀ e ∈ own, e.1 = .blocking) ∧ (deny = true → hid = true) ∧
        (hid = true → deny = Frame.sawBlock ⟨request, probing, own⟩) := by
  cases hid with
  | true => exact .issue rfl fun a => .pure (by simp [Frame.sawBlock])
  | false => exact .pure (by simp)

theorem rememberOpened_proceeds (hid opened : Bool) (handle : UInt64) :
    Proceeds request probing rest (rememberOpened hid opened handle) fun _ own =>
      own.map Prod.fst = if hid && opened then [.rememberHandle handle .hid] else [] := by
  rw [rememberOpened]
  split
  · exact .issue rfl fun _ => .pure rfl
  · exact .pure rfl

/-- The requests that open a file, and what their recognisers find. -/
inductive Opens : Intercepted → MayPanic Bool → Prop
  | createFileW (path : Option (List UInt16)) : Opens (.createFileW path) (wideHasHidPrefix path)
  | createFileA (path : Option (List UInt8)) : Opens (.createFileA path) (narrowHasHidPrefix path)
  | createFile2 (path : Option (List UInt16)) : Opens (.createFile2 path) (wideHasHidPrefix path)
  | ntOpen (function : NtOpenFunction) (file status : UInt64)
      (attributes : Option (Option UnicodeString)) :
      Opens (.ntOpen function file status attributes) (nativeHasHidPrefix attributes)

theorem Opens.about {recognised : MayPanic Bool} (h : Opens request recognised)
    {own : List (DetourCall × DetourAnswer)} {hid : Bool} :
    Frame.About ⟨request, probing, own⟩ hid ↔ recognised = .ok hid := by
  cases h <;> exact Iff.rfl

theorem Opens.not_io {recognised : MayPanic Bool} (h : Opens request recognised) :
    request.isIo = false ∧ ∀ handle, request ≠ .ntClose handle := by
  cases h <;> exact ⟨rfl, by simp⟩

/-- An open that is denied by its path, or goes on to the original and is remembered. -/
theorem opens_proceeds (hcontrol : Controls control) {hid : Bool} (hopens : Opens request (.ok hid))
    {denied : Detouring Returned} (opened : Returned → Bool)
    (hdenied : Proceeds request probing rest denied fun r own =>
      r = request.denial ∧ own.map Prod.fst = request.told)
    (hopened : ∀ r, request.opened r = if opened r then some r.handle else none) :
    Proceeds request probing rest (do
      let deny ← deniesOpen hid
      if deny then denied
      else do
        let a ← control (.original request)
        rememberOpened hid (opened a.returned) a.returned.handle
        pure a.returned) fun r own => Gated ⟨request, probing, own⟩ r := by
  obtain ⟨hio, hclose⟩ := hopens.not_io
  refine (deniesOpen_proceeds hid).bind fun deny before h => ?_
  obtain ⟨hblocking, hhid, hdeny⟩ := h
  have hbefore : ∀ e ∈ before, e.1.isOriginal = false ∧ e.1.tells = false := fun e he => by
    rw [hblocking e he]
    exact ⟨rfl, rfl⟩
  have hkept : ∀ handle c, .rememberHandle handle c ∉ before.map Prod.fst := fun handle c hc => by
    obtain ⟨e, he, hec⟩ := List.mem_map.mp hc
    rw [hblocking e he] at hec
    cases hec
  have habout : ∀ {own : List (DetourCall × DetourAnswer)} {found : Bool},
      Frame.About ⟨request, probing, own⟩ found → hid = found := fun h => by
    have := hopens.about.mp h
    injection this
  -- which class the frame is about is what the recogniser said, whatever the log adds
  cases deny with
  | true =>
    refine hdenied.imp fun r after h => ?_
    refine .of_denied hbefore h.2 h.1 (hdeny (hhid rfl)).symm (fun h => by simp [hio] at h) hclose
      fun found hfound => ⟨(habout hfound).symm.trans (hhid rfl), fun handle c hc => ?_⟩
    exact absurd hc (hkept handle c)
  | false =>
    refine (hcontrol.original _ _ _ _).bind fun a more hmore => ?_
    subst hmore
    refine (rememberOpened_proceeds hid (opened a.returned) a.returned.handle).bind
      fun _ after hafter => .pure ?_
    show Gated ⟨request, probing, before ++ (.original request, a) :: (after ++ [])⟩ a.returned
    rw [List.append_nil]
    -- behind the original the detour makes one call at most, that of `remember_handle`
    have hremembered : ∀ c, c ∈ after.map Prod.fst → hid = true ∧ opened a.returned = true ∧
        c = .rememberHandle a.returned.handle .hid := fun c hc => by
      rw [hafter] at hc
      split at hc
      next h =>
        obtain ⟨hhid, hop⟩ := Bool.and_eq_true_iff.mp h
        exact ⟨hhid, hop, by simpa using hc⟩
      · cases hc
    refine .of_passed hbefore (fun e he => ?_) (fun found hfound hf hblock => ?_)
      (fun h => by simp [hio] at h)
      (fun found hfound => ⟨fun hf handle ho => ?_, fun handle c hc => ?_⟩)
      (fun handle h => absurd h (hclose handle))
    · obtain ⟨-, -, he⟩ := hremembered e.1 (List.mem_map_of_mem he)
      rw [he]
      exact ⟨rfl, rfl⟩
    -- a device that was let through saw no block, as the one read was before the call
    · have hsaw : Frame.sawBlock ⟨request, probing, before⟩ = true := by
        rw [Frame.sawBlock, List.any_append, Bool.or_eq_true] at hblock
        refine hblock.resolve_right fun hany => ?_
        obtain ⟨e, he, hb⟩ := List.any_eq_true.mp hany
        rw [(hremembered e.1 (List.mem_map_of_mem he)).2.2] at hb
        cases hb
      rw [← hdeny ((habout hfound).trans hf)] at hsaw
      exact absurd hsaw Bool.false_ne_true
    · rw [hopened] at ho
      split at ho
      next hop =>
        cases ho
        rw [hafter, (habout hfound).trans hf, hop]
        exact List.mem_singleton_self _
      · cases ho
    · rw [List.map_append] at hc
      obtain ⟨hhid, -, he⟩ := hremembered _ ((List.mem_append.mp hc).resolve_left (hkept handle c))
      rw [← habout hfound, hhid]
      injection he

theorem createDetour_proceeds (hcontrol : Controls control) {recognised : MayPanic Bool}
    (hopens : Opens request recognised)
    (hdenial : request.denial = ⟨invalidHandleValue, 0⟩ ∧
      request.told = [.setLastError errorNoSuchDevice] ∧ ∀ r, request.opened r =
        if (r.handle != invalidHandleValue) = true then some r.handle else none) :
    Proceeds request probing rest (createDetour control request recognised)
      fun r own => Gated ⟨request, probing, own⟩ r := by
  cases recognised with
  | error e => exact .failure
  | ok hid =>
    refine opens_proceeds hcontrol hopens (fun r => r.handle != invalidHandleValue) ?_
      hdenial.2.2
    exact .issue rfl fun _ => .pure ⟨hdenial.1.symm, hdenial.2.1.symm⟩

theorem deniedOpen_proceeds (function : NtOpenFunction) (file status : UInt64)
    (attributes : Option (Option UnicodeString)) :
    Proceeds request probing rest (deniedOpen file status) fun r own =>
      r = Intercepted.denial (.ntOpen function file status attributes) ∧
        own.map Prod.fst = Intercepted.told (.ntOpen function file status attributes) := by
  rw [deniedOpen]
  split
  next hf =>
    refine .issue rfl fun _ => (writeStatus_proceeds status).bind fun _ own h => .pure ?_
    simp [Intercepted.denial, Intercepted.told, h, hf]
  next hf =>
    refine (writeStatus_proceeds status).bind fun _ own h => .pure ?_
    simp [Intercepted.denial, Intercepted.told, h, not_not.mp hf]

theorem ntOpenDetour_proceeds (hcontrol : Controls control) (function : NtOpenFunction)
    (file status : UInt64) (attributes : Option (Option UnicodeString)) :
    Proceeds (.ntOpen function file status attributes) probing rest
      (ntOpenDetour control function file status attributes)
      fun r own => Gated ⟨.ntOpen function file status attributes, probing, own⟩ r := by
  have hopens := Opens.ntOpen function file status attributes
  rw [ntOpenDetour]
  cases hname : nativeHasHidPrefix attributes with
  | error e => exact .failure
  | ok hid =>
    rw [hname] at hopens
    refine opens_proceeds hcontrol hopens (fun r => decide (0 ≤ r.status) && file != 0)
      (deniedOpen_proceeds function file status attributes) fun r => ?_
    simp [Intercepted.opened]

/-- A close is never denied. -/
theorem ntCloseDetour_proceeds (hcontrol : Controls control) (handle : UInt64) :
    Proceeds (.ntClose handle) probing rest (ntCloseDetour control handle)
      fun r own => Gated ⟨.ntClose handle, probing, own⟩ r := by
  refine .issue rfl fun b => .issue rfl fun c => ?_
  refine (hcontrol.original _ _ _ _).bind fun a more hmore => .issue rfl fun d => .pure ?_
  subst hmore
  show Gated ⟨.ntClose handle, probing, [(.enterClose, b), (.forgetHandle handle, c)] ++
    (.original (.ntClose handle), a) :: [(.leaveClose, d)]⟩ a.returned
  refine .of_passed ?_ ?_ ?_ ?_ ?_ ?_
  · simp [DetourCall.isOriginal, DetourCall.tells]
  · simp [DetourCall.isOriginal, DetourCall.tells]
  · exact fun hid habout hhid => absurd (habout.symm.trans hhid) Bool.false_ne_true
  · exact fun h => by cases h
  · exact fun hid _ => ⟨fun _ handle h => absurd h (by simp [Intercepted.opened]), by simp⟩
  · exact fun h hrequest => by
      cases hrequest
      exact ⟨rfl, rfl⟩

theorem xInputDetour_proceeds (hcontrol : Controls control) (index : Fin 5)
    (function : XInputFunction) :
    Proceeds (.xInput index function) probing rest (xInputDetour control index function)
      fun r own => Gated ⟨.xInput index function, probing, own⟩ r := by
  refine .issue rfl fun b => ?_
  split
  next hblock =>
    refine .pure ?_
    show Gated ⟨.xInput index function, probing, [(.blocking, b)] ++ []⟩ _
    refine .of_denied ?_ rfl rfl ?_ ?_ ?_ ?_
    · simp [DetourCall.isOriginal, DetourCall.tells]
    · simpa [Frame.sawBlock] using hblock
    · exact fun h => by cases h
    · simp
    · exact fun hid habout => ⟨habout, by simp⟩
  next hopen =>
    refine (hcontrol.original _ _ _ _).bind fun a more hmore => .pure ?_
    subst hmore
    show Gated ⟨.xInput index function, probing,
      [(.blocking, b)] ++ (.original (.xInput index function), a) :: []⟩ a.returned
    refine .of_passed ?_ ?_ ?_ ?_ ?_ ?_
    · simp [DetourCall.isOriginal, DetourCall.tells]
    · exact List.forall_mem_nil _
    · exact fun hid _ _ hblock => absurd hblock (by simpa [Frame.sawBlock] using hopen)
    · exact fun h => by cases h
    · exact fun hid _ => ⟨fun _ handle h => absurd h (by simp [Intercepted.opened]), by simp⟩
    · simp

/-- Each detour, for whatever other code it may call. -/
theorem detourOf_proceeds (hcontrol : Controls control) (request : Intercepted) :
    Proceeds request probing rest (detourOf control request)
      fun r own => Gated ⟨request, probing, own⟩ r := by
  cases request with
  | createFileW path =>
    exact createDetour_proceeds hcontrol (.createFileW path)
      ⟨rfl, rfl, by simp [Intercepted.opened]⟩
  | createFileA path =>
    exact createDetour_proceeds hcontrol (.createFileA path)
      ⟨rfl, rfl, by simp [Intercepted.opened]⟩
  | createFile2 path =>
    exact createDetour_proceeds hcontrol (.createFile2 path)
      ⟨rfl, rfl, by simp [Intercepted.opened]⟩
  | ntOpen function file status attributes =>
    exact ntOpenDetour_proceeds hcontrol function file status attributes
  | io function file event status => exact ioDetour_proceeds hcontrol function file event status
  | ntClose handle => exact ntCloseDetour_proceeds hcontrol handle
  | xInput index function => exact xInputDetour_proceeds hcontrol index function

end

/-! ## Calls inside calls -/

theorem Sound.note {w : Watch} (hw : Sound w) (e : DetourCall × DetourAnswer) :
    Sound (w.note e) := by
  obtain ⟨stack, done⟩ := w
  cases stack with
  | nil => exact hw
  | cons activity rest =>
    cases activity with
    | foreign c => exact hw
    | detour f => exact ⟨hw.gated, hw.stacked⟩

section

variable {detour : Intercepted → Detouring Returned}

/-- The detours are gated, whatever they are called in. -/
def Detours (detour : Intercepted → Detouring Returned) : Prop :=
  ∀ request probing rest, Proceeds request probing rest (detour request)
    fun r own => Gated ⟨request, probing, own⟩ r

/-- The call leaves the thread in `c₀`; behind it other code comes back with an answer to `c₀`. -/
theorem serve_runs (hdetour : Detours detour) (n : Nat) {c c₀ : DetourCall} {w w₀ : Watch}
    {rest : List Activity} (hc : c.foreign = true) (hw : Sound w) (hw₀ : Sound w₀)
    (hcall : w.call c = w₀) (hstack : w₀.stack = .foreign c₀ :: rest) :
    Runs (serve detour n c) (w₀.stack.any Activity.isProbe) w fun a p w' =>
      p = w₀.stack.any Activity.isProbe ∧
        ∃ done, w' = (⟨rest, done⟩ : Watch).note (c₀, a) := by
  induction n generalizing c w w₀ with
  | zero => exact .failure hw
  | succ n ih =>
    refine .issue hw fun a => ?_
    have hnext : w.next (c, a) = w₀.move a := by rw [Watch.next, if_pos hc, hcall]
    rw [hnext, Watch.move]
    cases a.calls with
    | none =>
      have hleave : w₀.leave a = (⟨rest, w₀.done⟩ : Watch).note (c₀, a) := by
        rw [Watch.leave, hstack]
      have hrest : Sound ⟨rest, w₀.done⟩ := ⟨hw₀.gated, (hstack ▸ hw₀.stacked).2⟩
      refine .pure ?_ ⟨rfl, w₀.done, hleave⟩
      show Sound (w₀.leave a)
      rw [hleave]
      exact hrest.note (c₀, a)
    | some request =>
      refine (hdetour request _ w₀.stack [] w₀.done ⟨hw₀.gated, rfl, hw₀.stacked⟩).bind
        fun r p w' hw' h => ?_
      obtain ⟨rfl, own, done, rfl, hgated⟩ := h
      have hdone : Sound ⟨w₀.stack, (⟨request, w₀.stack.any Activity.isProbe, own⟩, r) :: done⟩ :=
        ⟨List.forall_mem_cons.mpr ⟨hgated, hw'.gated⟩, hw₀.stacked⟩
      have hserve := ih (c := .resumed request r) rfl hw' hdone rfl hstack
      exact hserve

/-- What a frame may assume of a call that hands the thread over. -/
theorem serve_controls (hdetour : Detours detour) (n : Nat) : Controls (serve detour n) := by
  have hserve : ∀ c request probing rest own done, c.foreign = true → (∀ r a, c ≠ .resumed r a) →
      (c.isProbe = true → probing = false) →
      Sound ⟨.detour ⟨request, probing, own⟩ :: rest, done⟩ →
      Runs (serve detour n c) (c.isProbe || probing)
        ⟨.detour ⟨request, probing, own⟩ :: rest, done⟩ fun a p w =>
          p = (c.isProbe || probing) ∧
            ∃ done', w = ⟨.detour ⟨request, probing, own ++ [(c, a)]⟩ :: rest, done'⟩ := by
    intro c request probing rest own done hc hr hprobe hw
    have hany : List.any (.foreign c :: .detour ⟨request, probing, own⟩ :: rest)
        Activity.isProbe = (c.isProbe || probing) := by
      rw [List.any_cons, List.any_cons, ← hw.stacked.1]
      simp [Activity.isProbe]
    have hcall : Watch.call ⟨.detour ⟨request, probing, own⟩ :: rest, done⟩ c =
        ⟨.foreign c :: .detour ⟨request, probing, own⟩ :: rest, done⟩ := by
      cases c with
      | resumed r a => exact absurd rfl (hr r a)
      | _ => rfl
    have hpushed : Sound ⟨.foreign c :: .detour ⟨request, probing, own⟩ :: rest, done⟩ := by
      refine ⟨hw.gated, fun h => ?_, hw.stacked⟩
      rw [List.any_cons, ← hw.stacked.1]
      simpa [Activity.isProbe] using hprobe h
    rw [← hany]
    exact serve_runs hdetour n hc hw hpushed hcall rfl
  refine ⟨fun call request probing rest own done hw => ?_,
    fun handle request rest own done hw => ?_⟩
  · refine (hserve (.original call) request probing rest own done rfl (by simp)
      (fun h => by cases h) hw).imp fun a p w h => ?_
    obtain ⟨hp, done', hw'⟩ := h
    exact ⟨hp, [(.original call, a)], done', hw', rfl⟩
  · refine .probeGuard ((hserve (.hidDGetAttributes handle) request false rest own done rfl
      (by simp) (fun _ => rfl) hw).imp fun a p w h => ?_)
    obtain ⟨-, done', hw'⟩ := h
    exact ⟨rfl, [(.hidDGetAttributes handle, a)], done', hw', rfl⟩

end

theorem detourAt_gated (n : Nat) : Detours (detourAt n) := by
  induction n with
  | zero => exact fun _ _ _ => .failure
  | succ n ih => exact fun request _ _ => detourOf_proceeds (serve_controls ih n) request

/-- **In every moment of every run of a Steam thread, however deep its calls nest, each call of a
    detour that has returned was denied or let through as it should be, and the thread is in one
    probe at most.** -/
theorem steam_thread_gated (n : Nat) (answers : Nat → DetourAnswer) (k : Nat) :
    ThreadGated (watch ((((steamThread n).run.run false).run answers).1.take k)) := by
  have hstart : Sound ⟨[], []⟩ := ⟨List.forall_mem_nil _, trivial⟩
  have hsteam : Sound ⟨[.foreign .steam], []⟩ := ⟨List.forall_mem_nil _, fun _ => rfl, trivial⟩
  have hruns : Runs (steamThread n) false ⟨[], []⟩ _ :=
    serve_runs (detourAt_gated n) n (c := .steam) rfl hstart hsteam rfl rfl
  have hsound := (Program.Yields.run hruns answers).1 k
  exact ⟨hsound.gated, hsound.stacked.countP_le⟩

/-- Steam reads from a HID device; the probe of its handle goes through the detours. -/
def readsDevice : Nat → DetourAnswer
  | 0 => { back with calls := some (.io .readFile 8 9 16) }
  | 6 => { back with calls := some (.io .deviceIoControlFile 8 0 0) }
  | _ => back
where
  back : DetourAnswer :=
    { calls := none, returned := ⟨0, 0⟩, isHid := true, blocking := true
      classification := .unknown, typeReply := some ⟨0, 8, some fileTypeName⟩, fileType := 2
      lastError := 0 }

example : (watch (((steamThread 3).run.run false).run readsDevice).1).done.map
    (fun e => (e.1.probing, e.2.status)) = [(false, statusDeviceNotConnected), (true, 0)] := by
  decide

end Gate
end SteamInputLease
