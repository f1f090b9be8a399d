import SteamInputLease.Lib.System

/-!
# Work that runs out

Safety says what no step breaks; this file is the other half. A run does only so much *work* when
each working step lowers a rank and no other step raises it, and a system that can always do
more work until it is settled settles: the rank is the bound on both.
-/

namespace SteamInputLease
namespace Lib
namespace System

theorem exec_append {σ ε : Type} {T : System σ ε} {t u : σ} :
    ∀ {es fs : List ε} {s : σ}, T.exec s es = some t → T.exec t fs = some u →
      T.exec s (es ++ fs) = some u
  | [], _, s, h, h' => by
    simp only [System.exec, Option.some.injEq] at h
    exact h ▸ h'
  | e :: es, _, s, h, h' => by
    simp only [System.exec, Option.bind_eq_some_iff] at h
    obtain ⟨r, hr, h⟩ := h
    simp only [List.cons_append, System.exec, hr, Option.bind_some]
    exact exec_append h h'

/-- Along the admitted steps `I` is kept, the rank never rises, and a working step lowers it. -/
structure Ranked {σ ε : Type} (T : System σ ε) (admitted work : ε → Bool) (I : σ → Prop)
    (rank : σ → Nat) : Prop where
  keeps : ∀ s e s', I s → admitted e = true → T.step s e = some s' → I s'
  lowers : ∀ s e s', I s → admitted e = true → work e = true → T.step s e = some s' →
    rank s' < rank s
  level : ∀ s e s', I s → admitted e = true → work e = false → T.step s e = some s' →
    rank s' ≤ rank s

variable {σ ε : Type} {T : System σ ε} {admitted work : ε → Bool} {I : σ → Prop} {rank : σ → Nat}

/-- What the admitted steps keep besides may be assumed along the run. -/
theorem Ranked.and {J : σ → Prop} (h : Ranked T admitted work I rank)
    (hJ : ∀ s e s', I s → J s → admitted e = true → T.step s e = some s' → J s') :
    Ranked T admitted work (fun s => I s ∧ J s) rank where
  keeps s e s' hi ha hs := ⟨h.keeps s e s' hi.1 ha hs, hJ s e s' hi.1 hi.2 ha hs⟩
  lowers s e s' hi := h.lowers s e s' hi.1
  level s e s' hi := h.level s e s' hi.1

/-- **Bounded work.** A run of admitted steps works no more often than the rank it starts from. -/
theorem Ranked.bounded (h : Ranked T admitted work I rank) :
    ∀ {es : List ε} {s s' : σ}, I s → es.all admitted = true → T.exec s es = some s' →
      I s' ∧ es.countP work + rank s' ≤ rank s
  | [], s, s', hi, _, hx => by
    simp only [System.exec, Option.some.injEq] at hx
    subst hx
    exact ⟨hi, by simp⟩
  | e :: es, s, s', hi, ha, hx => by
    simp only [System.exec, Option.bind_eq_some_iff] at hx
    obtain ⟨t, ht, hx⟩ := hx
    rw [List.all_cons, Bool.and_eq_true] at ha
    obtain ⟨hi', hle⟩ := h.bounded (h.keeps s e t hi ha.1 ht) ha.2 hx
    refine ⟨hi', ?_⟩
    rw [List.countP_cons]
    cases hw : work e with
    | true =>
      have := h.lowers s e t hi ha.1 hw ht
      simp only [if_true]
      omega
    | false =>
      have := h.level s e t hi ha.1 hw ht
      simp only [Bool.false_eq_true, if_false]
      omega

/-- **Settling.** Where every state that is not settled has an admitted run that works, an admitted
    run leads from every state to a settled one. -/
theorem Ranked.settles {settled : σ → Prop} (h : Ranked T admitted work I rank)
    (progress : ∀ s, I s → ¬settled s → ∃ es s', es.all admitted = true ∧ 0 < es.countP work ∧
      T.exec s es = some s') {s : σ} (hi : I s) :
    ∃ es s', es.all admitted = true ∧ T.exec s es = some s' ∧ settled s' := by
  generalize hn : rank s = n
  induction n using Nat.strongRecOn generalizing s with
  | ind n ih =>
    by_cases hs : settled s
    · exact ⟨[], s, rfl, rfl, hs⟩
    · obtain ⟨es, t, ha, hw, hx⟩ := progress s hi hs
      obtain ⟨hi', hle⟩ := h.bounded hi ha hx
      obtain ⟨fs, u, hb, hy, hu⟩ := ih (rank t) (by omega) hi' rfl
      refine ⟨es ++ fs, u, ?_, exec_append hx hy, hu⟩
      rw [List.all_append, ha, hb]
      rfl

end System

end Lib
end SteamInputLease
