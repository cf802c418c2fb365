import Mathlib.Tactic.Common

/-
Runs of a machine that takes one input at a time and may refuse it.
-/

namespace EpollHttp
namespace Run

variable {σ α : Type}

/-- The state after the inputs in turn, if none of them is refused. -/
def run (step : σ → α → Option σ) : σ → List α → Option σ
  | s, [] => some s
  | s, a :: as =>
    match step s a with
    | some s' => run step s' as
    | none => none

variable {step : σ → α → Option σ}

theorem run_cons {s s' : σ} {a : α} {as : List α} (h : run step s (a :: as) = some s') :
    ∃ t, step s a = some t ∧ run step t as = some s' := by
  unfold run at h
  split at h
  · rename_i t ht
    exact ⟨t, ht, h⟩
  · simp at h

/-- What every step preserves holds at the end of every run. -/
theorem run_invariant {P : σ → Prop} (hstep : ∀ s a s', P s → step s a = some s' → P s')
    {s s' : σ} {as : List α} (h0 : P s) (h : run step s as = some s') : P s' := by
  induction as generalizing s with
  | nil =>
    have heq : s = s' := Option.some.inj h
    rw [← heq]
    exact h0
  | cons a as ih =>
    obtain ⟨t, ht, hrun⟩ := run_cons h
    exact ih (hstep s a t h0 ht) hrun

/-- The machine that also refuses the inputs that do not meet a condition. -/
def guard (ok : σ → α → Prop) [∀ s a, Decidable (ok s a)] (step : σ → α → Option σ) (s : σ)
    (a : α) : Option σ :=
  if ok s a then step s a else none

theorem guard_some {ok : σ → α → Prop} [∀ s a, Decidable (ok s a)] {s s' : σ} {a : α}
    (h : guard ok step s a = some s') : ok s a ∧ step s a = some s' := by
  unfold guard at h
  split at h
  · rename_i hok
    exact ⟨hok, h⟩
  · cases h

theorem guard_of {ok : σ → α → Prop} [∀ s a, Decidable (ok s a)] {s s' : σ} {a : α}
    (hok : ok s a) (h : step s a = some s') : guard ok step s a = some s' := by
  unfold guard
  rw [if_pos hok]
  exact h

/-- A run whose every step is also one of another machine is a run of that machine. -/
theorem run_mono {step' : σ → α → Option σ} {P : σ → Prop}
    (hstep : ∀ s a s', P s → step s a = some s' → step' s a = some s' ∧ P s')
    {s s' : σ} {as : List α} (h0 : P s) (h : run step s as = some s') :
    run step' s as = some s' := by
  induction as generalizing s with
  | nil => exact h
  | cons a as ih =>
    obtain ⟨t, ht, hrest⟩ := run_cons h
    obtain ⟨ht', hP⟩ := hstep s a t h0 ht
    unfold run
    rw [ht']
    exact ih hP hrest

/-- What is reached under the condition is reached without it. -/
theorem run_of_guard {ok : σ → α → Prop} [∀ s a, Decidable (ok s a)] {s s' : σ} {as : List α}
    (h : run (guard ok step) s as = some s') : run step s as = some s' :=
  run_mono (P := fun _ => True) (fun _ _ _ _ ht => ⟨(guard_some ht).2, trivial⟩) trivial h

/-- A run has no more steps than a measure that every step uses up. -/
theorem run_length_le {P : σ → Prop} {measure : σ → Nat}
    (hstep : ∀ s a s', P s → step s a = some s' → P s' ∧ measure s' < measure s)
    {s s' : σ} {as : List α} (h0 : P s) (h : run step s as = some s') :
    as.length + measure s' ≤ measure s := by
  induction as generalizing s with
  | nil =>
    have heq : s = s' := Option.some.inj h
    subst heq
    exact Nat.le_of_eq (Nat.zero_add _)
  | cons a as ih =>
    obtain ⟨t, ht, hrun⟩ := run_cons h
    obtain ⟨hP, hless⟩ := hstep s a t h0 ht
    have hrest := ih hP hrun
    rw [List.length_cons]
    omega

theorem run_append {s t u : σ} {as bs : List α} (h : run step s as = some t)
    (h' : run step t bs = some u) : run step s (as ++ bs) = some u := by
  induction as generalizing s with
  | nil =>
    obtain rfl := Option.some.inj h
    exact h'
  | cons a as ih =>
    obtain ⟨s1, hstep, hrun⟩ := run_cons h
    rw [List.cons_append]
    unfold run
    rw [hstep]
    exact ih hrun

theorem run_one {s t : σ} {a : α} (h : step s a = some t) : run step s [a] = some t := by
  unfold run
  rw [h]
  rfl

/-- A machine whose every step is matched by some steps of another one is matched in every run. -/
theorem run_simulated {τ β : Type} {step' : τ → β → Option τ} {R : σ → τ → Prop}
    (hstep : ∀ s a s' t, R s t → step s a = some s' →
      ∃ bs t', run step' t bs = some t' ∧ R s' t')
    {s s' : σ} {t : τ} {as : List α} (h0 : R s t) (h : run step s as = some s') :
    ∃ bs t', run step' t bs = some t' ∧ R s' t' := by
  induction as generalizing s t with
  | nil =>
    obtain rfl := Option.some.inj h
    exact ⟨[], t, rfl, h0⟩
  | cons a as ih =>
    obtain ⟨s1, hs, hrun⟩ := run_cons h
    obtain ⟨bs, t1, hbs, h1⟩ := hstep s a s1 t h0 hs
    obtain ⟨bs', t', hbs', h'⟩ := ih h1 hrun
    exact ⟨bs ++ bs', t', run_append hbs hbs', h'⟩

/-! ## What is seen of a run -/

section
variable {ω : Type} {see : σ → α → σ → ω}

/-- What is seen of every step, up to the first input that is refused. -/
def trace (step : σ → α → Option σ) (see : σ → α → σ → ω) : σ → List α → List ω
  | _, [] => []
  | s, a :: as =>
    match step s a with
    | some s' => see s a s' :: trace step see s' as
    | none => []

/-- Two states stay related in every step and show the same of it. -/
theorem trace_eq {R : σ → σ → Prop}
    (hstep : ∀ s s' a, R s s' →
      Option.Rel (fun t t' => R t t' ∧ see s a t = see s' a t') (step s a) (step s' a))
    {s s' : σ} (h : R s s') (as : List α) : trace step see s as = trace step see s' as := by
  induction as generalizing s s' with
  | nil => rfl
  | cons a as ih =>
    have hrel := hstep s s' a h
    unfold trace
    generalize step s a = x at hrel
    generalize step s' a = x' at hrel
    cases hrel with
    | none => rfl
    | some ht =>
      dsimp only
      rw [ht.2, ih ht.1]

end

end Run
end EpollHttp
