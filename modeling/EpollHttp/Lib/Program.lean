import Mathlib.Tactic.Common
import Mathlib.Logic.Relation

/-
Partial correctness of programs over a state.

A program that fails never gives its caller a result.  `Ensures m s Q` says that every result of
`m` from the state `s` satisfies `Q`.  The rules follow the shape of the program and compute what
has to hold in front of it.
-/

namespace EpollHttp

abbrev Program (σ α : Type) := StateT σ Option α

namespace Program

variable {σ α β : Type}

/-- The program that never returns. -/
def fail : Program σ α := fun _ => none

def Ensures (m : Program σ α) (s : σ) (Q : α → σ → Prop) : Prop :=
  ∀ a t, m s = some (a, t) → Q a t

section
variable {s : σ} {Q : α → σ → Prop}

@[simp] theorem ensures_pure {a : α} : Ensures (pure a) s Q ↔ Q a s := by
  constructor
  · intro h
    exact h a s rfl
  · intro h b t hrun
    have heq : (a, s) = (b, t) := Option.some.inj hrun
    cases heq
    exact h

@[simp] theorem ensures_fail : Ensures (fail : Program σ α) s Q ↔ True := by
  refine ⟨fun _ => trivial, fun _ a t hrun => ?_⟩
  cases hrun

@[simp] theorem ensures_bind {m : Program σ β} {f : β → Program σ α} :
    Ensures (m >>= f) s Q ↔ Ensures m s (fun b t => Ensures (f b) t Q) := by
  constructor
  · intro h b u hm a t hf
    refine h a t ?_
    show (m s).bind (fun p => f p.1 p.2) = some (a, t)
    rw [hm]
    exact hf
  · intro h a t hrun
    have hbind : (m s).bind (fun p => f p.1 p.2) = some (a, t) := hrun
    obtain ⟨⟨b, u⟩, hm, hf⟩ := Option.bind_eq_some_iff.mp hbind
    exact h b u hm a t hf

@[simp] theorem ensures_map {m : Program σ β} {f : β → α} :
    Ensures (f <$> m) s Q ↔ Ensures m s (fun b t => Q (f b) t) := by
  constructor
  · intro h b t hm
    refine h (f b) t ?_
    show (m s).bind (fun p => some (f p.1, p.2)) = some (f b, t)
    rw [hm]
    rfl
  · intro h a t hrun
    have hbind : (m s).bind (fun p => some (f p.1, p.2)) = some (a, t) := hrun
    obtain ⟨⟨b, u⟩, hm, hf⟩ := Option.bind_eq_some_iff.mp hbind
    cases hf
    exact h b u hm

@[simp] theorem ensures_get {Q : σ → σ → Prop} : Ensures get s Q ↔ Q s s := by
  constructor
  · intro h
    exact h s s rfl
  · intro h a t hrun
    have heq : (s, s) = (a, t) := Option.some.inj hrun
    cases heq
    exact h

@[simp] theorem ensures_modify {Q : PUnit → σ → Prop} {f : σ → σ} :
    Ensures (modify f) s Q ↔ Q ⟨⟩ (f s) := by
  constructor
  · intro h
    exact h ⟨⟩ (f s) rfl
  · intro h a t hrun
    have heq : (PUnit.unit, f s) = (a, t) := Option.some.inj hrun
    cases heq
    exact h

@[simp] theorem ensures_ite {c : Prop} [Decidable c] {m n : Program σ α} :
    Ensures (if c then m else n) s Q ↔ (c → Ensures m s Q) ∧ (¬ c → Ensures n s Q) := by
  by_cases h : c
  · rw [if_pos h]
    simp [h]
  · rw [if_neg h]
    simp [h]

theorem Ensures.mono {m : Program σ α} {R : α → σ → Prop} (h : Ensures m s R)
    (himp : ∀ a t, R a t → Q a t) : Ensures m s Q :=
  fun a t hrun => himp a t (h a t hrun)

theorem Ensures.and {m : Program σ α} {R : α → σ → Prop} (h : Ensures m s Q)
    (h' : Ensures m s R) : Ensures m s (fun a t => Q a t ∧ R a t) :=
  fun a t hrun => ⟨h a t hrun, h' a t hrun⟩

end

/-! ## Results -/

/-- The program gives its caller a result. -/
def Returns (m : Program σ α) (s : σ) : Prop := ∃ a t, m s = some (a, t)

section
variable {s : σ} {m : Program σ β} {f : β → Program σ α}

theorem Returns.pure (a : α) (s : σ) : Returns (Pure.pure a : Program σ α) s := ⟨a, s, rfl⟩

theorem Returns.bind (hm : Returns m s) (hf : Ensures m s (fun b t => Returns (f b) t)) :
    Returns (m >>= f) s := by
  obtain ⟨b, t, hrun⟩ := hm
  obtain ⟨a, u, hrest⟩ := hf b t hrun
  refine ⟨a, u, ?_⟩
  show (m s).bind (fun p => f p.1 p.2) = some (a, u)
  rw [hrun]
  exact hrest

theorem Returns.ensures {Q : β → σ → Prop} (hm : Returns m s) (h : Ensures m s Q) :
    ∃ b t, m s = some (b, t) ∧ Q b t := by
  obtain ⟨b, t, hrun⟩ := hm
  exact ⟨b, t, hrun, h b t hrun⟩

end

/-! ## What a program preserves -/

def Preserves (I : σ → Prop) (m : Program σ α) : Prop :=
  ∀ s, I s → Ensures m s (fun _ t => I t)

section
variable {I : σ → Prop}

theorem Preserves.pure {a : α} : Preserves I (Pure.pure a) := fun _ h => ensures_pure.mpr h

theorem Preserves.fail : Preserves I (fail : Program σ α) := fun _ _ => ensures_fail.mpr trivial

theorem Preserves.get : Preserves I (MonadState.get : Program σ σ) :=
  fun _ h => ensures_get.mpr h

theorem Preserves.bind {m : Program σ β} {f : β → Program σ α} (hm : Preserves I m)
    (hf : ∀ b, Preserves I (f b)) : Preserves I (m >>= f) :=
  fun s h => ensures_bind.mpr ((hm s h).mono (fun b t ht => hf b t ht))

theorem Preserves.ite {c : Prop} [Decidable c] {m n : Program σ α} (hm : Preserves I m)
    (hn : Preserves I n) : Preserves I (if c then m else n) :=
  fun s h => ensures_ite.mpr ⟨fun _ => hm s h, fun _ => hn s h⟩

end

/-! ## From one condition to another -/

/-- From a state with `I` every result has `J`. -/
def Leads (I J : σ → Prop) (m : Program σ α) : Prop := ∀ s, I s → Ensures m s (fun _ t => J t)

section
variable {I J K : σ → Prop}

theorem Leads.bind {m : Program σ β} {f : β → Program σ α} (hm : Leads I K m)
    (hf : ∀ b, Leads K J (f b)) : Leads I J (m >>= f) :=
  fun s h => ensures_bind.mpr ((hm s h).mono (fun b t ht => hf b t ht))

theorem Leads.ite {c : Prop} [Decidable c] {m n : Program σ α} (hm : Leads I J m)
    (hn : Leads I J n) : Leads I J (if c then m else n) :=
  fun s h => ensures_ite.mpr ⟨fun _ => hm s h, fun _ => hn s h⟩

theorem Preserves.leads {m : Program σ α} (h : Preserves I m) (hweak : ∀ s, I s → J s) :
    Leads I J m := fun s hs => (h s hs).mono (fun _ t ht => hweak t ht)

theorem Leads.of {m : Program σ α} (h : Preserves J m) (hweak : ∀ s, I s → J s) :
    Leads I J m := fun s hs => h s (hweak s hs)

end

end Program
end EpollHttp
