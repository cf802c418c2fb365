import EpollHttp.Lib.Program

/-
Two programs side by side.

`Coupled R R' m m'` says of two states that `R` relates that either neither program gives a result
from them, or both give the same one and leave states that `R'` relates.  The rules follow the
shape of the programs, as those of one program do.
-/

namespace EpollHttp
namespace Program

variable {σ α β : Type}

/-- What two programs come to. -/
inductive Matched (R : σ → σ → Prop) : Option (α × σ) → Option (α × σ) → Prop
  | failed : Matched R none none
  | returned (a : α) (s s' : σ) (h : R s s') : Matched R (some (a, s)) (some (a, s'))

def Coupled (R R' : σ → σ → Prop) (m m' : Program σ α) : Prop :=
  ∀ s s', R s s' → Matched R' (m s) (m' s')

theorem Matched.mono {R R' : σ → σ → Prop} {x x' : Option (α × σ)} (hx : Matched R x x')
    (h : ∀ s s', R s s' → R' s s') : Matched R' x x' := by
  cases hx with
  | failed => exact .failed
  | returned a s s' hs => exact .returned a s s' (h s s' hs)

theorem Matched.result {R : σ → σ → Prop} {x x' : Option (α × σ)} (hx : Matched R x x') :
    x'.map Prod.fst = x.map Prod.fst := by
  cases hx with
  | failed => rfl
  | returned a s s' _ => rfl

theorem Matched.bind {R R' : σ → σ → Prop} {x x' : Option (β × σ)} {f f' : β → Program σ α}
    (hx : Matched R x x') (hf : ∀ b s s', R s s' → Matched R' (f b s) (f' b s')) :
    Matched R' (x.bind (fun y => f y.1 y.2)) (x'.bind (fun y => f' y.1 y.2)) := by
  cases hx with
  | failed => exact .failed
  | returned b s s' hs => exact hf b s s' hs

namespace Coupled

variable {R R' R₁ : σ → σ → Prop} {m m' n n' : Program σ α}

theorem pure {a : α} : Coupled R R (Pure.pure a) (Pure.pure a) := fun s s' h => .returned a s s' h

theorem fail : Coupled R R' (Program.fail : Program σ α) Program.fail := fun _ _ _ => .failed

theorem bind {p p' : Program σ β} {f f' : β → Program σ α} (hp : Coupled R R₁ p p')
    (hf : ∀ b, Coupled R₁ R' (f b) (f' b)) : Coupled R R' (p >>= f) (p' >>= f') :=
  fun s s' h => (hp s s' h).bind hf

theorem ite {c : Prop} [Decidable c] (hm : Coupled R R' m m') (hn : Coupled R R' n n') :
    Coupled R R' (if c then m else n) (if c then m' else n') := by
  by_cases h : c
  · rw [if_pos h, if_pos h]
    exact hm
  · rw [if_neg h, if_neg h]
    exact hn

/-- The states that are read are related. -/
theorem read {f f' : σ → Program σ α} (hf : ∀ t t', R t t' → Coupled R R' (f t) (f' t')) :
    Coupled R R' (get >>= f) (get >>= f') :=
  fun s s' h => hf s s' h s s' h

/-- The programs go on from the states that were read. -/
theorem readHere {f f' : σ → Program σ α}
    (hf : ∀ t t', R t t' → Coupled (fun s s' => s = t ∧ s' = t') R' (f t) (f' t')) :
    Coupled R R' (get >>= f) (get >>= f') :=
  fun s s' h => hf s s' h s s' ⟨rfl, rfl⟩

theorem assign {g g' : σ → σ} (hg : ∀ s s', R s s' → R' (g s) (g' s')) :
    Coupled R R' (modify g : Program σ PUnit) (modify g') :=
  fun s s' h => Matched.returned PUnit.unit (g s) (g' s') (hg s s' h)

theorem pre (hm : Coupled R₁ R' m m') (h : ∀ s s', R s s' → R₁ s s') : Coupled R R' m m' :=
  fun s s' hs => hm s s' (h s s' hs)

theorem post (hm : Coupled R R₁ m m') (h : ∀ s s', R₁ s s' → R' s s') : Coupled R R' m m' :=
  fun s s' hs => (hm s s' hs).mono h

/-- The programs go on with a result of which more is known. -/
theorem bindOf {P : β → Prop} {p p' : Program σ β} {f f' : β → Program σ α}
    (hp : Coupled R R₁ p p') (hP : ∀ s, Ensures p s (fun b _ => P b))
    (hf : ∀ b, P b → Coupled R₁ R' (f b) (f' b)) : Coupled R R' (p >>= f) (p' >>= f') := by
  intro s s' h
  have hall : ∀ b t, p s = some (b, t) → P b := hP s
  have hx := hp s s' h
  show Matched R' ((p s).bind (fun y => f y.1 y.2)) ((p' s').bind (fun y => f' y.1 y.2))
  revert hall hx
  generalize p s = x
  generalize p' s' = x'
  intro hall hx
  cases hx with
  | failed => exact .failed
  | returned b t t' ht => exact hf b (hall b t rfl) t t' ht

end Coupled
end Program
end EpollHttp
