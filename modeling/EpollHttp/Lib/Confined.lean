import Mathlib.Logic.Function.Basic
import Mathlib.Tactic.Common

/-
Objects that are numbered in the order they come up.

Something that is recorded of every object is confined when it changed for some of the objects
only, or for objects that came up later.
-/

namespace EpollHttp

/-- Of the objects below `n`, only those that `may` change did. -/
def Confined {α : Type} (n : Nat) (may : Nat → Prop) (f f' : Nat → α) : Prop :=
  ∀ id < n, ¬ may id → f' id = f id

namespace Confined

variable {α : Type} {n id : Nat} {may : Nat → Prop} {f f' f'' : Nat → α}

theorem refl (n : Nat) (may : Nat → Prop) (f : Nat → α) : Confined n may f f := fun _ _ _ => rfl

theorem congr (h : Confined n may f f') (heq : f'' = f') : Confined n may f f'' := by
  rw [heq]
  exact h

/-- One object is changed that came up later, or that may change. -/
theorem update (h : Confined n may f f') (hid : n ≤ id ∨ may id) (x : α) :
    Confined n may f (Function.update f' id x) := by
  intro id' hlt hnot
  have hne : id' ≠ id := by
    rintro rfl
    rcases hid with hle | hm
    · exact absurd hlt (Nat.not_lt.mpr hle)
    · exact hnot hm
  rw [Function.update_of_ne hne]
  exact h id' hlt hnot

end Confined
end EpollHttp
