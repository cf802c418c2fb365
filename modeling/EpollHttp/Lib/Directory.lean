import Mathlib.Tactic.Common
import Mathlib.Data.List.Basic
import Mathlib.Logic.Function.Basic

/-
A directory: names, and the files that they name.

A file is a number, and numbers are given out in turn, so that a new file differs from every file
that was ever there.  Names move between files without a change of what the files hold.
-/

namespace EpollHttp

/-- `entry` gives the file that a name stands for, `data` what a file holds, and the files from
`next` on do not exist yet. -/
structure Directory (Name Cell : Type) where
  entry : Name → Option Nat
  data : Nat → List Cell
  next : Nat
  entry_lt : ∀ {name file}, entry name = some file → file < next

namespace Directory

section
variable {Name Cell : Type}

/-- A directory without names. -/
def empty : Directory Name Cell where
  entry := fun _ => none
  data := fun _ => []
  next := 0
  entry_lt := fun h => absurd h.symm (Option.some_ne_none _)

/-- What stands behind a name. -/
def read (d : Directory Name Cell) (name : Name) : Option (List Cell) := (d.entry name).map d.data

/-- The file holds something else from now on. -/
def setData (file : Nat) (cells : List Cell) (d : Directory Name Cell) : Directory Name Cell :=
  { d with data := Function.update d.data file cells }

/-- The file is cut, or filled up with `blank`, to `size` cells. -/
def truncate (blank : Cell) (file size : Nat) (d : Directory Name Cell) : Directory Name Cell :=
  d.setData file ((d.data file).take size ++
    List.replicate (size - (d.data file).length) blank)

@[simp] theorem entry_setData (d : Directory Name Cell) (file : Nat) (cells : List Cell) :
    (d.setData file cells).entry = d.entry := rfl

theorem data_setData (d : Directory Name Cell) (file : Nat) (cells : List Cell) :
    (d.setData file cells).data = Function.update d.data file cells := rfl

theorem truncate_empty {d : Directory Name Cell} {blank : Cell} {file size : Nat}
    (h : d.data file = []) :
    d.truncate blank file size = d.setData file (List.replicate size blank) := by
  unfold truncate
  rw [h, List.take_nil, List.nil_append]
  rfl

end

variable {Name Cell : Type} [DecidableEq Name]

def remove (name : Name) (d : Directory Name Cell) : Directory Name Cell where
  entry := Function.update d.entry name none
  data := d.data
  next := d.next
  entry_lt := by
    intro name' file h
    by_cases heq : name' = name
    · rw [heq, Function.update_self] at h
      exact absurd h.symm (Option.some_ne_none _)
    · rw [Function.update_of_ne heq] at h
      exact d.entry_lt h

/-- The name `new` for the file of `old`.  Nothing happens without such a file, nor when both names
stand for it. -/
def rename (old new : Name) (d : Directory Name Cell) : Directory Name Cell :=
  if d.entry old = none ∨ d.entry new = d.entry old then d
  else
    { d with
      entry := Function.update (Function.update d.entry old none) new (d.entry old)
      entry_lt := by
        intro name' file h
        by_cases hnew : name' = new
        · rw [hnew, Function.update_self] at h
          exact d.entry_lt h
        · rw [Function.update_of_ne hnew] at h
          by_cases hname : name' = old
          · rw [hname, Function.update_self] at h
            exact absurd h.symm (Option.some_ne_none _)
          · rw [Function.update_of_ne hname] at h
            exact d.entry_lt h }

/-- The file behind the name, a new one that is empty if there is none. -/
def create (name : Name) (d : Directory Name Cell) : Nat × Directory Name Cell :=
  match d.entry name with
  | some file => (file, d)
  | none => (d.next,
    { entry := Function.update d.entry name (some d.next)
      data := Function.update d.data d.next []
      next := d.next + 1
      entry_lt := by
        intro name' file h
        by_cases heq : name' = name
        · rw [heq, Function.update_self] at h
          exact Option.some.inj h ▸ Nat.lt_succ_self _
        · rw [Function.update_of_ne heq] at h
          exact Nat.lt_succ_of_lt (d.entry_lt h) })

@[simp] theorem data_remove (d : Directory Name Cell) (name : Name) :
    (d.remove name).data = d.data := rfl

@[simp] theorem next_remove (d : Directory Name Cell) (name : Name) :
    (d.remove name).next = d.next := rfl

@[simp] theorem entry_remove_self (d : Directory Name Cell) (name : Name) :
    (d.remove name).entry name = none := Function.update_self ..

section
variable {d : Directory Name Cell} {name old new : Name}

theorem entry_remove_other (h : name ≠ old) : (d.remove old).entry name = d.entry name :=
  Function.update_of_ne h ..

theorem rename_cases (old new : Name) (d : Directory Name Cell) :
    (d.rename old new = d ∧ (d.entry old = none ∨ d.entry new = d.entry old)) ∨
      ((d.rename old new).entry = Function.update (Function.update d.entry old none) new
          (d.entry old) ∧
        (d.rename old new).data = d.data ∧ (d.rename old new).next = d.next) := by
  unfold rename
  split
  · rename_i h
    exact Or.inl ⟨rfl, h⟩
  · exact Or.inr ⟨rfl, rfl, rfl⟩

@[simp] theorem data_rename (d : Directory Name Cell) (old new : Name) :
    (d.rename old new).data = d.data := by
  rcases rename_cases old new d with ⟨heq, _⟩ | ⟨_, hdata, _⟩
  · rw [heq]
  · exact hdata

@[simp] theorem next_rename (d : Directory Name Cell) (old new : Name) :
    (d.rename old new).next = d.next := by
  rcases rename_cases old new d with ⟨heq, _⟩ | ⟨_, _, hnext⟩
  · rw [heq]
  · exact hnext

theorem entry_rename_other (hold : name ≠ old) (hnew : name ≠ new) :
    (d.rename old new).entry name = d.entry name := by
  rcases rename_cases old new d with ⟨heq, _⟩ | ⟨hentry, _, _⟩
  · rw [heq]
  · rw [hentry, Function.update_of_ne hnew, Function.update_of_ne hold]

/-- A name that is free takes over. -/
theorem entry_rename_new (hnew : d.entry new = none) :
    (d.rename old new).entry new = d.entry old := by
  rcases rename_cases old new d with ⟨heq, hold | hold⟩ | ⟨hentry, _, _⟩
  · rw [heq, hold, hnew]
  · rw [heq, hold]
  · rw [hentry, Function.update_self]

theorem entry_rename_old (hne : old ≠ new) (hnew : d.entry new = none) :
    (d.rename old new).entry old = none := by
  rcases rename_cases old new d with ⟨heq, hold | hold⟩ | ⟨hentry, _, _⟩
  · rw [heq, hold]
  · rw [heq, ← hold, hnew]
  · rw [hentry, Function.update_of_ne hne, Function.update_self]

theorem create_new (h : d.entry name = none) :
    (d.create name).1 = d.next ∧
      (d.create name).2.entry = Function.update d.entry name (some d.next) ∧
      (d.create name).2.data = Function.update d.data d.next [] ∧
      (d.create name).2.next = d.next + 1 := by
  unfold create
  split
  · rename_i file hfile
    rw [h] at hfile
    exact absurd hfile.symm (Option.some_ne_none _)
  · exact ⟨rfl, rfl, rfl, rfl⟩

end

end Directory
end EpollHttp
