import Mathlib.Data.List.Basic
import Mathlib.Data.List.Infix
import Mathlib.Tactic.Common

/-
Lexical resolution of paths.

A path is cut at its separators, and its components are pushed on a stack.  The empty component
and `dot` stand for the folder that is on top, and two of them take it away.
-/

namespace EpollHttp
namespace Paths

variable {α : Type}

/-- A component is a part of its path. -/
theorem infix_of_mem_intercalate {sep component : List α} {components : List (List α)}
    (h : component ∈ components) : component <:+: sep.intercalate components := by
  induction components with
  | nil => cases h
  | cons first rest ih =>
    cases rest with
    | nil =>
      rw [List.mem_singleton.mp h, List.intercalate_singleton]
    | cons second rest =>
      rw [List.intercalate_cons_cons]
      rcases List.mem_cons.mp h with rfl | hin
      · rw [List.append_assoc]
        exact (List.prefix_append _ _).isInfix
      · exact (ih hin).trans (List.suffix_append _ _).isInfix

variable [DecidableEq α]

def push (dot : α) (stack : List (List α)) (component : List α) : List (List α) :=
  if component = [] ∨ component = [dot] then stack
  else if component = [dot, dot] then stack.dropLast
  else stack ++ [component]

/-- The folders that lead to where the components end. -/
def resolve (dot : α) (stack components : List (List α)) : List (List α) :=
  components.foldl (push dot) stack

/-- Resolving never leaves a folder without a component that leads out of it. -/
theorem resolve_inside {dot : α} {components : List (List α)} (h : [dot, dot] ∉ components)
    (stack : List (List α)) : stack <+: resolve dot stack components := by
  induction components generalizing stack with
  | nil => exact List.prefix_rfl
  | cons component rest ih =>
    rw [List.mem_cons, not_or] at h
    obtain ⟨hne, hrest⟩ := h
    have hpush : stack <+: push dot stack component := by
      unfold push
      split
      · exact List.prefix_rfl
      · rw [if_neg (Ne.symm hne)]
        exact List.prefix_append _ _
    exact hpush.trans (ih hrest (push dot stack component))

theorem infix_of_mem_splitOn {sep : α} {component path : List α}
    (h : component ∈ path.splitOn sep) : component <:+: path := by
  have hin : component <:+: [sep].intercalate (path.splitOn sep) := infix_of_mem_intercalate h
  rw [List.intercalate_splitOn] at hin
  exact hin

end Paths
end EpollHttp
