import Mathlib.Tactic.Common
import Mathlib.Data.List.Basic

/-
Scanning loops over a list.

A loop `while(i < size && p(data[i])) ++i` leaves `takeWhile p` behind it and
`dropWhile p` in front of it.  A scanner that resumes on a longer input sees the
same token as before exactly when its stop symbol was already visible, and the
lemmas of this file say so once for every scanner.
-/

namespace EpollHttp
namespace Scan

variable {α : Type} {p : α → Bool}

/-- The scanned token satisfies the class of the loop. -/
theorem token_class {l : List α} {x : α} (h : x ∈ l.takeWhile p) : p x = true := by
  have hall : (l.takeWhile p).all p = true := List.all_takeWhile
  exact List.all_eq_true.mp hall x h

/-- The symbol the loop stops at is outside the class. -/
theorem stop_not {l t : List α} {c : α} (h : l.dropWhile p = c :: t) : p c = false := by
  have hne : l.dropWhile p ≠ [] := by rw [h]; exact List.cons_ne_nil c t
  have hstop := List.head_dropWhile_not p hne
  simpa only [h, List.head_cons] using hstop

theorem split {l t : List α} {c : α} (h : l.dropWhile p = c :: t) :
    l = l.takeWhile p ++ c :: t := by
  rw [← h, List.takeWhile_append_dropWhile]

theorem takeWhile_token {tok t : List α} {c : α} (htok : ∀ x ∈ tok, p x = true)
    (hc : p c = false) : (tok ++ c :: t).takeWhile p = tok := by
  rw [List.takeWhile_append_of_pos htok, List.takeWhile_cons_of_neg (by simp [hc]),
    List.append_nil]

theorem dropWhile_token {tok t : List α} {c : α} (htok : ∀ x ∈ tok, p x = true)
    (hc : p c = false) : (tok ++ c :: t).dropWhile p = c :: t := by
  rw [List.dropWhile_append_of_pos htok, List.dropWhile_cons_of_neg (by simp [hc])]

/-- The scan ran into the end of what is visible. -/
theorem dropWhile_nil_iff {l : List α} : l.dropWhile p = [] ↔ ∀ x ∈ l, p x = true := by
  induction l with
  | nil => simp
  | cons a l ih =>
    by_cases ha : p a = true
    · simp [List.dropWhile_cons_of_pos ha, ih, ha]
    · simp [List.dropWhile_cons_of_neg ha, ha]

theorem takeWhile_all {l : List α} (h : ∀ x ∈ l, p x = true) : l.takeWhile p = l := by
  have hsplit : l.takeWhile p ++ l.dropWhile p = l := List.takeWhile_append_dropWhile
  rw [dropWhile_nil_iff.mpr h, List.append_nil] at hsplit
  exact hsplit

/-- A token in front of a symbol outside the class, or in front of nothing. -/
theorem takeWhile_ends {tok t : List α} (htok : ∀ x ∈ tok, p x = true)
    (ht : ∀ c ∈ t.head?, p c = false) : (tok ++ t).takeWhile p = tok := by
  cases t with
  | nil => rw [List.append_nil, takeWhile_all htok]
  | cons c t => exact takeWhile_token htok (ht c rfl)

theorem dropWhile_ends {tok t : List α} (htok : ∀ x ∈ tok, p x = true)
    (ht : ∀ c ∈ t.head?, p c = false) : (tok ++ t).dropWhile p = t := by
  cases t with
  | nil => rw [List.append_nil, dropWhile_nil_iff.mpr htok]
  | cons c t => exact dropWhile_token htok (ht c rfl)

/-- A token whose stop symbol is visible stays the same when the input grows. -/
theorem takeWhile_extend {l t e : List α} {c : α} (h : l.dropWhile p = c :: t) :
    (l ++ e).takeWhile p = l.takeWhile p := by
  conv_lhs => rw [split h, List.append_assoc, List.cons_append]
  exact takeWhile_token (fun _ hx => token_class hx) (stop_not h)

theorem dropWhile_extend {l t e : List α} {c : α} (h : l.dropWhile p = c :: t) :
    (l ++ e).dropWhile p = c :: (t ++ e) := by
  conv_lhs => rw [split h, List.append_assoc, List.cons_append]
  exact dropWhile_token (fun _ hx => token_class hx) (stop_not h)

theorem dropWhile_length_le (p : α → Bool) (l : List α) : (l.dropWhile p).length ≤ l.length :=
  (List.dropWhile_suffix p).length_le

end Scan
end EpollHttp
