import Mathlib.Tactic.Common
import Mathlib.Data.List.Basic
import Mathlib.Data.List.Induction
import Mathlib.Logic.Function.Basic

/-
Linked lists in a pointer graph.

`Chain next head l` says that following `next` from `head` visits the nodes of `l` and then
stops; `BackLinks prev back l` says that `prev` leads from every node of `l` to the one in
front of it, and from the first to `back`.  Both depend on the links of the nodes of `l`
only.
-/

namespace EpollHttp
namespace Links

variable {α : Type} {next prev : α → Option α}

def Chain (next : α → Option α) : Option α → List α → Prop
  | head, [] => head = none
  | head, p :: l => head = some p ∧ Chain next (next p) l

def BackLinks (prev : α → Option α) : Option α → List α → Prop
  | _, [] => True
  | back, p :: l => prev p = back ∧ BackLinks prev (some p) l

/-! ## Only the nodes matter -/

theorem chain_congr {next' : α → Option α} {head : Option α} {l : List α}
    (h : ∀ p ∈ l, next' p = next p) (hc : Chain next head l) : Chain next' head l := by
  induction l generalizing head with
  | nil => exact hc
  | cons p l ih =>
    refine ⟨hc.1, ?_⟩
    rw [h p (by simp)]
    exact ih (fun q hq => h q (by simp [hq])) hc.2

theorem backLinks_congr {prev' : α → Option α} {back : Option α} {l : List α}
    (h : ∀ p ∈ l, prev' p = prev p) (hb : BackLinks prev back l) : BackLinks prev' back l := by
  induction l generalizing back with
  | nil => trivial
  | cons p l ih =>
    refine ⟨?_, ih (fun q hq => h q (by simp [hq])) hb.2⟩
    rw [h p (by simp)]
    exact hb.1

/-! ## Walking -/

/-- The nodes visited from `cur` in at most `fuel` steps, `none` when the walk goes on. -/
def walk (next : α → Option α) : Nat → Option α → Option (List α)
  | _, none => some []
  | 0, some _ => none
  | fuel + 1, some p => (walk next fuel (next p)).map (p :: ·)

theorem walk_chain {head : Option α} {l : List α} (h : Chain next head l) {fuel : Nat}
    (hfuel : l.length ≤ fuel) : walk next fuel head = some l := by
  induction l generalizing head fuel with
  | nil =>
    rw [show head = none from h]
    cases fuel <;> rfl
  | cons p l ih =>
    obtain ⟨rfl, htail⟩ := h
    cases fuel with
    | zero => simp at hfuel
    | succ fuel =>
      rw [walk, ih htail (by simpa using hfuel)]
      rfl

theorem chain_head? {head : Option α} {l : List α} (h : Chain next head l) : head = l.head? := by
  cases l with
  | nil => exact h
  | cons p l => exact h.1

/-- The next node of a member is what stands behind it. -/
theorem chain_next {head : Option α} {a b : List α} {p : α} (h : Chain next head (a ++ p :: b)) :
    next p = b.head? := by
  induction a generalizing head with
  | nil => exact chain_head? h.2
  | cons x a ih => exact ih h.2

/-- The previous node of a member is what stands in front of it. -/
theorem backLinks_prev {back : Option α} {a b : List α} {p : α}
    (h : BackLinks prev back (a ++ p :: b)) : prev p = a.getLast?.or back := by
  induction a generalizing back with
  | nil => exact h.1
  | cons x a ih =>
    rw [ih h.2, List.getLast?_cons]
    cases a.getLast? <;> rfl

/-! ## Pushing and unlinking -/

variable [DecidableEq α]

theorem chain_update {head v : Option α} {l : List α} {x : α} (hx : x ∉ l)
    (hc : Chain next head l) : Chain (Function.update next x v) head l := by
  refine chain_congr (fun p hp => Function.update_of_ne ?_ _ _) hc
  rintro rfl
  exact hx hp

theorem backLinks_update {back v : Option α} {l : List α} {x : α} (hx : x ∉ l)
    (hb : BackLinks prev back l) : BackLinks (Function.update prev x v) back l := by
  refine backLinks_congr (fun p hp => Function.update_of_ne ?_ _ _) hb
  rintro rfl
  exact hx hp

theorem chain_push {head : Option α} {l : List α} {p : α} (h : Chain next head l) (hp : p ∉ l) :
    Chain (Function.update next p head) (some p) (p :: l) := by
  refine ⟨rfl, ?_⟩
  rw [Function.update_self]
  exact chain_update hp h

/-- The old head points back to the pushed node, which has nothing in front. -/
def pushPrev (prev : α → Option α) (head : Option α) (p : α) : α → Option α :=
  match head with
  | some q => Function.update (Function.update prev q (some p)) p none
  | none => Function.update prev p none

theorem backLinks_push {l : List α} {p : α} (h : BackLinks prev none l) (hp : p ∉ l)
    (hl : l.Nodup) : BackLinks (pushPrev prev l.head? p) none (p :: l) := by
  cases l with
  | nil => exact ⟨Function.update_self .., trivial⟩
  | cons q l =>
    refine ⟨Function.update_self .., backLinks_update hp ⟨Function.update_self .., ?_⟩⟩
    exact backLinks_update (List.nodup_cons.mp hl).1 h.2

/-- The link of the node in front of `p` skips `p`. -/
def unlinkNext (next prev : α → Option α) (p : α) : α → Option α :=
  match prev p with
  | some q => Function.update next q (next p)
  | none => next

/-- The back link of the node behind `p` skips `p`. -/
def unlinkPrev (next prev : α → Option α) (p : α) : α → Option α :=
  match next p with
  | some q => Function.update prev q (prev p)
  | none => prev

theorem chain_skip {head : Option α} {a b : List α} {q p : α}
    (h : Chain next head (a ++ q :: p :: b)) (hl : (a ++ q :: p :: b).Nodup) :
    Chain (Function.update next q (next p)) head (a ++ q :: b) := by
  induction a generalizing head with
  | nil =>
    have hq : q ∉ b := fun hq => (List.nodup_cons.mp hl).1 (by simp [hq])
    refine ⟨h.1, ?_⟩
    rw [Function.update_self]
    exact chain_update hq h.2.2
  | cons x a ih =>
    obtain ⟨hx, hl'⟩ := List.nodup_cons.mp hl
    refine ⟨h.1, ?_⟩
    rw [Function.update_of_ne (fun heq => hx (by simp [heq]))]
    exact ih h.2 hl'

theorem backLinks_skip {back : Option α} {a b : List α} {p q : α}
    (h : BackLinks prev back (a ++ p :: q :: b)) (hl : (a ++ p :: q :: b).Nodup) :
    BackLinks (Function.update prev q (prev p)) back (a ++ q :: b) := by
  induction a generalizing back with
  | nil =>
    have hq : q ∉ b := (List.nodup_cons.mp (List.nodup_cons.mp hl).2).1
    refine ⟨?_, backLinks_update hq h.2.2⟩
    rw [Function.update_self]
    exact h.1
  | cons x a ih =>
    obtain ⟨hx, hl'⟩ := List.nodup_cons.mp hl
    refine ⟨?_, ih h.2 hl'⟩
    rw [Function.update_of_ne (fun heq => hx (by simp [heq]))]
    exact h.1

/-- Unlinking a node leaves the others linked in their order. -/
theorem chain_unlink {head : Option α} {a b : List α} {p : α}
    (h : Chain next head (a ++ p :: b)) (hb : BackLinks prev none (a ++ p :: b))
    (hl : (a ++ p :: b).Nodup) :
    Chain (unlinkNext next prev p) (if head = some p then next p else head) (a ++ b) := by
  have hprev := backLinks_prev hb
  unfold unlinkNext
  rw [hprev]
  cases a using List.reverseRecOn with
  | nil =>
    rw [if_pos h.1]
    exact h.2
  | append_singleton a q =>
    rw [List.append_assoc, List.singleton_append] at h hl
    have hne : head ≠ some p := by
      rw [chain_head? h]
      intro heq
      cases a with
      | nil =>
        have hqp : q = p := Option.some.inj heq
        exact (List.nodup_cons.mp hl).1 (by simp [hqp])
      | cons x a =>
        have hxp : x = p := Option.some.inj heq
        exact (List.nodup_cons.mp hl).1 (by simp [hxp])
    rw [if_neg hne, List.append_assoc, List.singleton_append]
    simpa using chain_skip h hl

theorem backLinks_unlink {head : Option α} {a b : List α} {p : α}
    (h : Chain next head (a ++ p :: b)) (hb : BackLinks prev none (a ++ p :: b))
    (hl : (a ++ p :: b).Nodup) : BackLinks (unlinkPrev next prev p) none (a ++ b) := by
  unfold unlinkPrev
  rw [chain_next h]
  cases b with
  | nil =>
    have hfront : ∀ {back : Option α} {a : List α}, BackLinks prev back (a ++ [p]) →
        BackLinks prev back a := by
      intro back a
      induction a generalizing back with
      | nil => exact fun _ => trivial
      | cons x a ih => exact fun hx => ⟨hx.1, ih hx.2⟩
    rw [List.append_nil]
    exact hfront hb
  | cons q b => exact backLinks_skip hb hl

end Links
end EpollHttp
