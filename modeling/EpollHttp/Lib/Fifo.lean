import Mathlib.Tactic.Common
import Mathlib.Data.List.Basic

/-
First-in first-out transfer with its whole history.

What was put in is what was got out followed by what is still held, so nothing is lost,
duplicated or reordered on the way.
-/

namespace EpollHttp

structure Fifo (α : Type) where
  put : List α
  got : List α
  held : List α
  order : put = got ++ held

namespace Fifo

variable {α : Type}

def empty : Fifo α := { put := [], got := [], held := [], order := rfl }

def write (q : Fifo α) (xs : List α) : Fifo α where
  put := q.put ++ xs
  got := q.got
  held := q.held ++ xs
  order := by rw [q.order, List.append_assoc]

def read (q : Fifo α) (k : Nat) : Fifo α where
  put := q.put
  got := q.got ++ q.held.take k
  held := q.held.drop k
  order := by rw [q.order, List.append_assoc, List.take_append_drop]

/-- What came out is a part of what went in, in order. -/
theorem got_front (q : Fifo α) : q.got <+: q.put := ⟨q.held, q.order.symm⟩

/-- Everything came out when nothing is held. -/
theorem got_all {q : Fifo α} (h : q.held = []) : q.got = q.put := by
  rw [q.order, h, List.append_nil]

end Fifo
end EpollHttp
