import EpollHttp.BlockStorage

/-
Users of a `BlockStorage`.

A user allocates items, stores into the fields of items it holds, and frees items it
holds.
-/

namespace EpollHttp
namespace StorageClient

open BlockStorage Links

variable {T : Type} [Inhabited T] {blockSize : Nat}

/-- The storage and the items that were allocated and not freed. -/
structure Client (T : Type) where
  storage : BlockStorage T
  allocated : List Nat := []

inductive Call (T : Type)
  | allocate
  | free (p : Nat)
  | assign (p : Nat) (v : T)

/-- A call on an item that is not held is refused. -/
def step (blockSize : Nat) (c : Client T) : Call T → Option (Client T)
  | .allocate =>
    match c.storage.allocate blockSize with
    | some (p, storage) => some { storage := storage, allocated := p :: c.allocated }
    | none => none
  | .free p =>
    if p ∈ c.allocated then
      some { storage := c.storage.free p, allocated := c.allocated.erase p }
    else none
  | .assign p v =>
    if p ∈ c.allocated then some { c with storage := c.storage.assign p v } else none

def fresh : Client T := { storage := empty }

/-- The used list holds what is allocated. -/
def Holds (blockSize : Nat) (c : Client T) : Prop :=
  ∃ used unused, Inv blockSize c.storage used unused ∧ used.Perm c.allocated

theorem holds_fresh : Holds blockSize (fresh : Client T) :=
  ⟨[], [], inv_empty blockSize, List.Perm.nil⟩

theorem holds_step (hb : 1 ≤ blockSize) {c c' : Client T} {call : Call T}
    (h : Holds blockSize c) (hstep : step blockSize c call = some c') : Holds blockSize c' := by
  obtain ⟨used, unused, hinv, hperm⟩ := h
  cases call with
  | allocate =>
    obtain ⟨p, s', unused', heq, _, hinv', _⟩ := allocate_spec hb hinv
    simp only [step, heq] at hstep
    rw [← Option.some.inj hstep]
    exact ⟨p :: used, unused', hinv', hperm.cons p⟩
  | free p =>
    simp only [step] at hstep
    split at hstep
    · rename_i hp
      obtain ⟨a, b, rfl⟩ := List.append_of_mem (hperm.mem_iff.mpr hp)
      rw [← Option.some.inj hstep]
      refine ⟨a ++ b, p :: unused, inv_free hinv, ?_⟩
      have hcons : (p :: (a ++ b)).Perm c.allocated := List.perm_middle.symm.trans hperm
      simpa using hcons.erase p
    · simp at hstep
  | assign p v =>
    simp only [step] at hstep
    split at hstep
    · rw [← Option.some.inj hstep]
      exact ⟨used, unused, inv_assign hinv p v, hperm⟩
    · simp at hstep

/-! ## What a user may rely on -/

structure Correct (blockSize : Nat) (c : Client T) : Prop where
  /-- An item is not handed out again while it is allocated. -/
  fresh : ∃ p s, c.storage.allocate blockSize = some (p, s) ∧ p ∉ c.allocated
  /-- The walk from `head()` ends and visits every allocated item once and nothing else. -/
  walk : ∃ fuel used, c.storage.enumerate fuel = some used ∧ used.Nodup ∧
    ∀ p, p ∈ used ↔ p ∈ c.allocated
  forward : ∀ p ∈ c.allocated, ∀ q, c.storage.nextOf p = some q →
    q ∈ c.allocated ∧ c.storage.prevOf q = some p
  backward : ∀ p ∈ c.allocated, ∀ q, c.storage.prevOf p = some q →
    q ∈ c.allocated ∧ c.storage.nextOf q = some p
  head : ∀ p, c.storage.head = some p → c.storage.prevOf p = none
  /-- The free list ends, and both lists hold every item of every block exactly once. -/
  lists : ∃ used unused, Chain c.storage.nextOf c.storage.usedListHead used ∧
    Chain c.storage.nextOf c.storage.freeListHead unused ∧ (used ++ unused).Nodup ∧
    ∀ p, p ∈ used ++ unused ↔ p ∈ c.storage.allItems blockSize
  info : ∃ fuel, c.storage.getStorageInfo fuel = some c.allocated.length
  /-- A further call changes no field of an item but the one it stores to. -/
  fields : ∀ call c', step blockSize c call = some c' →
    ∀ q ∈ c.storage.allItems blockSize, (∀ v, call ≠ .assign q v) →
      (c'.storage.items q).fields = (c.storage.items q).fields

theorem links_mutual {next prev : Nat → Option Nat} {head : Option Nat} {used : List Nat}
    (hc : Chain next head used) (hb : BackLinks prev none used) {p q : Nat} :
    (p ∈ used → next p = some q → q ∈ used ∧ prev q = some p) ∧
      (p ∈ used → prev p = some q → q ∈ used ∧ next q = some p) := by
  constructor
  · intro hp hnext
    obtain ⟨a, b, rfl⟩ := List.append_of_mem hp
    rw [chain_next hc] at hnext
    cases b with
    | nil => simp at hnext
    | cons x b =>
      have hx : x = q := Option.some.inj hnext
      subst hx
      refine ⟨by simp, ?_⟩
      have hsplit : a ++ p :: x :: b = (a ++ [p]) ++ x :: b := by simp
      rw [hsplit] at hb
      rw [backLinks_prev hb]
      simp
  · intro hp hprev
    obtain ⟨a, b, rfl⟩ := List.append_of_mem hp
    rw [backLinks_prev hb, Option.or_none] at hprev
    obtain ⟨a', rfl⟩ := List.getLast?_eq_some_iff.mp hprev
    refine ⟨by simp, ?_⟩
    have hsplit : a' ++ [q] ++ p :: b = a' ++ q :: p :: b := by simp
    rw [hsplit] at hc
    rw [chain_next hc]
    rfl

theorem Holds.correct (hb : 1 ≤ blockSize) {c : Client T} (h : Holds blockSize c) :
    Correct blockSize c := by
  obtain ⟨used, unused, hinv, hperm⟩ := h
  have hwalk : c.storage.enumerate used.length = some used :=
    walk_chain hinv.usedChain (Nat.le_refl _)
  have hnodup : used.Nodup := (List.nodup_append.mp hinv.nodup).1
  refine ⟨?_, ⟨_, used, hwalk, hnodup, fun p => hperm.mem_iff⟩, ?_, ?_, ?_,
    ⟨used, unused, hinv.usedChain, hinv.freeChain, hinv.nodup, hinv.items⟩, ⟨used.length, ?_⟩, ?_⟩
  · obtain ⟨p, s', _, heq, hp, _⟩ := allocate_spec hb hinv
    exact ⟨p, s', heq, fun hmem => hp (hperm.mem_iff.mpr hmem)⟩
  · intro p hp q hq
    obtain ⟨hmem, hprev⟩ :=
      (links_mutual hinv.usedChain hinv.usedBack).1 (hperm.mem_iff.mpr hp) hq
    exact ⟨hperm.mem_iff.mp hmem, hprev⟩
  · intro p hp q hq
    obtain ⟨hmem, hnext⟩ :=
      (links_mutual hinv.usedChain hinv.usedBack).2 (hperm.mem_iff.mpr hp) hq
    exact ⟨hperm.mem_iff.mp hmem, hnext⟩
  · intro p hp
    have hhead := chain_head? hinv.usedChain
    rw [show c.storage.usedListHead = some p from hp] at hhead
    obtain ⟨b, rfl⟩ := List.head?_eq_some_iff.mp hhead.symm
    exact hinv.usedBack.1
  · rw [getStorageInfo, hwalk, Option.map_some, hperm.length_eq]
  · intro call c' hstep q hq hne
    cases call with
    | allocate =>
      obtain ⟨p, s', _, heq, _, _, hfields⟩ := allocate_spec hb hinv
      simp only [step, heq] at hstep
      rw [← Option.some.inj hstep]
      exact hfields q hq
    | free p =>
      simp only [step] at hstep
      split at hstep
      · rename_i hp
        obtain ⟨a, b, rfl⟩ := List.append_of_mem (hperm.mem_iff.mpr hp)
        rw [← Option.some.inj hstep]
        exact free_fields _ p q
      · simp at hstep
    | assign p v =>
      simp only [step] at hstep
      split at hstep
      · have hqp : q ≠ p := fun heq => hne v (by rw [heq])
        rw [← Option.some.inj hstep]
        show (Function.update c.storage.items p _ q).fields = _
        rw [Function.update_of_ne hqp]
      · simp at hstep

/-- For every block size and every sequence of calls the storage is a correct allocator with
enumeration. -/
theorem run_correct (hb : 1 ≤ blockSize) {calls : List (Call T)} {c : Client T}
    (h : Run.run (step blockSize) fresh calls = some c) : Correct blockSize c :=
  (Run.run_invariant (fun _ _ _ hold hstep => holds_step hb hold hstep) holds_fresh h).correct hb

/-- Blocks of two items: growth, and removal in the middle of the used list. -/
theorem run_correct_middle :
    ∃ c : Client Nat, Run.run (step 2) fresh
      [.allocate, .allocate, .allocate, .assign 1 7, .free 1, .allocate] = some c ∧
      Correct 2 c := by
  have hsome : ((Run.run (step 2) fresh
      [.allocate, .allocate, .allocate, .assign 1 7, .free 1, .allocate] :
        Option (Client Nat))).isSome = true := by decide
  obtain ⟨c, hc⟩ := Option.isSome_iff_exists.mp hsome
  exact ⟨c, hc, run_correct (by decide) hc⟩

end StorageClient
end EpollHttp
