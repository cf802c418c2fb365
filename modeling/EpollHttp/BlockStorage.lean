import EpollHttp.Lib.Links
import EpollHttp.Lib.Run
import Mathlib.Data.List.Perm.Subperm

/-
`BlockStorage`: an allocator with enumeration over blocks of items.

Items are addressed by number, block `k` holding the addresses from `k * blockSize` on, and
a null pointer is `none`.  The one `next` link of an item serves the free list and the
doubly linked used list in turn.
-/

namespace EpollHttp
namespace BlockStorage

structure ServiceData where
  next : Option Nat := none
  prev : Option Nat := none
  deriving DecidableEq, Repr

structure Item (T : Type) where
  fields : T
  blockStorageData : ServiceData := {}

end BlockStorage

open BlockStorage in
structure BlockStorage (T : Type) where
  items : Nat → Item T
  blocks : List Nat := []
  freeListHead : Option Nat := none
  usedListHead : Option Nat := none

namespace BlockStorage

open Links

variable {T : Type}

section
variable (s : BlockStorage T)

def nextOf (p : Nat) : Option Nat := (s.items p).blockStorageData.next

def prevOf (p : Nat) : Option Nat := (s.items p).blockStorageData.prev

/-- `p->blockStorageData.next = v` -/
def setNext (p : Nat) (v : Option Nat) : BlockStorage T :=
  { s with
    items := Function.update s.items p
      { s.items p with blockStorageData := { (s.items p).blockStorageData with next := v } } }

/-- `p->blockStorageData.prev = v` -/
def setPrev (p : Nat) (v : Option Nat) : BlockStorage T :=
  { s with
    items := Function.update s.items p
      { s.items p with blockStorageData := { (s.items p).blockStorageData with prev := v } } }

/-- A store to the fields of an item. -/
def assign (p : Nat) (v : T) : BlockStorage T :=
  { s with items := Function.update s.items p { s.items p with fields := v } }

end

/-- The blocks are deleted with all their items. -/
def destroy (s : BlockStorage T) : BlockStorage T :=
  { s with blocks := [], freeListHead := none, usedListHead := none }

/-- The items of a new block come one after the other in the free list. -/
def allocateBlock (blockSize : Nat) [Inhabited T] (s : BlockStorage T) : BlockStorage T :=
  let base := s.blocks.length * blockSize
  { s with
    items := fun p =>
      if base ≤ p ∧ p < base + blockSize then
        { fields := default
          blockStorageData :=
            { next := if p + 1 < base + blockSize then some (p + 1) else none } }
      else s.items p
    blocks := s.blocks.length :: s.blocks
    freeListHead := some base }

def addToUsedList (s : BlockStorage T) (newItem : Nat) : BlockStorage T :=
  let s :=
    match s.usedListHead with
    | some h => s.setPrev h (some newItem)
    | none => s
  let s := s.setPrev newItem none
  let s := s.setNext newItem s.usedListHead
  { s with usedListHead := some newItem }

/-! The three `if`s of `removeFromUsedList`. -/

def skipHead (s : BlockStorage T) (item : Nat) : BlockStorage T :=
  if s.usedListHead = some item then { s with usedListHead := s.nextOf item } else s

def skipForward (s : BlockStorage T) (item : Nat) : BlockStorage T :=
  match s.prevOf item with
  | some p => s.setNext p (s.nextOf item)
  | none => s

def skipBackward (s : BlockStorage T) (item : Nat) : BlockStorage T :=
  match s.nextOf item with
  | some n => s.setPrev n (s.prevOf item)
  | none => s

def removeFromUsedList (s : BlockStorage T) (item : Nat) : BlockStorage T :=
  ((s.skipHead item).skipForward item).skipBackward item

/-- The item handed out; `none` would be a null dereference. -/
def allocate (blockSize : Nat) [Inhabited T] (s : BlockStorage T) :
    Option (Nat × BlockStorage T) :=
  let s := if s.freeListHead = none then s.allocateBlock blockSize else s
  match s.freeListHead with
  | some result => some (result, { s with freeListHead := s.nextOf result }.addToUsedList result)
  | none => none

def free (s : BlockStorage T) (p : Nat) : BlockStorage T :=
  let s := s.removeFromUsedList p
  { s.setNext p s.freeListHead with freeListHead := some p }

def head (s : BlockStorage T) : Option Nat := s.usedListHead

def next (s : BlockStorage T) (item : Nat) : Option Nat := s.nextOf item

/-- The enumeration from `head()` on, cut after `fuel` items. -/
def enumerate (s : BlockStorage T) (fuel : Nat) : Option (List Nat) := walk s.next fuel s.head

/-- `allocatedCount`, with the counting loop cut after `fuel` items. -/
def getStorageInfo (s : BlockStorage T) (fuel : Nat) : Option Nat :=
  (s.enumerate fuel).map List.length

/-! ## Links after a store -/

section
variable (s : BlockStorage T) (p : Nat) (v : Option Nat)

@[simp] theorem setNext_nextOf : (s.setNext p v).nextOf = Function.update s.nextOf p v := by
  funext q
  unfold nextOf setNext
  by_cases h : q = p
  · subst h
    simp
  · simp [Function.update_of_ne h]

@[simp] theorem setNext_prevOf : (s.setNext p v).prevOf = s.prevOf := by
  funext q
  unfold prevOf setNext
  by_cases h : q = p
  · subst h
    simp
  · simp [Function.update_of_ne h]

@[simp] theorem setPrev_nextOf : (s.setPrev p v).nextOf = s.nextOf := by
  funext q
  unfold nextOf setPrev
  by_cases h : q = p
  · subst h
    simp
  · simp [Function.update_of_ne h]

@[simp] theorem setPrev_prevOf : (s.setPrev p v).prevOf = Function.update s.prevOf p v := by
  funext q
  unfold prevOf setPrev
  by_cases h : q = p
  · subst h
    simp
  · simp [Function.update_of_ne h]

/-- Stores to the links change no field. -/
theorem setNext_fields (q : Nat) : ((s.setNext p v).items q).fields = (s.items q).fields := by
  unfold setNext
  by_cases h : q = p
  · subst h
    simp
  · simp [Function.update_of_ne h]

theorem setPrev_fields (q : Nat) : ((s.setPrev p v).items q).fields = (s.items q).fields := by
  unfold setPrev
  by_cases h : q = p
  · subst h
    simp
  · simp [Function.update_of_ne h]

end

/-! ## What the operations do to the links -/

theorem addToUsedList_eq (s : BlockStorage T) (p : Nat) :
    (s.addToUsedList p).nextOf = Function.update s.nextOf p s.usedListHead ∧
      (s.addToUsedList p).prevOf = pushPrev s.prevOf s.usedListHead p ∧
      (s.addToUsedList p).usedListHead = some p ∧
      (s.addToUsedList p).freeListHead = s.freeListHead ∧
      (s.addToUsedList p).blocks = s.blocks ∧
      ∀ q, ((s.addToUsedList p).items q).fields = (s.items q).fields := by
  unfold addToUsedList
  cases hhead : s.usedListHead with
  | none =>
    refine ⟨?_, ?_, rfl, rfl, rfl, fun q => ?_⟩
    · show (((s.setPrev p none).setNext p s.usedListHead)).nextOf = _
      rw [setNext_nextOf, setPrev_nextOf, hhead]
    · show (((s.setPrev p none).setNext p s.usedListHead)).prevOf = _
      rw [setNext_prevOf, setPrev_prevOf]
      rfl
    · exact (setNext_fields ..).trans (setPrev_fields ..)
  | some h =>
    refine ⟨?_, ?_, rfl, rfl, rfl, fun q => ?_⟩
    · show ((((s.setPrev h (some p)).setPrev p none).setNext p s.usedListHead)).nextOf = _
      rw [setNext_nextOf, setPrev_nextOf, setPrev_nextOf, hhead]
    · show ((((s.setPrev h (some p)).setPrev p none).setNext p s.usedListHead)).prevOf = _
      rw [setNext_prevOf, setPrev_prevOf, setPrev_prevOf]
      rfl
    · exact (setNext_fields ..).trans ((setPrev_fields ..).trans (setPrev_fields ..))

theorem skipHead_eq (s : BlockStorage T) (p : Nat) :
    s.skipHead p = { s with
      usedListHead := if s.usedListHead = some p then s.nextOf p else s.usedListHead } := by
  unfold skipHead
  split <;> rfl

theorem skipForward_eq (s : BlockStorage T) (p : Nat) :
    (s.skipForward p).nextOf = unlinkNext s.nextOf s.prevOf p ∧
      (s.skipForward p).prevOf = s.prevOf ∧ (s.skipForward p).usedListHead = s.usedListHead ∧
      (s.skipForward p).freeListHead = s.freeListHead ∧ (s.skipForward p).blocks = s.blocks ∧
      ∀ q, ((s.skipForward p).items q).fields = (s.items q).fields := by
  unfold skipForward unlinkNext
  cases s.prevOf p with
  | none => exact ⟨rfl, rfl, rfl, rfl, rfl, fun q => rfl⟩
  | some q =>
    exact ⟨setNext_nextOf .., setNext_prevOf .., rfl, rfl, rfl, fun x => setNext_fields ..⟩

theorem skipBackward_eq (s : BlockStorage T) (p : Nat) :
    (s.skipBackward p).nextOf = s.nextOf ∧
      (s.skipBackward p).prevOf = unlinkPrev s.nextOf s.prevOf p ∧
      (s.skipBackward p).usedListHead = s.usedListHead ∧
      (s.skipBackward p).freeListHead = s.freeListHead ∧ (s.skipBackward p).blocks = s.blocks ∧
      ∀ q, ((s.skipBackward p).items q).fields = (s.items q).fields := by
  unfold skipBackward unlinkPrev
  cases s.nextOf p with
  | none => exact ⟨rfl, rfl, rfl, rfl, rfl, fun q => rfl⟩
  | some n =>
    exact ⟨setPrev_nextOf .., setPrev_prevOf .., rfl, rfl, rfl, fun x => setPrev_fields ..⟩

theorem removeFromUsedList_fields (s : BlockStorage T) (p q : Nat) :
    ((s.removeFromUsedList p).items q).fields = (s.items q).fields := by
  obtain ⟨_, _, _, _, _, hforward⟩ := (s.skipHead p).skipForward_eq p
  obtain ⟨_, _, _, _, _, hback⟩ := ((s.skipHead p).skipForward p).skipBackward_eq p
  show ((((s.skipHead p).skipForward p).skipBackward p).items q).fields = _
  rw [hback, hforward, skipHead_eq]

theorem removeFromUsedList_eq (s : BlockStorage T) (p : Nat) (hp : s.prevOf p ≠ some p) :
    (s.removeFromUsedList p).nextOf = unlinkNext s.nextOf s.prevOf p ∧
      (s.removeFromUsedList p).prevOf = unlinkPrev s.nextOf s.prevOf p ∧
      (s.removeFromUsedList p).usedListHead =
        (if s.usedListHead = some p then s.nextOf p else s.usedListHead) ∧
      (s.removeFromUsedList p).freeListHead = s.freeListHead ∧
      (s.removeFromUsedList p).blocks = s.blocks ∧
      ∀ q, ((s.removeFromUsedList p).items q).fields = (s.items q).fields := by
  have hhead := s.skipHead_eq p
  obtain ⟨fnext, fprev, fused, ffree, fblocks, _⟩ := (s.skipHead p).skipForward_eq p
  obtain ⟨bnext, bprev, bused, bfree, bblocks, _⟩ :=
    ((s.skipHead p).skipForward p).skipBackward_eq p
  have hnextOf : (s.skipHead p).nextOf = s.nextOf := by rw [hhead]; rfl
  have hprevOf : (s.skipHead p).prevOf = s.prevOf := by rw [hhead]; rfl
  rw [hnextOf, hprevOf] at fnext
  rw [hprevOf] at fprev
  -- The forward link of `p` itself is the one it had.
  have hself : unlinkNext s.nextOf s.prevOf p p = s.nextOf p := by
    unfold unlinkNext
    cases hq : s.prevOf p with
    | none => rfl
    | some q => exact Function.update_of_ne (fun h => hp (by rw [hq, h])) _ _
  refine ⟨bnext.trans fnext, ?_, ?_, ?_, ?_, s.removeFromUsedList_fields p⟩
  · show (((s.skipHead p).skipForward p).skipBackward p).prevOf = _
    rw [bprev, fprev, fnext]
    unfold unlinkPrev
    rw [hself]
  · show (((s.skipHead p).skipForward p).skipBackward p).usedListHead = _
    rw [bused, fused, hhead]
  · show (((s.skipHead p).skipForward p).skipBackward p).freeListHead = _
    rw [bfree, ffree, hhead]
  · show (((s.skipHead p).skipForward p).skipBackward p).blocks = _
    rw [bblocks, fblocks, hhead]

/-! ## The invariant -/

/-- Every item of every block. -/
def allItems (blockSize : Nat) (s : BlockStorage T) : List Nat :=
  s.blocks.flatMap (fun k => (List.range blockSize).map (k * blockSize + ·))

/-- `used` and `unused` are the two lists, in order. -/
structure Inv (blockSize : Nat) (s : BlockStorage T) (used unused : List Nat) : Prop where
  usedChain : Chain s.nextOf s.usedListHead used
  usedBack : BackLinks s.prevOf none used
  freeChain : Chain s.nextOf s.freeListHead unused
  nodup : (used ++ unused).Nodup
  items : ∀ p, p ∈ used ++ unused ↔ p ∈ s.allItems blockSize
  blocks : ∀ k ∈ s.blocks, k < s.blocks.length

/-- A storage without blocks. -/
def empty [Inhabited T] : BlockStorage T := { items := fun _ => { fields := default } }

theorem inv_empty (blockSize : Nat) [Inhabited T] :
    Inv blockSize (empty : BlockStorage T) [] [] where
  usedChain := rfl
  usedBack := trivial
  freeChain := rfl
  nodup := List.nodup_nil
  items := fun p => Iff.rfl
  blocks := fun k hk => by simp [empty] at hk

section
variable {blockSize : Nat} {s : BlockStorage T} {used unused : List Nat}

theorem mem_allItems {p : Nat} :
    p ∈ s.allItems blockSize ↔ ∃ k ∈ s.blocks, k * blockSize ≤ p ∧ p < k * blockSize + blockSize := by
  unfold allItems
  simp only [List.mem_flatMap, List.mem_map, List.mem_range]
  constructor
  · rintro ⟨k, hk, i, hi, rfl⟩
    exact ⟨k, hk, by omega, by omega⟩
  · rintro ⟨k, hk, h1, h2⟩
    exact ⟨k, hk, p - k * blockSize, by omega, by omega⟩

/-- The items that exist lie below the next block. -/
theorem Inv.below (h : Inv blockSize s used unused) {p : Nat} (hp : p ∈ used ++ unused) :
    p < s.blocks.length * blockSize := by
  obtain ⟨k, hk, _, hlt⟩ := mem_allItems.mp ((h.items p).mp hp)
  have hle : (k + 1) * blockSize ≤ s.blocks.length * blockSize :=
    Nat.mul_le_mul_right blockSize (h.blocks k hk)
  rw [Nat.succ_mul] at hle
  omega

theorem chain_range' {next : Nat → Option Nat} {base : Nat} {n : Nat} (start : Nat)
    (h : ∀ p, start ≤ p → p < base + n → next p = if p + 1 < base + n then some (p + 1) else none)
    (hstart : start < base + n) : Chain next (some start) (List.range' start (base + n - start)) := by
  obtain ⟨k, hk⟩ : ∃ k, base + n - start = k + 1 := ⟨base + n - start - 1, by omega⟩
  rw [hk]
  induction k generalizing start with
  | zero =>
    refine ⟨rfl, ?_⟩
    rw [h start (Nat.le_refl _) hstart, if_neg (by omega)]
    rfl
  | succ k ih =>
    refine ⟨rfl, ?_⟩
    rw [h start (Nat.le_refl _) hstart, if_pos (by omega)]
    exact ih (start + 1) (fun p hp => h p (by omega)) (by omega) (by omega)

/-- A new block becomes the free list. -/
theorem inv_allocateBlock [Inhabited T] (hb : 1 ≤ blockSize) (h : Inv blockSize s used []) :
    Inv blockSize (s.allocateBlock blockSize) used
      (List.range' (s.blocks.length * blockSize) blockSize) := by
  have hold : ∀ p ∈ used, (s.allocateBlock blockSize).items p = s.items p := by
    intro p hp
    have hlt := h.below (List.mem_append_left [] hp)
    unfold allocateBlock
    dsimp only
    rw [if_neg (by omega)]
  have hnew : ∀ p, s.blocks.length * blockSize ≤ p → p < s.blocks.length * blockSize + blockSize →
      (s.allocateBlock blockSize).nextOf p =
        if p + 1 < s.blocks.length * blockSize + blockSize then some (p + 1) else none := by
    intro p h1 h2
    unfold nextOf allocateBlock
    dsimp only
    rw [if_pos ⟨h1, h2⟩]
  refine ⟨?_, ?_, ?_, ?_, ?_, ?_⟩
  · exact chain_congr (fun p hp => by unfold nextOf; rw [hold p hp]) h.usedChain
  · exact backLinks_congr (fun p hp => by unfold prevOf; rw [hold p hp]) h.usedBack
  · have hchain := chain_range' (s.blocks.length * blockSize) hnew (by omega)
    rwa [Nat.add_sub_cancel_left] at hchain
  · refine List.nodup_append.mpr ⟨?_, List.nodup_range', ?_⟩
    · exact (List.append_nil used) ▸ h.nodup
    · intro p hp q hq heq
      have hlt := h.below (List.mem_append_left [] hp)
      rw [List.mem_range'_1] at hq
      omega
  · intro p
    rw [List.mem_append, List.mem_range'_1, mem_allItems]
    have hused : p ∈ used ↔ p ∈ s.allItems blockSize := by
      rw [← h.items p, List.append_nil]
    rw [hused, mem_allItems]
    show _ ↔ ∃ k ∈ s.blocks.length :: s.blocks, _
    simp only [List.mem_cons, exists_eq_or_imp]
    exact or_comm
  · intro k hk
    show k < s.blocks.length + 1
    rcases List.mem_cons.mp hk with rfl | hk
    · exact Nat.lt_succ_self _
    · exact Nat.lt_succ_of_lt (h.blocks k hk)

/-- The first free item is handed out. -/
theorem inv_take {p : Nat} (h : Inv blockSize s used (p :: unused)) :
    Inv blockSize ({ s with freeListHead := s.nextOf p }.addToUsedList p) (p :: used) unused := by
  obtain ⟨hnext, hprev, hhead, hfree, hblocks, _⟩ :=
    addToUsedList_eq { s with freeListHead := s.nextOf p } p
  have hperm : (used ++ p :: unused).Perm ((p :: used) ++ unused) := List.perm_middle
  have hnodup : ((p :: used) ++ unused).Nodup := hperm.nodup_iff.mp h.nodup
  have hp : p ∉ used ∧ p ∉ unused := by
    have hcons := (List.nodup_cons.mp hnodup).1
    exact ⟨fun hm => hcons (by simp [hm]), fun hm => hcons (by simp [hm])⟩
  have hused : used.Nodup := (List.nodup_append.mp h.nodup).1
  refine ⟨?_, ?_, ?_, hnodup, fun q => ?_, ?_⟩
  · rw [hnext, hhead]
    exact chain_push h.usedChain hp.1
  · rw [hprev]
    show BackLinks (pushPrev s.prevOf s.usedListHead p) none (p :: used)
    rw [chain_head? h.usedChain]
    exact backLinks_push h.usedBack hp.1 hused
  · rw [hnext, hfree]
    exact chain_update hp.2 h.freeChain.2
  · rw [← hperm.mem_iff, h.items q]
    unfold allItems
    rw [hblocks]
  · rw [hblocks]
    exact h.blocks

/-- A used item goes back in front of the free list. -/
theorem inv_free {a b : List Nat} {p : Nat} (h : Inv blockSize s (a ++ p :: b) unused) :
    Inv blockSize (s.free p) (a ++ b) (p :: unused) := by
  have hnodupUsed : (a ++ p :: b).Nodup := (List.nodup_append.mp h.nodup).1
  have hperm : ((a ++ p :: b) ++ unused).Perm ((a ++ b) ++ p :: unused) := by
    rw [List.append_assoc, List.append_assoc, List.cons_append]
    refine List.Perm.append_left a ?_
    exact List.perm_middle.symm
  have hnodup : ((a ++ b) ++ p :: unused).Nodup := hperm.nodup_iff.mp h.nodup
  have hp : p ∉ a ++ b ∧ p ∉ unused := by
    have hmid := (List.perm_middle.nodup_iff.mp hnodup)
    have hcons := (List.nodup_cons.mp hmid).1
    exact ⟨fun hm => hcons (List.mem_append_left _ hm), fun hm => hcons (List.mem_append_right _ hm)⟩
  have hself : s.prevOf p ≠ some p := by
    rw [backLinks_prev h.usedBack, Option.or_none]
    intro hlast
    have hmem := List.mem_of_getLast? hlast
    exact hp.1 (List.mem_append_left b hmem)
  obtain ⟨hnext, hprev, hhead, hfree, hblocks, _⟩ := removeFromUsedList_eq s p hself
  have hfreeNext : (s.free p).nextOf =
      Function.update (unlinkNext s.nextOf s.prevOf p) p s.freeListHead := by
    show ((s.removeFromUsedList p).setNext p _).nextOf = _
    rw [setNext_nextOf, hnext, hfree]
  have hunlinked := chain_unlink h.usedChain h.usedBack hnodupUsed
  refine ⟨?_, ?_, ⟨rfl, ?_⟩, hnodup, fun q => ?_, ?_⟩
  · rw [hfreeNext]
    show Chain _ (s.removeFromUsedList p).usedListHead _
    rw [hhead]
    exact chain_update hp.1 hunlinked
  · show BackLinks ((s.removeFromUsedList p).setNext p _).prevOf none _
    rw [setNext_prevOf, hprev]
    exact backLinks_unlink h.usedChain h.usedBack hnodupUsed
  · rw [hfreeNext, Function.update_self]
    refine chain_update hp.2 (chain_congr (fun q hq => ?_) h.freeChain)
    -- The free items are not the one in front of `p`.
    have hq' : q ∉ a := fun ha =>
      (List.nodup_append.mp h.nodup).2.2 q (List.mem_append_left _ ha) q hq rfl
    unfold unlinkNext
    rw [backLinks_prev h.usedBack, Option.or_none]
    cases hlast : a.getLast? with
    | none => rfl
    | some x =>
      have hx : x ∈ a := List.mem_of_getLast? hlast
      refine Function.update_of_ne ?_ _ _
      rintro rfl
      exact hq' hx
  · rw [← hperm.mem_iff, h.items q]
    unfold allItems
    rw [show (s.free p).blocks = s.blocks from hblocks]
  · rw [show (s.free p).blocks = s.blocks from hblocks]
    exact h.blocks

/-- `allocate` hands out a free item, of a new block when the free list is empty, and
changes no field of an item that exists. -/
theorem allocate_spec [Inhabited T] (hb : 1 ≤ blockSize) (h : Inv blockSize s used unused) :
    ∃ p s' unused', s.allocate blockSize = some (p, s') ∧ p ∉ used ∧
      Inv blockSize s' (p :: used) unused' ∧
      ∀ q ∈ s.allItems blockSize, (s'.items q).fields = (s.items q).fields := by
  -- The storage whose free list has a first item.
  have hready : ∃ t free', (if s.freeListHead = none then s.allocateBlock blockSize else s) = t ∧
      free' ≠ [] ∧ Inv blockSize t used free' ∧
      ∀ q ∈ s.allItems blockSize, (t.items q).fields = (s.items q).fields := by
    cases unused with
    | nil =>
      have hnone : s.freeListHead = none := h.freeChain
      rw [if_pos hnone]
      refine ⟨_, _, rfl, ?_, inv_allocateBlock hb h, fun q hq => ?_⟩
      · rw [Ne, List.range'_eq_nil_iff]
        omega
      · have hlt := h.below ((h.items q).mpr hq)
        unfold allocateBlock
        dsimp only
        rw [if_neg (by omega)]
    | cons p unused =>
      have hsome : s.freeListHead = some p := h.freeChain.1
      rw [if_neg (by rw [hsome]; simp)]
      exact ⟨s, _, rfl, by simp, h, fun q _ => rfl⟩
  obtain ⟨t, free', ht, hne, hinv, hfields⟩ := hready
  obtain ⟨p, unused', rfl⟩ := List.exists_cons_of_ne_nil hne
  have hsome : t.freeListHead = some p := hinv.freeChain.1
  have hnot : p ∉ used := fun hp =>
    (List.nodup_append.mp hinv.nodup).2.2 p hp p (by simp) rfl
  refine ⟨p, _, unused', ?_, hnot, inv_take hinv, fun q hq => ?_⟩
  · unfold allocate
    rw [ht]
    dsimp only
    rw [hsome]
  · rw [(addToUsedList_eq { t with freeListHead := t.nextOf p } p).2.2.2.2.2 q]
    exact hfields q hq

/-- A store to the fields changes no list. -/
theorem inv_assign (h : Inv blockSize s used unused) (p : Nat) (v : T) :
    Inv blockSize (s.assign p v) used unused := by
  have hnext : (s.assign p v).nextOf = s.nextOf := by
    funext q
    unfold nextOf assign
    by_cases hq : q = p
    · subst hq
      simp
    · simp [Function.update_of_ne hq]
  have hprev : (s.assign p v).prevOf = s.prevOf := by
    funext q
    unfold prevOf assign
    by_cases hq : q = p
    · subst hq
      simp
    · simp [Function.update_of_ne hq]
  refine ⟨?_, ?_, ?_, h.nodup, h.items, h.blocks⟩
  · rw [hnext]
    exact h.usedChain
  · rw [hprev]
    exact h.usedBack
  · rw [hnext]
    exact h.freeChain

/-- The storage whose first free item `allocate` takes. -/
def ready (blockSize : Nat) [Inhabited T] (s : BlockStorage T) : BlockStorage T :=
  if s.freeListHead = none then s.allocateBlock blockSize else s

theorem allocate_ready [Inhabited T] {p : Nat} {s' : BlockStorage T}
    (ha : s.allocate blockSize = some (p, s')) :
    s'.blocks = (s.ready blockSize).blocks ∧
      ∀ q, (s'.items q).fields = ((s.ready blockSize).items q).fields := by
  unfold allocate at ha
  change (match (s.ready blockSize).freeListHead with
    | some result => some (result,
        { s.ready blockSize with
          freeListHead := (s.ready blockSize).nextOf result }.addToUsedList result)
    | none => none) = some (p, s') at ha
  split at ha
  · rename_i result _
    obtain ⟨_, _, _, _, hblocks, hfields⟩ :=
      addToUsedList_eq { s.ready blockSize with
        freeListHead := (s.ready blockSize).nextOf result } result
    have hs' := congrArg Prod.snd (Option.some.inj ha)
    dsimp only at hs'
    rw [← hs']
    exact ⟨hblocks, hfields⟩
  · simp at ha

/-- Freeing an item changes no field. -/
theorem free_fields (s : BlockStorage T) (p q : Nat) :
    ((s.free p).items q).fields = (s.items q).fields := by
  show (((s.removeFromUsedList p).setNext p _).items q).fields = _
  rw [setNext_fields, removeFromUsedList_fields]

/-- Freeing an item gives no block back. -/
theorem free_allItems (s : BlockStorage T) (p : Nat) :
    (s.free p).allItems blockSize = s.allItems blockSize := by
  have hblocks : (s.free p).blocks = s.blocks := by
    show (((s.skipHead p).skipForward p).skipBackward p).blocks = s.blocks
    obtain ⟨_, _, _, _, hback, _⟩ := ((s.skipHead p).skipForward p).skipBackward_eq p
    obtain ⟨_, _, _, _, hforward, _⟩ := (s.skipHead p).skipForward_eq p
    rw [hback, hforward, skipHead_eq]
  unfold allItems
  rw [hblocks]

end

/-! ## The two lists as functions of the storage -/

section
variable (blockSize : Nat) (s : BlockStorage T)

def usedItems : List Nat :=
  (walk s.nextOf (s.allItems blockSize).length s.usedListHead).getD []

def freeItems : List Nat :=
  (walk s.nextOf (s.allItems blockSize).length s.freeListHead).getD []

def Sound : Prop := Inv blockSize s (s.usedItems blockSize) (s.freeItems blockSize)

end

section
variable {blockSize : Nat} {s : BlockStorage T} {used unused : List Nat}

theorem Inv.length_le (h : Inv blockSize s used unused) :
    used.length ≤ (s.allItems blockSize).length ∧ unused.length ≤ (s.allItems blockSize).length := by
  have hle : (used ++ unused).length ≤ (s.allItems blockSize).length :=
    (List.Nodup.subperm h.nodup (fun p hp => (h.items p).mp hp)).length_le
  rw [List.length_append] at hle
  omega

theorem Inv.lists_eq (h : Inv blockSize s used unused) :
    s.usedItems blockSize = used ∧ s.freeItems blockSize = unused := by
  obtain ⟨hused, hfree⟩ := h.length_le
  unfold usedItems freeItems
  rw [walk_chain h.usedChain hused, walk_chain h.freeChain hfree]
  exact ⟨rfl, rfl⟩

theorem Inv.sound (h : Inv blockSize s used unused) : s.Sound blockSize := by
  obtain ⟨hused, hfree⟩ := h.lists_eq
  unfold Sound
  rw [hused, hfree]
  exact h

theorem sound_empty [Inhabited T] : (empty : BlockStorage T).Sound blockSize :=
  (inv_empty blockSize).sound

theorem Sound.mem_allItems (h : s.Sound blockSize) {p : Nat} :
    p ∈ s.allItems blockSize ↔ p ∈ s.usedItems blockSize ∨ p ∈ s.freeItems blockSize := by
  rw [← h.items p, List.mem_append]

theorem Sound.not_both (h : s.Sound blockSize) {p : Nat} (hused : p ∈ s.usedItems blockSize)
    (hfree : p ∈ s.freeItems blockSize) : False :=
  (List.nodup_append.mp h.nodup).2.2 p hused p hfree rfl

/-- What `allocate` does to the two lists and to the fields. -/
structure Allocated (blockSize : Nat) [Inhabited T] (s : BlockStorage T) (p : Nat)
    (s' : BlockStorage T) : Prop where
  sound : s'.Sound blockSize
  unused : p ∉ s.usedItems blockSize
  used : ∀ q, q ∈ s'.usedItems blockSize ↔ q = p ∨ q ∈ s.usedItems blockSize
  /-- A free item was free or is of a new block. -/
  free : ∀ q ∈ s'.freeItems blockSize, q ≠ p ∧ (q ∈ s.freeItems blockSize ∨
    (q ∉ s.allItems blockSize ∧ (s'.items q).fields = default))
  handed : p ∈ s.freeItems blockSize ∨ (p ∉ s.allItems blockSize ∧ (s'.items p).fields = default)
  fields : ∀ q ∈ s.allItems blockSize, (s'.items q).fields = (s.items q).fields
  fresh : ∀ q, (s'.items q).fields = (s.items q).fields ∨
    (q ∉ s.allItems blockSize ∧ (s'.items q).fields = default)
  kept : ∀ q ∈ s.freeItems blockSize, q = p ∨ q ∈ s'.freeItems blockSize

/-- The items that `ready` has and the storage has not are those of a new block, which are set
up. -/
theorem ready_items [Inhabited T] {q : Nat} :
    (q ∈ s.allItems blockSize → q ∈ (s.ready blockSize).allItems blockSize) ∧
      (q ∈ (s.ready blockSize).allItems blockSize → q ∉ s.allItems blockSize →
        ((s.ready blockSize).items q).fields = default) := by
  unfold ready
  split
  · refine ⟨fun hq => ?_, fun hq hold => ?_⟩
    · obtain ⟨k, hk, hin⟩ := BlockStorage.mem_allItems.mp hq
      exact BlockStorage.mem_allItems.mpr ⟨k, List.mem_cons_of_mem _ hk, hin⟩
    · obtain ⟨k, hk, h1, h2⟩ := BlockStorage.mem_allItems.mp hq
      rcases List.mem_cons.mp hk with rfl | hk
      · unfold allocateBlock
        dsimp only
        rw [if_pos ⟨h1, h2⟩]
      · exact absurd (BlockStorage.mem_allItems.mpr ⟨k, hk, h1, h2⟩) hold
  · exact ⟨id, fun hq hold => absurd hq hold⟩

/-- Items stay where they are when one is handed out. -/
theorem allocate_allItems [Inhabited T] {p q : Nat} {s' : BlockStorage T}
    (ha : s.allocate blockSize = some (p, s')) (hq : q ∈ s.allItems blockSize) :
    q ∈ s'.allItems blockSize := by
  have hready := ready_items.1 hq
  unfold allItems at hready ⊢
  rw [(allocate_ready ha).1]
  exact hready

theorem ready_fields [Inhabited T] (hs : s.Sound blockSize) (q : Nat) :
    ((s.ready blockSize).items q).fields = (s.items q).fields ∨
      (q ∉ s.allItems blockSize ∧ ((s.ready blockSize).items q).fields = default) := by
  unfold ready
  split
  · unfold allocateBlock
    dsimp only
    split
    · rename_i hin
      refine Or.inr ⟨fun hq => ?_, rfl⟩
      have hlt := hs.below ((hs.items q).mpr hq)
      omega
    · exact Or.inl rfl
  · exact Or.inl rfl

theorem Sound.allocate [Inhabited T] (hb : 1 ≤ blockSize) (h : s.Sound blockSize) {p : Nat}
    {s' : BlockStorage T} (ha : s.allocate blockSize = some (p, s')) :
    Allocated blockSize s p s' := by
  obtain ⟨p', t, unused', heq, hnot, hinv, hfields⟩ := allocate_spec hb h
  obtain ⟨rfl, rfl⟩ := Prod.mk.inj (Option.some.inj (ha.symm.trans heq))
  obtain ⟨hused, hfree⟩ := hinv.lists_eq
  obtain ⟨hblocks, hready⟩ := allocate_ready ha
  have hmem : ∀ q, q ∈ s'.allItems blockSize ↔ q ∈ (s.ready blockSize).allItems blockSize := by
    intro q
    unfold allItems
    rw [hblocks]
  have hall : ∀ q, q ∈ s'.allItems blockSize ↔ q = p ∨ q ∈ s.usedItems blockSize ∨ q ∈ unused' := by
    intro q
    rw [← hinv.items q]
    simp
  have hwas : ∀ q, q ∈ s'.allItems blockSize → q ∉ s.usedItems blockSize →
      q ∈ s.freeItems blockSize ∨ (q ∉ s.allItems blockSize ∧ (s'.items q).fields = default) := by
    intro q hq hnotUsed
    by_cases hold : q ∈ s.allItems blockSize
    · rcases h.mem_allItems.mp hold with hu | hf
      · exact absurd hu hnotUsed
      · exact Or.inl hf
    · rw [hready q]
      exact Or.inr ⟨hold, ready_items.2 ((hmem q).mp hq) hold⟩
  have hdisjoint : ∀ q ∈ unused', q ≠ p ∧ q ∉ s.usedItems blockSize := by
    intro q hq
    have hne := (List.nodup_append.mp hinv.nodup).2.2
    exact ⟨fun e => hne p (by simp) q hq e.symm, fun hm => hne q (by simp [hm]) q hq rfl⟩
  refine ⟨hinv.sound, hnot, fun q => by rw [hused]; simp, fun q hq => ?_,
    hwas p ((hall p).mpr (Or.inl rfl)) hnot, hfields, fun q => ?_, fun q hq => ?_⟩
  · rw [hfree] at hq
    obtain ⟨hne, hnotUsed⟩ := hdisjoint q hq
    exact ⟨hne, hwas q ((hall q).mpr (Or.inr (Or.inr hq))) hnotUsed⟩
  · rw [hready q]
    exact ready_fields h q
  · have hgrow := (hmem q).mpr (ready_items.1 (h.mem_allItems.mpr (Or.inr hq)))
    rw [hfree]
    rcases (hall q).mp hgrow with heq | hu | hf
    · exact Or.inl heq
    · exact absurd hq (fun hf => h.not_both hu hf)
    · exact Or.inr hf

/-- What `free` does to the two lists; it changes no field. -/
structure Freed (blockSize : Nat) (s : BlockStorage T) (p : Nat) (s' : BlockStorage T) : Prop where
  sound : s'.Sound blockSize
  used : ∀ q, q ∈ s'.usedItems blockSize ↔ q ∈ s.usedItems blockSize ∧ q ≠ p
  free : ∀ q, q ∈ s'.freeItems blockSize ↔ q = p ∨ q ∈ s.freeItems blockSize
  fields : ∀ q, (s'.items q).fields = (s.items q).fields

/-- The item that is freed leaves the used list, and the others keep their order. -/
theorem Sound.free_lists (h : s.Sound blockSize) {p : Nat} (hp : p ∈ s.usedItems blockSize) :
    (s.free p).Sound blockSize ∧
      (s.free p).usedItems blockSize = (s.usedItems blockSize).filter (· ≠ p) ∧
      (s.free p).freeItems blockSize = p :: s.freeItems blockSize ∧
      ∀ q, ((s.free p).items q).fields = (s.items q).fields := by
  obtain ⟨a, b, hab⟩ := List.append_of_mem hp
  have hinv : Inv blockSize s (a ++ p :: b) (s.freeItems blockSize) := by
    rw [← hab]
    exact h
  have hfreed := inv_free hinv
  obtain ⟨hused, hfree⟩ := hfreed.lists_eq
  have hnodup : (a ++ p :: b).Nodup := (List.nodup_append.mp hinv.nodup).1
  have hnot : p ∉ a ++ b := (List.nodup_cons.mp (List.perm_middle.nodup_iff.mp hnodup)).1
  have hkept : (a ++ b).filter (· ≠ p) = a ++ b :=
    List.filter_eq_self.mpr (fun q hq => decide_eq_true (fun heq => hnot (heq ▸ hq)))
  refine ⟨hfreed.sound, ?_, hfree, s.free_fields p⟩
  rw [hused, hab, List.filter_append, List.filter_cons_of_neg (by simp), ← List.filter_append,
    hkept]

theorem Sound.free (h : s.Sound blockSize) {p : Nat} (hp : p ∈ s.usedItems blockSize) :
    Freed blockSize s p (s.free p) := by
  obtain ⟨hsound, hused, hfree, hfields⟩ := h.free_lists hp
  refine ⟨hsound, fun q => ?_, fun q => ?_, hfields⟩
  · rw [hused, List.mem_filter, decide_eq_true_eq]
  · rw [hfree, List.mem_cons]

theorem Sound.assign (h : s.Sound blockSize) (p : Nat) (v : T) :
    (s.assign p v).Sound blockSize ∧
      (s.assign p v).usedItems blockSize = s.usedItems blockSize ∧
      (s.assign p v).freeItems blockSize = s.freeItems blockSize := by
  have hinv := inv_assign h p v
  exact ⟨hinv.sound, hinv.lists_eq.1, hinv.lists_eq.2⟩

end

end BlockStorage
end EpollHttp
