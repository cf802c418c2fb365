import EpollHttp.Recycling.Alike
import EpollHttp.Executors.Dispatch

/-
Worlds that differ in what connections left behind.

Everything is the same in twin worlds but the data of the executors, which is alike.  The calls of
the kernel and those on the epoll set do the same in both.
-/

namespace EpollHttp

open Program

/-! ## Storages -/

namespace BlockStorage

variable {T : Type} {A B : Nat → T → T → Prop} {s s' : BlockStorage T} {p : Nat}

/-- The same items are linked in the same way, and `A` relates their fields. -/
structure Mirrors (A : Nat → T → T → Prop) (s s' : BlockStorage T) : Prop where
  blocks : s'.blocks = s.blocks
  freeListHead : s'.freeListHead = s.freeListHead
  usedListHead : s'.usedListHead = s.usedListHead
  links : ∀ p, (s'.items p).blockStorageData = (s.items p).blockStorageData
  fields : ∀ p, A p (s.items p).fields (s'.items p).fields

namespace Mirrors

theorem mono (h : s.Mirrors A s') (hAB : ∀ p x y, A p x y → B p x y) : s.Mirrors B s' :=
  ⟨h.blocks, h.freeListHead, h.usedListHead, h.links, fun p => hAB p _ _ (h.fields p)⟩

theorem nextOf (h : s.Mirrors A s') : s'.nextOf = s.nextOf :=
  funext (fun p => congrArg ServiceData.next (h.links p))

theorem prevOf (h : s.Mirrors A s') : s'.prevOf = s.prevOf :=
  funext (fun p => congrArg ServiceData.prev (h.links p))

/-- A store to an item. -/
theorem store (h : s.Mirrors A s') {x y : Item T} (hlinks : y.blockStorageData = x.blockStorageData)
    (hfields : B p x.fields y.fields) (hothers : ∀ q x y, q ≠ p → A q x y → B q x y) :
    Mirrors B { s with items := Function.update s.items p x }
      { s' with items := Function.update s'.items p y } := by
  refine ⟨h.blocks, h.freeListHead, h.usedListHead, fun q => ?_, fun q => ?_⟩
  · dsimp only
    by_cases hq : q = p
    · rw [hq, Function.update_self, Function.update_self]
      exact hlinks
    · rw [Function.update_of_ne hq, Function.update_of_ne hq]
      exact h.links q
  · dsimp only
    by_cases hq : q = p
    · rw [hq, Function.update_self, Function.update_self]
      exact hfields
    · rw [Function.update_of_ne hq, Function.update_of_ne hq]
      exact hothers q _ _ hq (h.fields q)

theorem assign (h : s.Mirrors A s') {x y : T} (hxy : B p x y)
    (hothers : ∀ q x y, q ≠ p → A q x y → B q x y) :
    (s.assign p x).Mirrors B (s'.assign p y) := h.store (h.links p) hxy hothers

theorem setNext (h : s.Mirrors A s') (p : Nat) (v : Option Nat) :
    (s.setNext p v).Mirrors A (s'.setNext p v) := by
  refine h.store ?_ (h.fields p) (fun _ _ _ _ hA => hA)
  rw [h.links]

theorem setPrev (h : s.Mirrors A s') (p : Nat) (v : Option Nat) :
    (s.setPrev p v).Mirrors A (s'.setPrev p v) := by
  refine h.store ?_ (h.fields p) (fun _ _ _ _ hA => hA)
  rw [h.links]

theorem addToUsedList (h : s.Mirrors A s') (p : Nat) :
    (s.addToUsedList p).Mirrors A (s'.addToUsedList p) := by
  have hpush : ∀ {t t' : BlockStorage T}, t.Mirrors A t' → Mirrors A
      { (t.setPrev p none).setNext p t.usedListHead with usedListHead := some p }
      { (t'.setPrev p none).setNext p t'.usedListHead with usedListHead := some p } := by
    intro t t' ht
    rw [ht.usedListHead]
    have hset := (ht.setPrev p none).setNext p t.usedListHead
    exact ⟨hset.blocks, hset.freeListHead, rfl, hset.links, hset.fields⟩
  unfold BlockStorage.addToUsedList
  rw [h.usedListHead]
  cases s.usedListHead with
  | none => exact hpush h
  | some first => exact hpush (h.setPrev first (some p))

theorem removeFromUsedList (h : s.Mirrors A s') (p : Nat) :
    (s.removeFromUsedList p).Mirrors A (s'.removeFromUsedList p) := by
  have hhead : (s.skipHead p).Mirrors A (s'.skipHead p) := by
    unfold skipHead
    rw [h.usedListHead, h.nextOf]
    split
    · exact ⟨h.blocks, h.freeListHead, rfl, h.links, h.fields⟩
    · exact h
  have hforward : ((s.skipHead p).skipForward p).Mirrors A ((s'.skipHead p).skipForward p) := by
    unfold skipForward
    rw [hhead.prevOf, hhead.nextOf]
    split
    · exact hhead.setNext _ _
    · exact hhead
  unfold BlockStorage.removeFromUsedList skipBackward
  rw [hforward.prevOf, hforward.nextOf]
  split
  · exact hforward.setPrev _ _
  · exact hforward

theorem free (h : s.Mirrors A s') (p : Nat) : (s.free p).Mirrors A (s'.free p) := by
  have hremoved := h.removeFromUsedList p
  have hset : ((s.removeFromUsedList p).setNext p (s.removeFromUsedList p).freeListHead).Mirrors A
      ((s'.removeFromUsedList p).setNext p (s'.removeFromUsedList p).freeListHead) := by
    rw [hremoved.freeListHead]
    exact hremoved.setNext p _
  exact ⟨hset.blocks, rfl, hset.usedListHead, hset.links, hset.fields⟩

/-- The items of a new block are new in both. -/
theorem allocateBlock [Inhabited T] (h : s.Mirrors A s') (hnew : ∀ p, A p default default)
    (blockSize : Nat) : (s.allocateBlock blockSize).Mirrors A (s'.allocateBlock blockSize) := by
  unfold BlockStorage.allocateBlock
  rw [h.blocks]
  refine ⟨rfl, rfl, h.usedListHead, fun q => ?_, fun q => ?_⟩
  · dsimp only
    split
    · rfl
    · exact h.links q
  · dsimp only
    split
    · exact hnew q
    · exact h.fields q

theorem allocate [Inhabited T] (h : s.Mirrors A s') (hnew : ∀ p, A p default default)
    (blockSize : Nat) :
    Matched (Mirrors A) (s.allocate blockSize) (s'.allocate blockSize) := by
  have hready : Mirrors A (if s.freeListHead = none then s.allocateBlock blockSize else s)
      (if s'.freeListHead = none then s'.allocateBlock blockSize else s') := by
    rw [h.freeListHead]
    split
    · exact h.allocateBlock hnew blockSize
    · exact h
  unfold BlockStorage.allocate
  revert hready
  generalize (if s.freeListHead = none then s.allocateBlock blockSize else s) = t
  generalize (if s'.freeListHead = none then s'.allocateBlock blockSize else s') = t'
  intro ht
  dsimp only
  rw [ht.freeListHead, ht.nextOf]
  cases t.freeListHead with
  | none => exact .failed
  | some result =>
    have hcut : Mirrors A { t with freeListHead := t.nextOf result }
        { t' with freeListHead := t.nextOf result } :=
      ⟨ht.blocks, rfl, ht.usedListHead, ht.links, ht.fields⟩
    exact .returned _ _ _ (hcut.addToUsedList result)

theorem destroy (h : s.Mirrors A s') : s.destroy.Mirrors A s'.destroy :=
  ⟨rfl, rfl, rfl, h.links, h.fields⟩

theorem enumerate (h : s.Mirrors A s') (fuel : Nat) : s'.enumerate fuel = s.enumerate fuel := by
  have hnext : s'.next = s.next := h.nextOf
  unfold BlockStorage.enumerate head
  rw [hnext, h.usedListHead]

theorem allItems (h : s.Mirrors A s') (blockSize : Nat) :
    s'.allItems blockSize = s.allItems blockSize := by
  unfold BlockStorage.allItems
  rw [h.blocks]

end Mirrors

end BlockStorage

/-! ## Worlds -/

/-- Where the buffers and the requests of executors are alike, by the class of the executor. -/
abbrev Scope := Nat → Nat → Option Executor → Prop

namespace Scope

/-- Where a client is served. -/
def serving : Scope := fun _ _ exec => ∃ e, exec = some e ∧ e.Serves

/-- Also at one place, whatever the class. -/
def plus (K : Scope) (l r : Nat) : Scope := fun l' r' exec => (l' = l ∧ r' = r) ∨ K l' r' exec

/-- But not at one place. -/
def minus (K : Scope) (l r : Nat) : Scope := fun l' r' exec => ¬ (l' = l ∧ r' = r) ∧ K l' r' exec

/-- Data without a class is in the scope only where all data is. -/
def Clears (K : Scope) : Prop := ∀ l r exec, K l r none → K l r exec

theorem serving_clears : serving.Clears := by
  rintro l r exec ⟨e, he, _⟩
  cases he

theorem Clears.plus {K : Scope} (h : K.Clears) (l r : Nat) : (K.plus l r).Clears :=
  fun l' r' exec => Or.imp id (h l' r' exec)

theorem plus_self (K : Scope) (l r : Nat) (exec : Option Executor) : K.plus l r l r exec :=
  Or.inl ⟨rfl, rfl⟩

end Scope

/-- The data of the executors is alike, and the rest of the loop the same. -/
inductive LoopTwins (K : Nat → Option Executor → Prop) (x : PollLoop) : PollLoop → Prop
  | intro (execDatas : BlockStorage ExecutorData)
      (h : x.execDatas.Mirrors (fun r d d' => d.Alike (K r d.pExecutor) d') execDatas) :
      LoopTwins K x { x with execDatas := execDatas }

structure Twins (K : Scope) (w w' : World) : Prop where
  parameters : w'.parameters = w.parameters
  kernel : w'.kernel = w.kernel
  loops : ∀ l, LoopTwins (K l) (w.loops l) (w'.loops l)

namespace Twins

variable {K K' : Scope} {w w' : World} {l r : Nat}

theorem mono (h : Twins K w w')
    (hK : ∀ l r, K' l r (w.data l r).pExecutor → K l r (w.data l r).pExecutor) : Twins K' w w' := by
  refine ⟨h.parameters, h.kernel, fun l => ?_⟩
  have hloop := h.loops l
  have hl := hK l
  unfold World.data at hl
  generalize w'.loops l = y at hloop
  cases hloop with
  | intro execDatas h =>
    exact .intro execDatas ⟨h.blocks, h.freeListHead, h.usedListHead, h.links,
      fun r => (h.fields r).mono (hl r)⟩

/-- The scope grows to a place where the data is alike anyway. -/
theorem plus (h : Twins K w w') (hself : K l r (w.data l r).pExecutor) :
    Twins (K.plus l r) w w' := by
  refine h.mono (fun l' r' hplus => hplus.elim (fun hsame => ?_) id)
  rw [hsame.1, hsame.2]
  exact hself

theorem data (h : Twins K w w') (l r : Nat) :
    (w.data l r).Alike (K l r (w.data l r).pExecutor) (w'.data l r) := by
  have hloop := h.loops l
  unfold World.data
  generalize w'.loops l = y at hloop
  cases hloop with
  | intro execDatas h => exact h.fields r

theorem setLoop (h : Twins K w w') {x y : PollLoop} (hxy : LoopTwins (K l) x y) :
    Twins K (w.setLoop l x) (w'.setLoop l y) := by
  refine ⟨h.parameters, h.kernel, fun l' => ?_⟩
  by_cases hl : l' = l
  · rw [hl, World.setLoop_self, World.setLoop_self]
    exact hxy
  · rw [World.setLoop_other _ _ hl, World.setLoop_other _ _ hl]
    exact h.loops l'

/-- Data is assigned; the scope may change where it is. -/
theorem setData (h : Twins K w w') {d d' : ExecutorData} (hd : d.Alike (K' l r d.pExecutor) d')
    (hK : ∀ l' r' exec, ¬ (l' = l ∧ r' = r) → K' l' r' exec → K l' r' exec) :
    Twins K' (w.setData l r d) (w'.setData l r d') := by
  refine ⟨h.parameters, h.kernel, fun l' => ?_⟩
  have hloop := h.loops l'
  unfold World.setData
  by_cases hl : l' = l
  · subst hl
    rw [World.setLoop_self, World.setLoop_self]
    generalize w'.loops l' = y at hloop
    cases hloop with
    | intro execDatas h =>
      exact .intro _ (h.assign hd (fun q x y hq hxy =>
        hxy.mono (hK l' q _ (fun hboth => hq hboth.2))))
  · rw [World.setLoop_other _ _ hl, World.setLoop_other _ _ hl]
    generalize w'.loops l' = y at hloop
    cases hloop with
    | intro execDatas h =>
      exact .intro _ (h.mono (fun q x y hxy => hxy.mono (hK l' q _ (fun hboth => hl hboth.1))))

theorem setKernel (h : Twins K w w') (k : Kernel) :
    Twins K (w.setKernel k) (w'.setKernel k) := ⟨h.parameters, rfl, h.loops⟩

theorem setPollData (h : Twins K w w') (p : Nat) (d : PollData) :
    Twins K (w.setPollData l p d) (w'.setPollData l p d) := by
  have hloop := h.loops l
  refine h.setLoop ?_
  generalize w'.loops l = y at hloop
  cases hloop with
  | intro execDatas h => exact .intro execDatas h

theorem pollData (h : Twins K w w') : w'.pollData = w.pollData := by
  funext l p
  have hloop := h.loops l
  unfold World.pollData
  generalize w'.loops l = y at hloop
  cases hloop with
  | intro execDatas h => rfl

end Twins

/-! ## Programs -/

section
variable {K K' : Scope} {R : World → World → Prop} {l r : Nat} {α : Type}

theorem getLoop_coupled {f f' : PollLoop → Prog α}
    (hf : ∀ x y, LoopTwins (K l) x y → Coupled (Twins K) R (f x) (f' y)) :
    Coupled (Twins K) R (getLoop l >>= f) (getLoop l >>= f') :=
  fun w w' h => hf _ _ (h.loops l) w w' h

theorem modifyLoop_coupled {f f' : PollLoop → PollLoop}
    (hf : ∀ x y, LoopTwins (K l) x y → LoopTwins (K l) (f x) (f' y)) :
    Coupled (Twins K) (Twins K) (modifyLoop l f) (modifyLoop l f') :=
  .assign (fun _ _ h => h.setLoop (hf _ _ (h.loops l)))

/-- The data of the executors is not assigned to. -/
theorem modifyLoop_same {f : PollLoop → PollLoop}
    (hgraft : ∀ x execDatas, f { x with execDatas := execDatas } =
      { f x with execDatas := execDatas }) (hself : ∀ x, (f x).execDatas = x.execDatas) :
    Coupled (Twins K) (Twins K) (modifyLoop l f) (modifyLoop l f) := by
  refine modifyLoop_coupled (fun x y h => ?_)
  cases h with
  | intro execDatas h =>
    rw [hgraft x execDatas]
    exact .intro execDatas (by rw [hself]; exact h)

theorem modifyData_coupled {f f' : ExecutorData → ExecutorData}
    (hf : ∀ d d', d.Alike (K l r d.pExecutor) d' → (f d).Alike (K l r (f d).pExecutor) (f' d')) :
    Coupled (Twins K) (Twins K) (modifyData l r f) (modifyData l r f') :=
  .assign (fun _ _ h => h.setData (hf _ _ (h.data l r)) (fun _ _ _ _ hk => hk))

/-- Neither the buffer nor the request nor the class is assigned to. -/
theorem modifyData_same {f : ExecutorData → ExecutorData}
    (hgraft : ∀ d buffer request, f { d with buffer := buffer, request := request } =
      { f d with buffer := buffer, request := request })
    (hself : ∀ d, (f d).buffer = d.buffer ∧ (f d).request = d.request ∧
      (f d).pExecutor = d.pExecutor) :
    Coupled (Twins K) (Twins K) (modifyData l r f) (modifyData l r f) := by
  refine modifyData_coupled (fun d d' h => ?_)
  obtain ⟨hbuffer, hrequest, hexec⟩ := hself d
  cases h with
  | intro buffer request h =>
    rw [hgraft d buffer request, hexec]
    refine .intro buffer request (fun hk => ?_)
    rw [hbuffer, hrequest]
    exact h hk

theorem setState_coupled (state : ExecutorData.State) :
    Coupled (Twins K) (Twins K) (setState l r state) (setState l r state) :=
  modifyData_same (fun _ _ _ => rfl) (fun _ => ⟨rfl, rfl, rfl⟩)

theorem countRetry_coupled : Coupled (Twins K) (Twins K) (countRetry l r) (countRetry l r) :=
  modifyData_same (fun _ _ _ => rfl) (fun _ => ⟨rfl, rfl, rfl⟩)

theorem clearRetries_coupled : Coupled (Twins K) (Twins K) (clearRetries l r) (clearRetries l r) :=
  modifyData_same (fun _ _ _ => rfl) (fun _ => ⟨rfl, rfl, rfl⟩)

theorem when_coupled {R' : World → World → Prop} {c : Prop} [Decidable c] {m m' : Prog PUnit}
    (hm : c → Coupled R R' m m') (hR : ∀ w w', R w w' → R' w w') :
    Coupled R R' (when c m) (when c m') := by
  unfold when
  by_cases hc : c
  · rw [if_pos hc, if_pos hc]
    exact hm hc
  · rw [if_neg hc, if_neg hc]
    exact Coupled.pure.post hR

end

end EpollHttp
