import Mathlib.Data.List.Nodup
import EpollHttp.PollLoop.Ownership

/-
The calls of `close` at the end of a loop.

`destroy` runs through the destructors of all items and closes the epoll set and `eventFd`.  Its
calls are listed here in their order, and the list is counted: a descriptor that waits in the queue
is not on it, and `eventFd` is on it twice, because an executor holds it as well.
-/

namespace EpollHttp

open Program

/-! ## The calls -/

def ExecutorData.places : List Place := [.fd0, .fd1, .pipeRead, .pipeWrite]

/-- The calls of `down`. -/
def ExecutorData.downCalls (d : ExecutorData) : List Int :=
  (ExecutorData.places.map d.fdAt).filter (0 < ·)

namespace World

/-- The calls of the destructors of the items of a list; an item that is met again holds
nothing. -/
def downAllCalls (w : World) (l : Nat) : List Nat → List Nat → List Int
  | _, [] => []
  | shut, r :: rest =>
    (if r ∈ shut then [] else (w.data l r).downCalls) ++ w.downAllCalls l (r :: shut) rest

/-- The calls of `PollLoop::destroy`. -/
def closeCalls (w : World) (l : Nat) : List Int :=
  w.downAllCalls l [] (BlockStorage.allItems blockSize (w.loops l).execDatas) ++
    [(w.loops l).epollFd, (w.loops l).eventFd].filter (0 < ·)

/-- What the loop has to close: the descriptors of the executors in use, its own two, and those in
its queue. -/
def OwnedBy (w : World) (l : Nat) (fd : Int) : Prop :=
  0 < fd ∧ ((∃ r place, w.InUse l r ∧ w.fdAt l r place = fd) ∨ fd = (w.loops l).epollFd ∨
    fd = (w.loops l).eventFd ∨ ∃ d ∈ (w.loops l).newFdsQueue, d.fd = fd)

end World

/-- `PollLoop::destroy` to its end, with no other thread in between. -/
def destroyToEnd (l : Nat) : Prog PUnit := do
  destroy l
  let loop ← getLoop l
  match loop.phase with
  | .closingAgain fd next => do
    close fd
    setPhase l next
  | _ => return ⟨⟩

/-- The calls of `close` one after the other. -/
def Kernel.closeAll (k : Kernel) (calls : List Int) : Kernel := calls.foldl Kernel.close k

/-- The same descriptors are open, and as many calls of `close` were made. -/
structure Kernel.SameCloses (k k' : Kernel) : Prop where
  table : k'.table = k.table
  closes : k'.closes = k.closes

/-! ## The list is what `destroy` calls -/

namespace Kernel

variable {k k' k'' : Kernel}

theorem SameCloses.trans (h : k.SameCloses k') (h' : k'.SameCloses k'') : k.SameCloses k'' :=
  ⟨h'.table.trans h.table, h'.closes.trans h.closes⟩

theorem close_table (k : Kernel) (fd : Int) : (k.close fd).table =
    match k.table fd with
    | .opened id => Function.update k.table fd (.closed id)
    | _ => k.table := by
  unfold Kernel.close
  split
  · rename_i hslot
    rw [hslot]
  · rename_i id hslot
    show k.table = _
    rw [hslot]
  · rename_i id hslot
    show Function.update k.table fd (.closed id) = _
    rw [hslot]

theorem close_closes (k : Kernel) (fd : Int) : (k.close fd).closes =
    match (k.table fd).id? with
    | some id => Function.update k.closes id (k.closes id + 1)
    | none => k.closes := by
  unfold Kernel.close
  split
  · rename_i hslot
    rw [hslot]
    rfl
  · rename_i id hslot
    show Function.update k.closes id (k.closes id + 1) = _
    rw [hslot]
    rfl
  · rename_i id hslot
    show Function.update k.closes id (k.closes id + 1) = _
    rw [hslot]
    rfl

theorem SameCloses.close (h : k.SameCloses k') (fd : Int) :
    (k.close fd).SameCloses (k'.close fd) := by
  constructor
  · rw [close_table, close_table, h.table]
  · rw [close_closes, close_closes, h.table, h.closes]

theorem closeAll_append (k : Kernel) (calls calls' : List Int) :
    k.closeAll (calls ++ calls') = (k.closeAll calls).closeAll calls' := List.foldl_append ..

theorem closeAll_positive (k : Kernel) (fd : Int) :
    k.closeAll ([fd].filter (0 < ·)) = k.closePositive fd := by
  unfold closeAll closePositive
  by_cases hpos : 0 < fd
  · rw [List.filter_cons_of_pos (by simpa using hpos), if_pos hpos]
    rfl
  · rw [List.filter_cons_of_neg (by simpa using hpos), if_neg hpos]
    rfl

theorem closeAll_downCalls (k : Kernel) (d : ExecutorData) :
    k.closeAll d.downCalls = (((k.closePositive d.fd0).closePositive d.fd1).closePositive
      d.pipeReadFd).closePositive d.pipeWriteFd := by
  have hsplit : d.downCalls = [d.fd0].filter (0 < ·) ++ ([d.fd1].filter (0 < ·) ++
      ([d.pipeReadFd].filter (0 < ·) ++ [d.pipeWriteFd].filter (0 < ·))) := by
    rw [← List.filter_append, ← List.filter_append, ← List.filter_append]
    rfl
  rw [hsplit, closeAll_append, closeAll_append, closeAll_append, closeAll_positive,
    closeAll_positive, closeAll_positive, closeAll_positive]

end Kernel

section
variable {w w0 : World} {l r : Nat} {done : Nat → Prop}

theorem down_runs (w : World) (l r : Nat) : down l r w = some (⟨⟩,
    (w.setKernel (w.kernel.closeAll (w.data l r).downCalls)).setData l r (w.data l r).cleared) := by
  have hclose : ∀ (w : World) (fd : Int),
      closePositive fd w = some (⟨⟩, w.setKernel (w.kernel.closePositive fd)) := by
    intro w fd
    unfold closePositive Kernel.closePositive when
    split
    · rfl
    · rfl
  rw [Kernel.closeAll_downCalls]
  show (closePositive (w.data l r).fd0 w).bind _ = _
  rw [hclose, Option.bind_some]
  show (closePositive (w.data l r).fd1 _).bind _ = _
  rw [hclose, Option.bind_some]
  show (closePositive (w.data l r).pipeReadFd _).bind _ = _
  rw [hclose, Option.bind_some]
  show (closePositive (w.data l r).pipeWriteFd _).bind _ = _
  rw [hclose, Option.bind_some]
  rfl

/-- The destructors make the calls of the list, and each item is shut. -/
theorem downAll_runs (hb : Booked w0) (hone : w0.kernel.OneNumber) (rs shut : List Nat)
    (h : Shut w0 l (· ∈ shut) w) : ∃ w', downAll l rs w = some (⟨⟩, w') ∧
      w'.kernel = w.kernel.closeAll (w0.downAllCalls l shut rs) := by
  induction rs generalizing w shut with
  | nil => exact ⟨w, rfl, rfl⟩
  | cons r rest ih =>
    have hcalls : (w.data l r).downCalls = if r ∈ shut then [] else (w0.data l r).downCalls := by
      split
      · rename_i hr
        rw [h.cleared r hr]
        refine List.filter_eq_nil_iff.mpr (fun fd hfd => ?_)
        obtain ⟨place, _, rfl⟩ := List.mem_map.mp hfd
        rw [((w0.data l r).cleared_holding (hb.value l r) place).1]
        decide
      · rename_i hr
        rw [h.kept r hr]
    have hdown := down_runs w l r
    have hshut : Shut w0 l (· ∈ r :: shut) ((w.setKernel
        (w.kernel.closeAll (w.data l r).downCalls)).setData l r (w.data l r).cleared) := by
      have heq : (fun r' => r' ∈ shut ∨ r' = r) = (· ∈ r :: shut) := by
        funext r'
        rw [List.mem_cons, or_comm]
      rw [← heq]
      exact down_shut hb hone h _ _ hdown
    obtain ⟨w', hrest, hkernel⟩ := ih (r :: shut) hshut
    refine ⟨w', ?_, ?_⟩
    · show (down l r w).bind _ = _
      rw [hdown]
      exact hrest
    · rw [hkernel, World.downAllCalls, Kernel.closeAll_append, ← hcalls]
      rfl

theorem shut_start (w : World) (l : Nat) : Shut w l (· ∈ []) w := by
  refine ⟨fun _ _ => rfl, rfl, ⟨_, rfl, rfl⟩, fun _ h => (nomatch h), fun _ _ => rfl,
    (Kernel.ClosedSet.start w.kernel).congr (fun fd => ?_)⟩
  constructor
  · rintro ⟨_, r, place, hr, _⟩
    cases hr
  · exact fun hfd => hfd.elim

theorem closeCalls_destroyed {w : World} {l : Nat} (hblocks : (w.loops l).execDatas.blocks = [])
    (hepoll : (w.loops l).epollFd = -1) (hevent : (w.loops l).eventFd = -1) :
    w.closeCalls l = [] := by
  unfold World.closeCalls BlockStorage.allItems
  rw [hblocks, hepoll, hevent]
  rfl

/-- `destroy` makes the calls of the list, and a second `destroy` makes none. -/
theorem destroyToEnd_runs (h : Ledger none w) : ∃ w', destroyToEnd l w = some (⟨⟩, w') ∧
    (w.kernel.closeAll (w.closeCalls l)).SameCloses w'.kernel ∧ w'.closeCalls l = [] := by
  obtain ⟨w1, hrun, hkernel⟩ := downAll_runs h.booked h.kernel
    (BlockStorage.allItems blockSize (w.loops l).execDatas) [] (shut_start w l)
  obtain ⟨execDatas, hloop, _⟩ := (downAll_shut h.booked h.kernel _ (shut_start w l) _ _ hrun).loop
  have hevent : (w1.loops l).eventFd = (w.loops l).eventFd := by rw [hloop]
  -- The epoll set.
  obtain ⟨w2, hepoll, hsame, hloops⟩ : ∃ w2, (when (0 < (w.loops l).epollFd) (do
      close (w.loops l).epollFd
      modifyKernel (fun k => k.closeEpoll l)) : Prog PUnit) w1 = some (⟨⟩, w2) ∧
      (w1.kernel.closePositive (w.loops l).epollFd).SameCloses w2.kernel ∧
        w2.loops = w1.loops := by
    unfold when Kernel.closePositive
    split
    · exact ⟨_, rfl, ⟨rfl, rfl⟩, rfl⟩
    · exact ⟨_, rfl, ⟨rfl, rfl⟩, rfl⟩
  obtain ⟨w3, hdestroy, hkernel3, hphase, hnone⟩ : ∃ w3, destroy l w = some (⟨⟩, w3) ∧
      w3.kernel = w2.kernel ∧ (w3.loops l).phase = (if 0 < (w.loops l).eventFd then
        .closingAgain (w.loops l).eventFd .destroyed else .destroyed) ∧
        (w3.loops l).execDatas.blocks = [] ∧ (w3.loops l).epollFd = -1 ∧
          (w3.loops l).eventFd = -1 := by
    refine ⟨w2.setLoop l { w2.loops l with
      execDatas := (w2.loops l).execDatas.destroy
      pollDatas := (w2.loops l).pollDatas.destroy
      epollFd := -1
      eventFd := -1
      phase := if 0 < (w2.loops l).eventFd then .closingAgain (w2.loops l).eventFd .destroyed
        else .destroyed }, ?_, rfl, ?_⟩
    · show (downAll l _ w).bind _ = _
      rw [hrun]
      show ((when _ _ : Prog PUnit) w1).bind _ = _
      rw [hepoll]
      rfl
    · rw [World.setLoop_self, hloops, hevent]
      exact ⟨rfl, rfl, rfl, rfl⟩
  have hcalls : w.closeCalls l = w.downAllCalls l []
      (BlockStorage.allItems blockSize (w.loops l).execDatas) ++
        ([(w.loops l).epollFd].filter (0 < ·) ++ [(w.loops l).eventFd].filter (0 < ·)) := by
    rw [← List.filter_append]
    rfl
  rw [hcalls, Kernel.closeAll_append, ← hkernel, Kernel.closeAll_append, Kernel.closeAll_positive,
    Kernel.closeAll_positive]
  have hend : destroyToEnd l w = (match (w3.loops l).phase with
      | .closingAgain fd next => (do
        close fd
        setPhase l next : Prog PUnit)
      | _ => return ⟨⟩) w3 := by
    show (destroy l w).bind _ = _
    rw [hdestroy]
    rfl
  rw [hend, hphase]
  unfold Kernel.closePositive at hsame ⊢
  by_cases hpos : 0 < (w.loops l).eventFd
  · rw [if_pos hpos, if_pos hpos]
    refine ⟨_, rfl, ?_, ?_⟩
    · rw [World.setLoop_kernel]
      exact (hsame.trans ⟨by rw [hkernel3], by rw [hkernel3]⟩).close _
    · refine closeCalls_destroyed ?_ ?_ ?_ <;> rw [World.setLoop_self]
      · exact hnone.1
      · exact hnone.2.1
      · exact hnone.2.2
  · rw [if_neg hpos, if_neg hpos]
    exact ⟨w3, rfl, hsame.trans ⟨by rw [hkernel3], by rw [hkernel3]⟩,
      closeCalls_destroyed hnone.1 hnone.2.1 hnone.2.2⟩

end

/-! ## Counting -/

theorem ExecutorData.mem_downCalls {d : ExecutorData} {fd : Int} :
    fd ∈ d.downCalls ↔ 0 < fd ∧ ∃ place, d.fdAt place = fd := by
  have hall : ∀ place, place ∈ ExecutorData.places := by
    intro place
    cases place <;> decide
  unfold ExecutorData.downCalls
  rw [List.mem_filter, List.mem_map, decide_eq_true_eq, and_comm]
  constructor
  · rintro ⟨hpos, place, _, heq⟩
    exact ⟨hpos, place, heq⟩
  · rintro ⟨hpos, place, heq⟩
    exact ⟨hpos, place, hall place, heq⟩

section
variable {w : World} {l : Nat} {fd : Int}

theorem Booked.downCalls_nodup (hb : Booked w) (l r : Nat) : (w.data l r).downCalls.Nodup := by
  unfold ExecutorData.downCalls
  rw [List.filter_map]
  refine List.Nodup.map_on (fun place hplace place' _ heq => ?_)
    (List.Nodup.filter _ (by decide))
  have hpos : 0 < (w.data l r).fdAt place := by simpa using (List.mem_filter.mp hplace).2
  exact (hb.apart l r place l r place' hpos heq).2.2

theorem mem_downAllCalls {shut rs : List Nat} : fd ∈ w.downAllCalls l shut rs ↔
    0 < fd ∧ ∃ r ∈ rs, r ∉ shut ∧ ∃ place, w.fdAt l r place = fd := by
  induction rs generalizing shut with
  | nil =>
    constructor
    · exact fun h => nomatch h
    · rintro ⟨_, r, hr, _⟩
      cases hr
  | cons r rest ih =>
    rw [World.downAllCalls, List.mem_append, ih]
    constructor
    · rintro (hfirst | ⟨hpos, r', hr', hshut, hheld⟩)
      · split at hfirst
        · cases hfirst
        · rename_i hr
          obtain ⟨hpos, hheld⟩ := ExecutorData.mem_downCalls.mp hfirst
          exact ⟨hpos, r, List.mem_cons_self, hr, hheld⟩
      · rw [List.mem_cons, not_or] at hshut
        exact ⟨hpos, r', List.mem_cons_of_mem _ hr', hshut.2, hheld⟩
    · rintro ⟨hpos, r', hr', hshut, hheld⟩
      by_cases heq : r' = r
      · subst heq
        rw [if_neg hshut]
        exact Or.inl (ExecutorData.mem_downCalls.mpr ⟨hpos, hheld⟩)
      · refine Or.inr ⟨hpos, r', (List.mem_cons.mp hr').resolve_left heq, ?_, hheld⟩
        rw [List.mem_cons, not_or]
        exact ⟨heq, hshut⟩

theorem Booked.downAllCalls_nodup (hb : Booked w) (l : Nat) (shut rs : List Nat) :
    (w.downAllCalls l shut rs).Nodup := by
  induction rs generalizing shut with
  | nil => exact List.nodup_nil
  | cons r rest ih =>
    rw [World.downAllCalls]
    refine List.nodup_append.mpr ⟨?_, ih _, fun fd hfirst fd' hrest heq => ?_⟩
    · split
      · exact List.nodup_nil
      · exact hb.downCalls_nodup l r
    · split at hfirst
      · cases hfirst
      · obtain ⟨hpos, place, hheld⟩ := ExecutorData.mem_downCalls.mp hfirst
        obtain ⟨_, r', _, hshut, place', hheld'⟩ := mem_downAllCalls.mp hrest
        have hat : w.fdAt l r place = fd := hheld
        obtain ⟨_, hr, _⟩ := hb.apart l r place l r' place' (hat ▸ hpos)
          (hat.trans (heq.trans hheld'.symm))
        exact hshut (hr ▸ List.mem_cons_self)

/-- How often a descriptor is on the list: once for the executors if one holds it, and once for each
of the descriptors of the loop that it is. -/
theorem Booked.count_closeCalls (hb : Booked w) (hpos : 0 < fd) :
    ((∃ r place, w.fdAt l r place = fd) → (w.closeCalls l).count fd =
      1 + [(w.loops l).epollFd, (w.loops l).eventFd].count fd) ∧
    ((¬ ∃ r place, w.fdAt l r place = fd) → (w.closeCalls l).count fd =
      [(w.loops l).epollFd, (w.loops l).eventFd].count fd) := by
  have hsplit : (w.closeCalls l).count fd = (w.downAllCalls l []
      (BlockStorage.allItems blockSize (w.loops l).execDatas)).count fd +
        [(w.loops l).epollFd, (w.loops l).eventFd].count fd := by
    unfold World.closeCalls
    rw [List.count_append, List.count_filter (by simpa using hpos)]
  rw [hsplit]
  constructor
  · rintro ⟨r, place, hheld⟩
    have huse : w.InUse l r := by
      by_contra hidle
      have hneg := ((hb.loops l).idle r hidle place).1
      omega
    have hmem : fd ∈ w.downAllCalls l []
        (BlockStorage.allItems blockSize (w.loops l).execDatas) :=
      mem_downAllCalls.mpr ⟨hpos, r, (hb.loops l).execs.mem_allItems.mpr (Or.inl huse),
        List.not_mem_nil, place, hheld⟩
    rw [List.count_eq_one_of_mem (hb.downAllCalls_nodup ..) hmem]
  · intro hunheld
    rw [List.count_eq_zero_of_not_mem, Nat.zero_add]
    intro hmem
    obtain ⟨_, r, _, _, place, hheld⟩ := mem_downAllCalls.mp hmem
    exact hunheld ⟨r, place, hheld⟩

end

/-! ## Every descriptor once -/

section
variable {w w' : World} {l : Nat} {a : Action}

/-- The executors and the epoll set are closed once, and what waits in the queue is closed when its
number is that of `eventFd`. -/
theorem Ledger.count_iff (h : Ledger none w) (l : Nat) :
    (∀ fd, w.OwnedBy l fd → (w.closeCalls l).count fd = 1) ↔
      ¬ w.Closes l (w.loops l).eventFd ∧
        ∀ d ∈ (w.loops l).newFdsQueue, d.fd = (w.loops l).eventFd := by
  have hb := h.booked
  have hepoll : ∀ r place, 0 < w.fdAt l r place → w.fdAt l r place ≠ (w.loops l).epollFd := by
    intro r place hpos heq
    obtain ⟨_, id, hloose, _⟩ := h.epoll l (heq ▸ hpos)
    exact hloose.2 l r place heq
  have hcount : ∀ fd, [(w.loops l).epollFd, (w.loops l).eventFd].count fd =
      (if (w.loops l).epollFd = fd then 1 else 0) +
        (if (w.loops l).eventFd = fd then 1 else 0) := by
    intro fd
    rw [List.count_cons, List.count_cons, List.count_nil, Nat.zero_add, Nat.add_comm]
    simp only [beq_iff_eq]
  constructor
  · intro hall
    constructor
    · rintro ⟨hpos, hheld⟩
      have hone := hall _ ⟨hpos, Or.inr (Or.inr (Or.inl rfl))⟩
      obtain ⟨hin, hout⟩ := hb.count_closeCalls (l := l) hpos
      rw [hcount, if_pos rfl] at hin hout
      by_cases hex : ∃ r place, w.fdAt l r place = (w.loops l).eventFd
      · rw [hin hex] at hone
        omega
      · rw [hout hex, if_pos (hheld.resolve_left hex).symm] at hone
        cases hone
    · intro d hd
      obtain ⟨id, hloose⟩ := h.queue.loose l d hd
      have hpos : 0 < d.fd := hb.positive (by rw [hloose.1]; exact fun hnone => nomatch hnone)
      have hone := hall d.fd ⟨hpos, Or.inr (Or.inr (Or.inr ⟨d, hd, rfl⟩))⟩
      rw [(hb.count_closeCalls hpos).2 (fun ⟨r, place, heq⟩ => hloose.2 l r place heq), hcount,
        if_neg] at hone
      · by_contra hne
        rw [if_neg (Ne.symm hne)] at hone
        cases hone
      · intro heq
        exact (h.epoll l (heq ▸ hpos)).1 ⟨l, d, hd, heq.symm⟩
  · rintro ⟨hclear, hqueue⟩ fd ⟨hpos, howned⟩
    -- The number of `eventFd` is closed by nothing else.
    have hevent : (w.loops l).eventFd = fd → (w.closeCalls l).count fd = 1 := by
      rintro rfl
      rw [(hb.count_closeCalls hpos).2 (fun hex => hclear ⟨hpos, Or.inl hex⟩), hcount, if_pos rfl,
        if_neg (fun heq => hclear ⟨hpos, Or.inr heq.symm⟩)]
    by_cases heq : (w.loops l).eventFd = fd
    · exact hevent heq
    · rcases howned with ⟨r, place, _, hat⟩ | hfd | hfd | ⟨d, hd, hfd⟩
      · rw [(hb.count_closeCalls hpos).1 ⟨r, place, hat⟩, hcount, if_neg heq, if_neg]
        exact fun heq' => hepoll r place (hat ▸ hpos) (hat.trans heq'.symm)
      · rw [(hb.count_closeCalls hpos).2, hcount, if_neg heq, if_pos hfd.symm]
        rintro ⟨r, place, hat⟩
        exact hepoll r place (hat ▸ hpos) (hat.trans hfd)
      · exact absurd hfd.symm heq
      · exact absurd ((hqueue d hd).symm.trans hfd) heq

/-- What a second `close` hits is not open. -/
def SparesOpen (w : World) (a : Action) : Prop :=
  ∀ fd ∈ a.closesAgain w, w.kernel.openId? fd = none

instance (w : World) (a : Action) : Decidable (SparesOpen w a) :=
  inferInstanceAs (Decidable (∀ fd ∈ a.closesAgain w, _))

theorem step_steady (h : Steady w) (hstep : Run.guard SparesOpen World.step w a = some w') :
    Steady w' := by
  obtain ⟨hspares, hstep⟩ := Run.guard_some hstep
  obtain ⟨l, ht | ⟨fd, hagain, hc⟩⟩ := step_turn h hstep
  · exact ht.steady h
  · exact hc.steady (hspares fd hagain) h

theorem run_steady {parameters : ServerParameters} {actions : List Action}
    (hrun : Run.run (Run.guard SparesOpen World.step) { parameters := parameters } actions =
      some w) : Steady w :=
  Run.run_invariant (fun _ _ _ h hstep => step_steady h hstep) (steady_start parameters) hrun

/-- In every state that is reached without a second `close` of an open descriptor: `destroy`, called
once or twice, closes every descriptor of the loop once exactly when `eventFd` is no descriptor that
it closes for another reason, and nothing else waits in the queue. -/
theorem run_closedOnce {parameters : ServerParameters} {actions : List Action}
    (hrun : Run.run (Run.guard SparesOpen World.step) { parameters := parameters } actions =
      some w) (l : Nat) :
    (∃ w', destroyToEnd l w = some (⟨⟩, w') ∧
        (w.kernel.closeAll (w.closeCalls l)).SameCloses w'.kernel ∧
        ∀ fd, w.OwnedBy l fd → (w.closeCalls l ++ w'.closeCalls l).count fd = 1) ↔
      ¬ w.Closes l (w.loops l).eventFd ∧
        ∀ d ∈ (w.loops l).newFdsQueue, d.fd = (w.loops l).eventFd := by
  have hsteady := run_steady hrun
  obtain ⟨w', hend, hsame, hnil⟩ := destroyToEnd_runs (l := l) hsteady.ledger
  rw [← hsteady.ledger.count_iff l]
  constructor
  · rintro ⟨w'', hend', _, hcount⟩
    obtain rfl : w'' = w' := congrArg Prod.snd (Option.some.inj (hend'.symm.trans hend))
    rw [hnil, List.append_nil] at hcount
    exact hcount
  · intro hcount
    refine ⟨w', hend, hsame, ?_⟩
    rw [hnil, List.append_nil]
    exact hcount

end

/-- A client is served; then `epoll_wait` reports an error of `eventFd`, and its executor is
removed. -/
def removedEventFd : List Action :=
  [.init 0 { epollCreate := 3, eventfd := 4 },
    .listenPort 0 .server { socket := 5 },
    .epollWait 0 [(5, EPOLLIN)] 0,
    .continue 0 { accept4 := 6 },
    .continue 0 {},
    .epollWait 0 [(4, EPOLLERR)] 0,
    .continue 0 {}]

theorem run_closedOnce_removedEventFd : ∃ w,
    Run.run (Run.guard SparesOpen World.step) { parameters := { rootFolder := [47] } }
      removedEventFd = some w ∧ w.OwnedBy 0 5 ∧ w.OwnedBy 0 6 ∧
    ∃ w', destroyToEnd 0 w = some (⟨⟩, w') ∧
      (w.kernel.closeAll (w.closeCalls 0)).SameCloses w'.kernel ∧
      ∀ fd, w.OwnedBy 0 fd → (w.closeCalls 0 ++ w'.closeCalls 0).count fd = 1 := by
  have hrun : (Run.run (Run.guard SparesOpen World.step)
      { parameters := { rootFolder := [47] } } removedEventFd).map (fun w =>
        (decide (w.InUse 0 1 ∧ w.InUse 0 2), [w.fdAt 0 1 .fd0, w.fdAt 0 2 .fd0,
          (w.loops 0).epollFd, (w.loops 0).eventFd], w.kernel.openId? 4,
          (w.loops 0).newFdsQueue.length)) = some (true, [5, 6, 3, 4], none, 0) := by
    decide +kernel
  obtain ⟨w, hw, heq⟩ := Option.map_eq_some_iff.mp hrun
  obtain ⟨⟨huse1, huse2⟩, ⟨hfd1, hfd2, hepoll, hevent⟩, hclosed, hqueue⟩ :
      (w.InUse 0 1 ∧ w.InUse 0 2) ∧ (w.fdAt 0 1 .fd0 = 5 ∧ w.fdAt 0 2 .fd0 = 6 ∧
        (w.loops 0).epollFd = 3 ∧ (w.loops 0).eventFd = 4) ∧ w.kernel.openId? 4 = none ∧
          (w.loops 0).newFdsQueue.length = 0 := by simpa using heq
  refine ⟨w, hw, ⟨by decide, Or.inl ⟨1, .fd0, huse1, hfd1⟩⟩,
    ⟨by decide, Or.inl ⟨2, .fd0, huse2, hfd2⟩⟩, (run_closedOnce hw 0).mpr ⟨?_, ?_⟩⟩
  · rw [hevent]
    rintro ⟨_, ⟨r, place, hheld⟩ | heq⟩
    · exact (run_steady hw).ledger.booked.unheld_of_closed (by decide) hclosed 0 r place hheld
    · rw [hepoll] at heq
      cases heq
  · rw [List.length_eq_zero_iff.mp hqueue]
    exact fun d hd => nomatch hd

/-- The executor of `eventFd` holds it when the loop ends. -/
theorem initialised_closesTwice : ∃ w,
    Run.run World.step { parameters := twoThreads } [.init 0 { epollCreate := 3, eventfd := 4 }] =
      some w ∧
    ¬ ∃ w', destroyToEnd 0 w = some (⟨⟩, w') ∧
      ∀ fd, w.OwnedBy 0 fd → (w.closeCalls 0 ++ w'.closeCalls 0).count fd = 1 := by
  have hrun : (Run.run (Run.guard SparesOpen World.step) { parameters := twoThreads }
      [.init 0 { epollCreate := 3, eventfd := 4 }]).map (fun w =>
        ((w.loops 0).eventFd, w.fdAt 0 0 .fd0)) = some (4, 4) := by
    decide +kernel
  obtain ⟨w, hw, heq⟩ := Option.map_eq_some_iff.mp hrun
  obtain ⟨hevent, hheld⟩ : (w.loops 0).eventFd = 4 ∧ w.fdAt 0 0 .fd0 = 4 := by simpa using heq
  refine ⟨w, Run.run_of_guard hw, ?_⟩
  rintro ⟨w', _, hcount⟩
  have hledger := (run_steady hw).ledger
  have howned : w.OwnedBy 0 4 := ⟨by decide, Or.inr (Or.inr (Or.inl hevent.symm))⟩
  have htwice : (w.closeCalls 0).count 4 = 1 + [(w.loops 0).epollFd, (w.loops 0).eventFd].count 4 :=
    (hledger.booked.count_closeCalls (by decide)).1 ⟨0, .fd0, hheld⟩
  have hone := hcount 4 howned
  rw [List.count_append, htwice, hevent, List.count_cons, List.count_cons_self] at hone
  omega

end EpollHttp
