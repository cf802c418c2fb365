import EpollHttp.PollLoop.Effects

/-
The books of the loops: who holds which descriptor, and who waits for it.

An item of `PollData` belongs to one place of one executor that is in use, the epoll set consists
of the descriptors at these places, and a descriptor is held at one place only.
-/

namespace EpollHttp

/-- The loop was not destroyed. -/
def Phase.Live : Phase → Prop
  | .destroyed => False
  | .closingAgain _ next => next.Live
  | _ => True

structure LoopBooked (w : World) (l : Nat) : Prop where
  polls : (w.loops l).pollDatas.Sound blockSize
  execs : (w.loops l).execDatas.Sound blockSize
  idle : ∀ r, ¬ w.InUse l r → ∀ place, w.fdAt l r place = -1 ∧ w.pollDataAt l r place = none
  slot : ∀ r place p, w.pollDataAt l r place = some p → p ∈ w.usedPolls l ∧
    w.pollData l p = { fd := w.fdAt l r place, execData := some r } ∧
    ∃ reg, w.kernel.epoll l (w.fdAt l r place) = some reg ∧ reg.ptr = p
  item : ∀ p ∈ w.usedPolls l, ∃ r place, w.pollDataAt l r place = some p
  entry : ∀ fd reg, w.kernel.epoll l fd = some reg →
    ∃ r place, w.pollDataAt l r place = some reg.ptr ∧ w.fdAt l r place = fd
  alone : ∀ r, (w.data l r).Requester → (w.data l r).Alone
  count : (w.loops l).phase.Live → (w.loops l).numOfPollFds = (w.usedPolls l).length
  free : (w.loops l).phase.Live → ∀ p, p ∉ w.usedPolls l → (w.pollData l p).execData = none

structure Booked (w : World) : Prop where
  loops : ∀ l, LoopBooked w l
  held : ∀ l r place, 0 < w.fdAt l r place → w.kernel.openId? (w.fdAt l r place) ≠ none
  apart : ∀ l r place l' r' place', 0 < w.fdAt l r place →
    w.fdAt l r place = w.fdAt l' r' place' → l = l' ∧ r = r' ∧ place = place'
  value : ∀ l r place, w.fdAt l r place = -1 ∨ 0 < w.fdAt l r place
  never : ∀ fd, ¬ 0 < fd → w.kernel.table fd = .never
  registered : ∀ l fd, w.kernel.epoll l fd ≠ none → w.kernel.openId? fd ≠ none

/-! ## Reading the books -/

section
variable {w : World} {l r : Nat} {place : Place} {fd : Int} {p : Nat}

theorem Booked.positive (h : Booked w) (hopen : w.kernel.openId? fd ≠ none) : 0 < fd := by
  by_contra hneg
  apply hopen
  unfold Kernel.openId?
  rw [h.never fd hneg]
  rfl

/-- What is watched is a descriptor. -/
theorem Booked.watched_positive (h : Booked w) (hp : w.pollDataAt l r place = some p) :
    0 < w.fdAt l r place := by
  obtain ⟨_, _, reg, hreg, _⟩ := (h.loops l).slot r place p hp
  refine h.positive (h.registered l _ ?_)
  rw [hreg]
  exact fun hnone => nomatch hnone

theorem Booked.inUse (h : Booked w) (hp : w.pollDataAt l r place = some p) : w.InUse l r := by
  by_contra hidle
  have hnone := ((h.loops l).idle r hidle place).2
  rw [hp] at hnone
  cases hnone

/-- An item belongs to one place. -/
theorem Booked.slot_unique (h : Booked w) {r' : Nat} {place' : Place}
    (hp : w.pollDataAt l r place = some p) (hp' : w.pollDataAt l r' place' = some p) :
    r = r' ∧ place = place' := by
  obtain ⟨_, hd, _⟩ := (h.loops l).slot r place p hp
  obtain ⟨_, hd', _⟩ := (h.loops l).slot r' place' p hp'
  have hfd : w.fdAt l r place = w.fdAt l r' place' := by
    rw [hd] at hd'
    exact (PollData.mk.inj hd').1
  exact (h.apart l r place l r' place' (h.watched_positive hp) hfd).2

end

/-- Nobody holds the descriptor. -/
def World.Unheld (w : World) (fd : Int) : Prop := ∀ l r place, w.fdAt l r place ≠ fd

theorem Booked.unheld_of_closed {w : World} {fd : Int} (h : Booked w) (hpos : 0 < fd)
    (hclosed : w.kernel.openId? fd = none) : w.Unheld fd := by
  intro l r place heq
  exact h.held l r place (heq ▸ hpos) (heq ▸ hclosed)

/-- A descriptor that nobody holds is in no epoll set. -/
theorem Booked.unregistered {w : World} {fd : Int} (h : Booked w) (hun : w.Unheld fd) (l : Nat) :
    w.kernel.epoll l fd = none := by
  cases hreg : w.kernel.epoll l fd with
  | none => rfl
  | some reg =>
    obtain ⟨r, place, _, hfd⟩ := (h.loops l).entry _ reg hreg
    exact absurd hfd (hun l r place)

/-! ## Changes that leave the books alone -/

/-- The books read the same; more descriptors may be open. -/
structure SameBooks (w w' : World) : Prop where
  polls : ∀ l, (w'.loops l).pollDatas.Sound blockSize
  execs : ∀ l, (w'.loops l).execDatas.Sound blockSize
  /-- What is no longer in use holds nothing. -/
  inUse : ∀ l r, w.InUse l r →
    w'.InUse l r ∨ ∀ place, w.fdAt l r place = -1 ∧ w.pollDataAt l r place = none
  usedPolls : ∀ l p, p ∈ w'.usedPolls l ↔ p ∈ w.usedPolls l
  pollData : ∀ l, ∀ p ∈ w.usedPolls l, w'.pollData l p = w.pollData l p
  freed : ∀ l p, p ∉ w.usedPolls l → (w.pollData l p).execData = none →
    (w'.pollData l p).execData = none
  fdAt : ∀ l r place, w'.fdAt l r place = w.fdAt l r place
  pollDataAt : ∀ l r place, w'.pollDataAt l r place = w.pollDataAt l r place
  alone : ∀ l r, (w'.data l r).Requester → (w'.data l r).Alone
  count : ∀ l, (w'.loops l).numOfPollFds = (w.loops l).numOfPollFds
  live : ∀ l, (w'.loops l).phase.Live → (w.loops l).phase.Live
  opened : ∀ fd, w.kernel.openId? fd ≠ none → w'.kernel.openId? fd ≠ none
  never : ∀ fd, ¬ 0 < fd → w.kernel.table fd = .never → w'.kernel.table fd = .never
  epoll : ∀ l fd, (w'.kernel.epoll l fd).map Registration.ptr =
    (w.kernel.epoll l fd).map Registration.ptr

theorem usedItems_nodup {T : Type} {s : BlockStorage T} (h : s.Sound blockSize) :
    (s.usedItems blockSize).Nodup := (List.nodup_append.mp h.nodup).1

theorem SameBooks.booked {w w' : World} (h : Booked w) (hs : SameBooks w w') : Booked w' := by
  refine ⟨fun l => ⟨hs.polls l, hs.execs l, fun r hr place => ?_, fun r place p hp => ?_,
    fun p hp => ?_, fun fd reg hreg => ?_, hs.alone l, fun hlive => ?_, fun hlive p hp => ?_⟩,
    fun l r place => ?_, fun l r place l' r' place' => ?_, fun l r place => ?_, fun fd hfd => ?_,
    fun l fd hreg => ?_⟩
  · rw [hs.fdAt, hs.pollDataAt]
    by_cases huse : w.InUse l r
    · exact (hs.inUse l r huse).resolve_left hr place
    · exact (h.loops l).idle r huse place
  · rw [hs.pollDataAt] at hp
    obtain ⟨hused, hd, reg, hreg, hptr⟩ := (h.loops l).slot r place p hp
    have hmap := hs.epoll l (w.fdAt l r place)
    rw [hreg] at hmap
    obtain ⟨reg', hreg', hptr'⟩ := Option.map_eq_some_iff.mp hmap
    rw [hs.fdAt, hs.pollData l p hused]
    exact ⟨(hs.usedPolls l p).mpr hused, hd, reg', hreg', hptr'.trans hptr⟩
  · obtain ⟨r, place, hslot⟩ := (h.loops l).item p ((hs.usedPolls l p).mp hp)
    exact ⟨r, place, (hs.pollDataAt l r place).trans hslot⟩
  · have hmap := hs.epoll l fd
    rw [hreg] at hmap
    obtain ⟨reg', hreg', hptr'⟩ := Option.map_eq_some_iff.mp hmap.symm
    obtain ⟨r, place, hslot, hfd⟩ := (h.loops l).entry fd reg' hreg'
    exact ⟨r, place, (hs.pollDataAt l r place).trans (hslot.trans (by rw [hptr'])),
      (hs.fdAt l r place).trans hfd⟩
  · have hperm : (w'.usedPolls l).Perm (w.usedPolls l) :=
      (List.perm_ext_iff_of_nodup (usedItems_nodup (hs.polls l))
        (usedItems_nodup (h.loops l).polls)).mpr (hs.usedPolls l)
    rw [hs.count, hperm.length_eq]
    exact (h.loops l).count (hs.live l hlive)
  · have hfree : p ∉ w.usedPolls l := fun hused => hp ((hs.usedPolls l p).mpr hused)
    exact hs.freed l p hfree ((h.loops l).free (hs.live l hlive) p hfree)
  · rw [hs.fdAt]
    exact fun hpos => hs.opened _ (h.held l r place hpos)
  · rw [hs.fdAt, hs.fdAt]
    exact h.apart l r place l' r' place'
  · rw [hs.fdAt]
    exact h.value l r place
  · exact hs.never fd hfd (h.never fd hfd)
  · refine hs.opened fd (h.registered l fd (fun hnone => hreg ?_))
    have hmap := hs.epoll l fd
    rw [hnone] at hmap
    exact Option.map_eq_none_iff.mp hmap

/-! ## Views of a changed world -/

namespace World

section
variable (w : World) (l r : Nat) (d : ExecutorData)

theorem setData_fdAt (l' r' : Nat) (place : Place) : (w.setData l r d).fdAt l' r' place =
    if l' = l ∧ r' = r then d.fdAt place else w.fdAt l' r' place := by
  unfold fdAt
  split
  · rename_i h
    rw [h.1, h.2, setData_self]
  · rename_i h
    rw [setData_other _ _ h]

theorem setData_pollDataAt (l' r' : Nat) (place : Place) :
    (w.setData l r d).pollDataAt l' r' place =
      if l' = l ∧ r' = r then d.pollDataAt place else w.pollDataAt l' r' place := by
  unfold pollDataAt
  split
  · rename_i h
    rw [h.1, h.2, setData_self]
  · rename_i h
    rw [setData_other _ _ h]

/-- Only the storage of `ExecutorData` is changed by an assignment to one of them. -/
theorem setData_loops (l' : Nat) : (w.setData l r d).loops l' =
    { w.loops l' with
      execDatas := if l' = l then (w.loops l).execDatas.assign r d else (w.loops l').execDatas } := by
  unfold setData
  by_cases h : l' = l
  · rw [h, setLoop_self, if_pos rfl]
  · rw [setLoop_other _ _ h, if_neg h]

@[simp] theorem setData_usedPolls (l' : Nat) : (w.setData l r d).usedPolls l' = w.usedPolls l' := by
  unfold usedPolls
  rw [setData_loops]

end

end World

section
variable {w : World} {l r : Nat}

theorem sound_setData {d : ExecutorData} (h : ∀ l, (w.loops l).execDatas.Sound blockSize)
    (l' : Nat) : ((w.setData l r d).loops l').execDatas.Sound blockSize := by
  rw [World.setData_loops]
  dsimp only
  split
  · exact ((h l).assign r d).1
  · exact h l'

/-- The data in use and the data that is free are the same, in the same order. -/
structure SameLists (w w' : World) : Prop where
  used : ∀ l, (w'.loops l).execDatas.usedItems blockSize =
    (w.loops l).execDatas.usedItems blockSize
  free : ∀ l, (w'.loops l).execDatas.freeItems blockSize =
    (w.loops l).execDatas.freeItems blockSize

theorem SameLists.inUse {w' : World} (h : SameLists w w') (l' r' : Nat) :
    w'.InUse l' r' ↔ w.InUse l' r' := by
  unfold World.InUse
  rw [h.used]

theorem SameLists.sameLoops {w' : World} (h : w'.loops = w.loops) : SameLists w w' :=
  ⟨fun _ => by rw [h], fun _ => by rw [h]⟩

theorem SameLists.trans {w' w'' : World} (h : SameLists w w') (h' : SameLists w' w'') :
    SameLists w w'' :=
  ⟨fun l => (h'.used l).trans (h.used l), fun l => (h'.free l).trans (h.free l)⟩

/-- Only the fields of one item are assigned. -/
theorem SameLists.assign {w' : World} {d : ExecutorData}
    (h : (w.loops l).execDatas.Sound blockSize)
    (hself : (w'.loops l).execDatas = (w.loops l).execDatas.assign r d)
    (hothers : ∀ l', l' ≠ l → w'.loops l' = w.loops l') : SameLists w w' := by
  obtain ⟨_, hused, hfree⟩ := h.assign r d
  constructor
  · intro l'
    by_cases hl : l' = l
    · rw [hl, hself, hused]
    · rw [hothers l' hl]
  · intro l'
    by_cases hl : l' = l
    · rw [hl, hself, hfree]
    · rw [hothers l' hl]

theorem setData_sameLists {d : ExecutorData} (h : ∀ l, (w.loops l).execDatas.Sound blockSize) :
    SameLists w (w.setData l r d) :=
  .assign (r := r) (d := d) (h l) (by rw [World.setData, World.setLoop_self])
    (fun _ hl => World.setLoop_other _ _ hl _)

theorem inUse_setData {d : ExecutorData} (h : ∀ l, (w.loops l).execDatas.Sound blockSize)
    (l' r' : Nat) : (w.setData l r d).InUse l' r' ↔ w.InUse l' r' :=
  (setData_sameLists h).inUse l' r'

theorem Booked.setData {d : ExecutorData} (h : Booked w) (hheld : (w.data l r).SameHolding d)
    (halone : d.Requester → d.Alone) : Booked (w.setData l r d) := by
  have hexecs : ∀ l, (w.loops l).execDatas.Sound blockSize := fun l => (h.loops l).execs
  refine SameBooks.booked h ⟨fun l' => ?_, sound_setData hexecs,
    fun l' r' huse => Or.inl ((inUse_setData hexecs l' r').mpr huse),
    fun l' p => by rw [World.setData_usedPolls], fun l' p _ => by rw [World.setData_pollData],
    fun l' p _ => by rw [World.setData_pollData]; exact id, fun l' r' place => ?_,
    fun l' r' place => ?_, fun l' r' => ?_, fun l' => by rw [World.setData_loops],
    fun l' => by rw [World.setData_loops]; exact id, fun fd => id, fun fd _ => id,
    fun l' fd => rfl⟩
  · rw [World.setData_loops]
    exact (h.loops l').polls
  · rw [World.setData_fdAt]
    split
    · rename_i heq
      rw [heq.1, heq.2]
      exact hheld.1 place
    · rfl
  · rw [World.setData_pollDataAt]
    split
    · rename_i heq
      rw [heq.1, heq.2]
      exact hheld.2 place
    · rfl
  · by_cases heq : l' = l ∧ r' = r
    · rw [heq.1, heq.2, World.setData_self]
      exact halone
    · rw [World.setData_other _ _ heq]
      exact (h.loops l').alone r'

theorem Booked.setKernel {k : Kernel} (h : Booked w)
    (hopen : ∀ fd, w.kernel.openId? fd ≠ none → k.openId? fd ≠ none)
    (hnever : ∀ fd, ¬ 0 < fd → w.kernel.table fd = .never → k.table fd = .never)
    (hepoll : ∀ l fd, (k.epoll l fd).map Registration.ptr =
      (w.kernel.epoll l fd).map Registration.ptr) : Booked (w.setKernel k) :=
  SameBooks.booked h ⟨fun l => (h.loops l).polls, fun l => (h.loops l).execs,
    fun _ _ => Or.inl, fun _ _ => Iff.rfl, fun _ _ _ => rfl, fun _ _ _ => id, fun _ _ _ => rfl,
    fun _ _ _ => rfl, fun l => (h.loops l).alone, fun _ => rfl, fun _ => id, hopen, hnever, hepoll⟩

theorem Booked.sameTables {k : Kernel} (h : Booked w) (hk : w.kernel.SameTables k) :
    Booked (w.setKernel k) :=
  h.setKernel (fun fd hfd => by rw [hk.openId?]; exact hfd)
    (fun fd _ hnever => by rw [hk.table]; exact hnever) (fun l fd => by rw [hk.epoll])

/-- A change of a loop that leaves the descriptors and the items at their places. -/
theorem Booked.setExecDatas {loop : PollLoop} (h : Booked w)
    (hpolls : loop.pollDatas = (w.loops l).pollDatas)
    (hexecs : loop.execDatas.Sound blockSize)
    (hinUse : ∀ r, w.InUse l r → r ∈ loop.execDatas.usedItems blockSize ∨
      ∀ place, w.fdAt l r place = -1 ∧ w.pollDataAt l r place = none)
    (hheld : ∀ r, (w.data l r).SameHolding (loop.execDatas.items r).fields)
    (halone : ∀ r, (loop.execDatas.items r).fields.Requester →
      (loop.execDatas.items r).fields.Alone)
    (hcount : loop.numOfPollFds = (w.loops l).numOfPollFds)
    (hlive : loop.phase.Live → (w.loops l).phase.Live) : Booked (w.setLoop l loop) := by
  have hself : ∀ r, (w.setLoop l loop).data l r = (loop.execDatas.items r).fields := by
    intro r
    unfold World.data
    rw [World.setLoop_self]
  have hdata : ∀ l' r', l' ≠ l → (w.setLoop l loop).data l' r' = w.data l' r' := by
    intro l' r' hl
    unfold World.data
    rw [World.setLoop_other _ _ hl]
  have hloop : ∀ l', ((w.setLoop l loop).loops l').pollDatas = (w.loops l').pollDatas ∧
      ((w.setLoop l loop).loops l').numOfPollFds = (w.loops l').numOfPollFds ∧
      (((w.setLoop l loop).loops l').phase.Live → (w.loops l').phase.Live) := by
    intro l'
    by_cases hl : l' = l
    · rw [hl, World.setLoop_self]
      exact ⟨hpolls, hcount, hlive⟩
    · rw [World.setLoop_other _ _ hl]
      exact ⟨rfl, rfl, id⟩
  refine SameBooks.booked h ⟨fun l' => ?_, fun l' => ?_, fun l' r' huse => ?_,
    fun l' p => ?_, fun l' p _ => ?_, fun l' p _ => ?_, fun l' r' place => ?_,
    fun l' r' place => ?_, fun l' r' => ?_, fun l' => (hloop l').2.1, fun l' => (hloop l').2.2,
    fun fd => id, fun fd _ => id, fun l' fd => rfl⟩
  · rw [(hloop l').1]
    exact (h.loops l').polls
  · by_cases hl : l' = l
    · rw [hl, World.setLoop_self]
      exact hexecs
    · rw [World.setLoop_other _ _ hl]
      exact (h.loops l').execs
  · unfold World.InUse
    by_cases hl : l' = l
    · rw [hl] at huse ⊢
      rw [World.setLoop_self]
      exact hinUse r' huse
    · rw [World.setLoop_other _ _ hl]
      exact Or.inl huse
  · unfold World.usedPolls
    rw [(hloop l').1]
  · unfold World.pollData
    rw [(hloop l').1]
  · unfold World.pollData
    rw [(hloop l').1]
    exact id
  · unfold World.fdAt
    by_cases hl : l' = l
    · rw [hl, hself]
      exact (hheld r').1 place
    · rw [hdata l' r' hl]
  · unfold World.pollDataAt
    by_cases hl : l' = l
    · rw [hl, hself]
      exact (hheld r').2 place
    · rw [hdata l' r' hl]
  · by_cases hl : l' = l
    · rw [hl, hself]
      exact halone r'
    · rw [hdata l' r' hl]
      exact (h.loops l').alone r'

/-- A change of a loop that touches neither the storages nor the counter. -/
theorem Booked.setLoop {loop : PollLoop} (h : Booked w)
    (hpolls : loop.pollDatas = (w.loops l).pollDatas)
    (hexecs : loop.execDatas = (w.loops l).execDatas)
    (hcount : loop.numOfPollFds = (w.loops l).numOfPollFds)
    (hlive : loop.phase.Live → (w.loops l).phase.Live) : Booked (w.setLoop l loop) := by
  refine h.setExecDatas hpolls (by rw [hexecs]; exact (h.loops l).execs)
    (fun r huse => Or.inl (by rw [hexecs]; exact huse)) (fun r => ?_) ?_ hcount hlive
  · rw [hexecs]
    exact ExecutorData.SameHolding.refl _
  · rw [hexecs]
    exact (h.loops l).alone

end

end EpollHttp
