import EpollHttp.PollLoop.Queue

/-
What `destroy` does.

It closes every descriptor of the loop without a call on the epoll set, and drops both storages as
they are.
-/

namespace EpollHttp

open Program

/-! ## Closing a set of descriptors -/

/-- The open descriptors of the set `S` were closed, each of them once. -/
structure Kernel.ClosedSet (k0 : Kernel) (S : Int → Prop) (k : Kernel) : Prop where
  closed : ∀ fd, S fd → k.openId? fd = none ∧ ∀ l, k.epoll l fd = none
  kept : ∀ fd, ¬ S fd → k.table fd = k0.table fd ∧ ∀ l, k.epoll l fd = k0.epoll l fd
  nextId : k.nextId = k0.nextId
  accepted : k.accepted = k0.accepted
  nextSerial : k.nextSerial = k0.nextSerial
  closes : ∀ id, (∃ fd, S fd ∧ k0.openId? fd = some id) → k.closes id = k0.closes id + 1
  spared : ∀ id, (¬ ∃ fd, S fd ∧ k0.openId? fd = some id) → k.closes id = k0.closes id

/-- An open object is behind one number. -/
def Kernel.OneNumber (k : Kernel) : Prop :=
  ∀ fd fd' id, k.openId? fd = some id → k.openId? fd' = some id → fd = fd'

namespace Kernel.ClosedSet

variable {k0 k : Kernel} {S : Int → Prop} {fd : Int} {id : Nat}

theorem start (k : Kernel) : k.ClosedSet (fun _ => False) k :=
  ⟨fun _ h => h.elim, fun _ _ => ⟨rfl, fun _ => rfl⟩, rfl, rfl, rfl,
    fun _ h => by obtain ⟨_, h, _⟩ := h; exact h.elim, fun _ _ => rfl⟩

theorem congr (h : k0.ClosedSet S k) {S' : Int → Prop} (hS : ∀ fd, S' fd ↔ S fd) :
    k0.ClosedSet S' k := by
  have heq : S' = S := funext fun fd => propext (hS fd)
  rw [heq]
  exact h

theorem close_fields (k : Kernel) (h : k.openId? fd = some id) :
    (k.close fd).nextId = k.nextId ∧ (k.close fd).accepted = k.accepted ∧
      (k.close fd).nextSerial = k.nextSerial ∧
      (k.close fd).closes = Function.update k.closes id (k.closes id + 1) := by
  unfold Kernel.openId? at h
  unfold Kernel.close
  split
  · rename_i hslot
    rw [hslot] at h
    cases h
  · rename_i hslot
    rw [hslot] at h
    cases h
  · rename_i id' hslot
    rw [hslot] at h
    obtain rfl : id' = id := Option.some.inj h
    exact ⟨rfl, rfl, rfl, rfl⟩

/-- One more descriptor is closed. -/
theorem close (h : k0.ClosedSet S k) (hone : k0.OneNumber) (hopen : k0.openId? fd = some id)
    (hnew : ¬ S fd) : k0.ClosedSet (fun fd' => S fd' ∨ fd' = fd) (k.close fd) := by
  have hk : k.openId? fd = some id := by
    unfold Kernel.openId? at hopen ⊢
    rw [(h.kept fd hnew).1]
    exact hopen
  obtain ⟨hnextId, haccepted, hserial, hcloses⟩ := close_fields k hk
  have hself : ∀ id', (∃ fd', S fd' ∧ k0.openId? fd' = some id') → id' ≠ id := by
    rintro id' ⟨fd', hS, hfd'⟩ rfl
    exact hnew (hone fd' fd id' hfd' hopen ▸ hS)
  refine ⟨fun fd' hfd' => ?_, fun fd' hfd' => ?_, hnextId.trans h.nextId,
    haccepted.trans h.accepted, hserial.trans h.nextSerial, fun id' hid' => ?_,
    fun id' hid' => ?_⟩
  · by_cases heq : fd' = fd
    · rw [heq]
      refine ⟨Kernel.openId?_close_self, fun l => Kernel.epoll_close_self ?_⟩
      rw [hk]
      exact fun hnone => nomatch hnone
    · have hS := hfd'.resolve_right heq
      refine ⟨(Kernel.openId?_close_of_ne heq).trans (h.closed fd' hS).1, fun l => ?_⟩
      exact (Kernel.epoll_close_of_ne heq).trans ((h.closed fd' hS).2 l)
  · have heq : fd' ≠ fd := fun heq => hfd' (Or.inr heq)
    have hS : ¬ S fd' := fun hS => hfd' (Or.inl hS)
    exact ⟨(Kernel.close_table_of_ne _ heq).trans (h.kept fd' hS).1,
      fun l => (Kernel.epoll_close_of_ne heq).trans ((h.kept fd' hS).2 l)⟩
  · obtain ⟨fd', hS | rfl, hfd'⟩ := hid'
    · have hne := hself id' ⟨fd', hS, hfd'⟩
      rw [hcloses, Function.update_of_ne hne]
      exact h.closes id' ⟨fd', hS, hfd'⟩
    · obtain rfl : id = id' := Option.some.inj (hopen.symm.trans hfd')
      have hspared := h.spared id (fun hex => hself id hex rfl)
      rw [hcloses, Function.update_self, hspared]
  · have hne : id' ≠ id := by
      rintro rfl
      exact hid' ⟨fd, Or.inr rfl, hopen⟩
    rw [hcloses, Function.update_of_ne hne]
    exact h.spared id' (fun ⟨fd', hS, hfd'⟩ => hid' ⟨fd', Or.inl hS, hfd'⟩)

end Kernel.ClosedSet

/-! ## The data of one executor -/

/-- The data of the executors of `done` was cleared and their descriptors were closed. -/
structure Shut (w0 : World) (l : Nat) (done : Nat → Prop) (w : World) : Prop where
  others : ∀ l', l' ≠ l → w.loops l' = w0.loops l'
  parameters : w.parameters = w0.parameters
  loop : ∃ execDatas, w.loops l = { w0.loops l with execDatas := execDatas } ∧
    execDatas.blocks = (w0.loops l).execDatas.blocks
  cleared : ∀ r, done r → w.data l r = (w0.data l r).cleared
  kept : ∀ r, ¬ done r → w.data l r = w0.data l r
  kernel : w0.kernel.ClosedSet
    (fun fd => 0 < fd ∧ ∃ r place, done r ∧ w0.fdAt l r place = fd) w.kernel

section
variable {w0 w : World} {l r : Nat} {done : Nat → Prop}

theorem cleared_cleared (d : ExecutorData) : d.cleared.cleared = d.cleared := by
  have htwice : ∀ fd : Int, (if 0 < (if 0 < fd then -1 else fd) then -1 else
      (if 0 < fd then -1 else fd)) = if 0 < fd then -1 else fd := by
    intro fd
    by_cases hpos : 0 < fd
    · simp [hpos]
    · simp [hpos]
  simp only [ExecutorData.cleared, ExecutorData.mk.injEq, true_and, and_true]
  exact ⟨htwice d.fd0, htwice d.fd1, htwice d.pipeReadFd, htwice d.pipeWriteFd, rfl⟩

/-- `closePositive` in the kernel. -/
def Kernel.closePositive (k : Kernel) (fd : Int) : Kernel := if 0 < fd then k.close fd else k

theorem ensures_closePositive {w : World} {fd : Int} {Q : PUnit → World → Prop} :
    Ensures (closePositive fd) w Q ↔ Q ⟨⟩ (w.setKernel (w.kernel.closePositive fd)) := by
  unfold closePositive Kernel.closePositive
  rw [ensures_when, ensures_close]
  split
  · rename_i hpos
    simp [hpos]
  · rename_i hneg
    have hself : w.setKernel w.kernel = w := rfl
    simp [hneg, hself]

/-- A place of an executor is closed that was not closed before. -/
theorem closePlace (hb : Booked w0) (hone : w0.kernel.OneNumber) {S : Int → Prop} {k : Kernel}
    (hk : w0.kernel.ClosedSet S k) (place : Place)
    (hnew : 0 < w0.fdAt l r place → ¬ S (w0.fdAt l r place)) :
    w0.kernel.ClosedSet (fun fd => S fd ∨ (0 < fd ∧ fd = w0.fdAt l r place))
      (k.closePositive (w0.fdAt l r place)) := by
  unfold Kernel.closePositive
  split
  · rename_i hpos
    obtain ⟨id, hid⟩ := Option.ne_none_iff_exists'.mp (hb.held l r place hpos)
    refine (hk.close hone hid (hnew hpos)).congr (fun fd => ?_)
    constructor
    · rintro (hS | ⟨_, heq⟩)
      · exact Or.inl hS
      · exact Or.inr heq
    · rintro (hS | heq)
      · exact Or.inl hS
      · exact Or.inr ⟨heq ▸ hpos, heq⟩
  · rename_i hneg
    refine hk.congr (fun fd => ?_)
    constructor
    · rintro (hS | ⟨hpos, heq⟩)
      · exact hS
      · exact absurd (heq ▸ hpos) hneg
    · exact Or.inl

/-- The four descriptors of an executor that was not shut yet. -/
theorem closePlaces (hb : Booked w0) (hone : w0.kernel.OneNumber) (hnot : ¬ done r) {k : Kernel}
    (hk : w0.kernel.ClosedSet
      (fun fd => 0 < fd ∧ ∃ r place, done r ∧ w0.fdAt l r place = fd) k) :
    w0.kernel.ClosedSet
      (fun fd => 0 < fd ∧ ∃ r' place, (done r' ∨ r' = r) ∧ w0.fdAt l r' place = fd)
      ((((k.closePositive (w0.fdAt l r .fd0)).closePositive (w0.fdAt l r .fd1)).closePositive
        (w0.fdAt l r .pipeRead)).closePositive (w0.fdAt l r .pipeWrite)) := by
  have hdone : ∀ place, 0 < w0.fdAt l r place →
      ¬ (0 < w0.fdAt l r place ∧ ∃ r' place', done r' ∧ w0.fdAt l r' place' = w0.fdAt l r place) := by
    rintro place hpos ⟨_, r', place', hr', heq⟩
    obtain ⟨_, rfl, _⟩ := hb.apart l r place l r' place' hpos heq.symm
    exact hnot hr'
  have hother : ∀ place place', place ≠ place' → 0 < w0.fdAt l r place →
      ¬ (0 < w0.fdAt l r place ∧ w0.fdAt l r place = w0.fdAt l r place') := by
    rintro place place' hne hpos ⟨_, heq⟩
    exact hne (hb.apart l r place l r place' hpos heq).2.2
  have h1 := closePlace hb hone hk .fd0 (hdone .fd0)
  have h2 := closePlace hb hone h1 .fd1 (fun hpos hS =>
    hS.elim (hdone .fd1 hpos) (hother .fd1 .fd0 (by decide) hpos))
  have h3 := closePlace hb hone h2 .pipeRead (fun hpos hS => hS.elim (fun hS =>
    hS.elim (hdone .pipeRead hpos) (hother .pipeRead .fd0 (by decide) hpos))
      (hother .pipeRead .fd1 (by decide) hpos))
  have h4 := closePlace hb hone h3 .pipeWrite (fun hpos hS => hS.elim (fun hS => hS.elim (fun hS =>
    hS.elim (hdone .pipeWrite hpos) (hother .pipeWrite .fd0 (by decide) hpos))
      (hother .pipeWrite .fd1 (by decide) hpos)) (hother .pipeWrite .pipeRead (by decide) hpos))
  refine h4.congr (fun fd => ?_)
  constructor
  · rintro ⟨hpos, r', place, hr' | rfl, heq⟩
    · exact Or.inl (Or.inl (Or.inl (Or.inl ⟨hpos, r', place, hr', heq⟩)))
    · cases place with
      | fd0 => exact Or.inl (Or.inl (Or.inl (Or.inr ⟨hpos, heq.symm⟩)))
      | fd1 => exact Or.inl (Or.inl (Or.inr ⟨hpos, heq.symm⟩))
      | pipeRead => exact Or.inl (Or.inr ⟨hpos, heq.symm⟩)
      | pipeWrite => exact Or.inr ⟨hpos, heq.symm⟩
  · rintro ((((⟨hpos, r', place, hr', heq⟩ | ⟨hpos, heq⟩) | ⟨hpos, heq⟩) | ⟨hpos, heq⟩) |
      ⟨hpos, heq⟩)
    · exact ⟨hpos, r', place, Or.inl hr', heq⟩
    · exact ⟨hpos, r, .fd0, Or.inr rfl, heq.symm⟩
    · exact ⟨hpos, r, .fd1, Or.inr rfl, heq.symm⟩
    · exact ⟨hpos, r, .pipeRead, Or.inr rfl, heq.symm⟩
    · exact ⟨hpos, r, .pipeWrite, Or.inr rfl, heq.symm⟩

/-- What `down` does to the world. -/
theorem ensures_down {w : World} {Q : PUnit → World → Prop} :
    Ensures (down l r) w Q ↔ Q ⟨⟩ ((w.setKernel
      ((((w.kernel.closePositive (w.fdAt l r .fd0)).closePositive (w.fdAt l r .fd1)).closePositive
        (w.fdAt l r .pipeRead)).closePositive (w.fdAt l r .pipeWrite))).setData l r
          (w.data l r).cleared) := by
  simp only [down, ensures_bind, ensures_getData, ensures_modifyData, ensures_closePositive]
  exact Iff.rfl

/-- `down` is called for one more executor. -/
theorem down_shut (hb : Booked w0) (hone : w0.kernel.OneNumber) (h : Shut w0 l done w) :
    Ensures (down l r) w (fun _ w' => Shut w0 l (fun r' => done r' ∨ r' = r) w') := by
  rw [ensures_down]
  obtain ⟨execDatas, hloop, hblocks⟩ := h.loop
  have hkernel : w0.kernel.ClosedSet
      (fun fd => 0 < fd ∧ ∃ r' place, (done r' ∨ r' = r) ∧ w0.fdAt l r' place = fd)
      ((((w.kernel.closePositive (w.fdAt l r .fd0)).closePositive (w.fdAt l r .fd1)).closePositive
        (w.fdAt l r .pipeRead)).closePositive (w.fdAt l r .pipeWrite)) := by
    by_cases hr : done r
    · -- Nothing is left to be closed.
      have hfd : ∀ place, w.fdAt l r place = -1 := by
        intro place
        unfold World.fdAt
        rw [h.cleared r hr]
        exact ((w0.data l r).cleared_holding (hb.value l r) place).1
      have hsame : ∀ k : Kernel, k.closePositive (-1) = k := fun _ => rfl
      rw [hfd, hfd, hfd, hfd, hsame, hsame, hsame, hsame]
      refine h.kernel.congr (fun fd => ?_)
      constructor
      · rintro ⟨hpos, r', place, hr' | rfl, heq⟩
        · exact ⟨hpos, r', place, hr', heq⟩
        · exact ⟨hpos, r', place, hr, heq⟩
      · rintro ⟨hpos, r', place, hr', heq⟩
        exact ⟨hpos, r', place, Or.inl hr', heq⟩
    · have hfd : ∀ place, w.fdAt l r place = w0.fdAt l r place := by
        intro place
        unfold World.fdAt
        rw [h.kept r hr]
      rw [hfd, hfd, hfd, hfd]
      exact closePlaces hb hone hr h.kernel
  refine ⟨fun l' hl => ?_, h.parameters, ?_, fun r' hr' => ?_, fun r' hr' => ?_, hkernel⟩
  · exact (World.setLoop_other _ _ hl _).trans (h.others l' hl)
  · refine ⟨execDatas.assign r (w.data l r).cleared, ?_, hblocks⟩
    rw [World.setData_loops]
    simp only [World.setKernel_loops, if_true, hloop]
  · by_cases heq : r' = r
    · rw [heq, World.setData_self]
      by_cases hr : done r
      · rw [h.cleared r hr, cleared_cleared]
      · rw [h.kept r hr]
    · rw [World.setData_other _ _ (fun hboth => heq hboth.2)]
      exact h.cleared r' (hr'.resolve_right heq)
  · rw [World.setData_other _ _ (fun hboth => hr' (Or.inr hboth.2))]
    exact h.kept r' (fun hd => hr' (Or.inl hd))

theorem downAll_shut (hb : Booked w0) (hone : w0.kernel.OneNumber) (rs : List Nat)
    (h : Shut w0 l done w) :
    Ensures (downAll l rs) w (fun _ w' => Shut w0 l (fun r => done r ∨ r ∈ rs) w') := by
  induction rs generalizing w done with
  | nil =>
    have heq : (fun r => done r ∨ r ∈ []) = done := by
      funext r
      simp
    rw [heq]
    exact ensures_pure.mpr h
  | cons r rest ih =>
    simp only [downAll, ensures_bind]
    refine (down_shut hb hone h).mono (fun _ w1 h1 => (ih h1).mono (fun _ w2 h2 => ?_))
    have heq : (fun r' => done r' ∨ r' ∈ r :: rest) = fun r' => (done r' ∨ r' = r) ∨ r' ∈ rest := by
      funext r'
      simp [or_assoc]
    rw [heq]
    exact h2

end

/-! ## The loop -/

/-- The descriptors that a loop closes at its end. -/
def World.Closes (w : World) (l : Nat) (fd : Int) : Prop :=
  0 < fd ∧ ((∃ r place, w.fdAt l r place = fd) ∨ fd = (w.loops l).epollFd)

structure Destroyed (w : World) (l : Nat) (w' : World) : Prop where
  others : ∀ l', l' ≠ l → w'.loops l' = w.loops l'
  parameters : w'.parameters = w.parameters
  loop : ∃ execDatas, w'.loops l = { w.loops l with
    execDatas := BlockStorage.destroy execDatas
    pollDatas := (w.loops l).pollDatas.destroy
    epollFd := -1
    eventFd := -1
    phase := if 0 < (w.loops l).eventFd then .closingAgain (w.loops l).eventFd .destroyed
      else .destroyed }
  data : ∀ r, w'.data l r = (w.data l r).cleared ∨ (¬ w.InUse l r ∧ w'.data l r = w.data l r)
  kernel : ∃ k, w.kernel.ClosedSet (w.Closes l) k ∧ (w'.kernel = k ∨ w'.kernel = k.closeEpoll l)

section
variable {w w' : World} {l : Nat}

theorem destroy_spec (hb : Booked w) (hone : w.kernel.OneNumber)
    (hepoll : 0 < (w.loops l).epollFd → ∃ id, w.Loose (w.loops l).epollFd id) :
    Ensures (destroy l) w (fun _ w' => Destroyed w l w') := by
  have hstart : Shut w l (fun _ => False) w :=
    ⟨fun _ _ => rfl, rfl, ⟨_, rfl, rfl⟩, fun _ h => h.elim, fun _ _ => rfl,
      (Kernel.ClosedSet.start w.kernel).congr (fun fd => by simp)⟩
  simp only [destroy, ensures_bind, ensures_getLoop, ensures_when, ensures_close,
    ensures_modifyKernel, ensures_modifyLoop]
  refine (downAll_shut hb hone _ hstart).mono (fun _ w1 h1 => ?_)
  obtain ⟨execDatas, hloop, hblocks⟩ := h1.loop
  -- What is closed so far is held by the executors, also by those that are not in use.
  have hheld : ∀ fd, (0 < fd ∧ ∃ r place, (False ∨ r ∈ BlockStorage.allItems blockSize
      (w.loops l).execDatas) ∧ w.fdAt l r place = fd) ↔
        0 < fd ∧ ∃ r place, w.fdAt l r place = fd := by
    intro fd
    constructor
    · rintro ⟨hpos, r, place, _, heq⟩
      exact ⟨hpos, r, place, heq⟩
    · rintro ⟨hpos, r, place, heq⟩
      refine ⟨hpos, r, place, Or.inr ?_, heq⟩
      by_contra hnot
      have hidle : ¬ w.InUse l r := fun huse =>
        hnot ((hb.loops l).execs.mem_allItems.mpr (Or.inl huse))
      have hneg := ((hb.loops l).idle r hidle place).1
      omega
  have hclosed := h1.kernel.congr (fun fd => (hheld fd).symm)
  have hdata : ∀ r, w1.data l r = (w.data l r).cleared ∨
      (¬ w.InUse l r ∧ w1.data l r = w.data l r) := by
    intro r
    by_cases hr : r ∈ BlockStorage.allItems blockSize (w.loops l).execDatas
    · exact Or.inl (h1.cleared r (Or.inr hr))
    · refine Or.inr ⟨fun huse => hr ((hb.loops l).execs.mem_allItems.mpr (Or.inl huse)), ?_⟩
      exact h1.kept r (fun hd => hr (hd.resolve_left id))
  have hend : ∀ k k', w.kernel.ClosedSet (w.Closes l) k → (k' = k ∨ k' = k.closeEpoll l) →
      Destroyed w l ((w1.setKernel k').setLoop l { w1.loops l with
        execDatas := (w1.loops l).execDatas.destroy
        pollDatas := (w1.loops l).pollDatas.destroy
        epollFd := -1
        eventFd := -1
        phase := if 0 < (w1.loops l).eventFd then .closingAgain (w1.loops l).eventFd .destroyed
          else .destroyed }) := by
    intro k k' hk hk'
    refine ⟨fun l' hl => (World.setLoop_other _ _ hl _).trans (h1.others l' hl), h1.parameters,
      ⟨execDatas, ?_⟩, fun r => ?_, k, hk, hk'⟩
    · rw [World.setLoop_self, hloop]
    · have hsame : ((w1.setKernel k').setLoop l { w1.loops l with
          execDatas := (w1.loops l).execDatas.destroy
          pollDatas := (w1.loops l).pollDatas.destroy
          epollFd := -1
          eventFd := -1
          phase := if 0 < (w1.loops l).eventFd then .closingAgain (w1.loops l).eventFd .destroyed
            else .destroyed }).data l r = w1.data l r := by
        unfold World.data
        rw [World.setLoop_self]
        rfl
      rw [hsame]
      exact hdata r
  refine ⟨fun hpos => ?_, fun hneg => ?_⟩
  · obtain ⟨id, hid, hun⟩ := hepoll hpos
    have hunheld : ¬ (0 < (w.loops l).epollFd ∧
        ∃ r place, w.fdAt l r place = (w.loops l).epollFd) := by
      rintro ⟨_, r, place, heq⟩
      exact hun l r place heq
    have hk := hclosed.close hone hid hunheld
    refine hend _ _ (hk.congr (fun fd => ?_)) (Or.inr rfl)
    unfold World.Closes
    constructor
    · rintro ⟨hfd, hheld | heq⟩
      · exact Or.inl ⟨hfd, hheld⟩
      · exact Or.inr heq
    · rintro (⟨hfd, hheld⟩ | heq)
      · exact ⟨hfd, Or.inl hheld⟩
      · exact ⟨heq ▸ hpos, Or.inr heq⟩
  · refine hend w1.kernel w1.kernel (hclosed.congr (fun fd => ?_)) (Or.inl rfl)
    unfold World.Closes
    constructor
    · rintro ⟨hfd, hheld | heq⟩
      · exact ⟨hfd, hheld⟩
      · exact absurd (heq ▸ hfd) hneg
    · rintro ⟨hfd, hheld⟩
      exact ⟨hfd, Or.inl hheld⟩

end

/-! ## The books of a destroyed loop -/

theorem sound_destroy {T : Type} (s : BlockStorage T) : s.destroy.Sound blockSize := by
  have hinv : BlockStorage.Inv blockSize s.destroy [] [] :=
    ⟨rfl, trivial, rfl, List.nodup_nil, fun _ => Iff.rfl, fun _ hk => nomatch hk⟩
  exact hinv.sound

namespace Destroyed

variable {w w' : World} {l : Nat}

theorem otherData (h : Destroyed w l w') {l' : Nat} (hl : l' ≠ l) (r : Nat) :
    w'.data l' r = w.data l' r := by
  unfold World.data
  rw [h.others l' hl]

/-- The executors of the loop hold nothing. -/
theorem empty (h : Destroyed w l w') (hb : Booked w) (r : Nat) (place : Place) :
    w'.fdAt l r place = -1 ∧ w'.pollDataAt l r place = none := by
  unfold World.fdAt World.pollDataAt
  rcases h.data r with heq | ⟨hidle, heq⟩
  · rw [heq]
    exact (w.data l r).cleared_holding (hb.value l r) place
  · rw [heq]
    exact (hb.loops l).idle r hidle place

theorem table (h : Destroyed w l w') {fd : Int} (hfd : ¬ w.Closes l fd) :
    w'.kernel.table fd = w.kernel.table fd := by
  obtain ⟨k, hk, rfl | heq⟩ := h.kernel
  · exact (hk.kept fd hfd).1
  · rw [heq]
    exact (hk.kept fd hfd).1

theorem closed (h : Destroyed w l w') {fd : Int} (hfd : w.Closes l fd) :
    w'.kernel.openId? fd = none := by
  obtain ⟨k, hk, rfl | heq⟩ := h.kernel
  · exact (hk.closed fd hfd).1
  · rw [heq]
    exact (hk.closed fd hfd).1

theorem openId? (h : Destroyed w l w') {fd : Int} (hfd : ¬ w.Closes l fd) :
    w'.kernel.openId? fd = w.kernel.openId? fd := by
  unfold Kernel.openId?
  rw [h.table hfd]

/-- What another loop holds stays open. -/
theorem spares (hb : Booked w) (hepoll : 0 < (w.loops l).epollFd → w.Unheld (w.loops l).epollFd)
    {l' : Nat} (hl : l' ≠ l) (r : Nat) (place : Place) : ¬ w.Closes l (w.fdAt l' r place) := by
  rintro ⟨hpos, ⟨r', place', heq⟩ | heq⟩
  · exact hl (hb.apart l' r place l r' place' hpos heq.symm).1
  · exact hepoll (heq ▸ hpos) l' r place heq

/-- The epoll set of the loop is empty, the others are what they were. -/
theorem epoll (h : Destroyed w l w') (hb : Booked w)
    (hepoll : 0 < (w.loops l).epollFd → w.Unheld (w.loops l).epollFd) (l' : Nat) (fd : Int) :
    w'.kernel.epoll l' fd = if l' = l then none else w.kernel.epoll l' fd := by
  obtain ⟨k, hk, hk'⟩ := h.kernel
  have hkept : k.epoll l' fd = if l' = l then none else w.kernel.epoll l' fd := by
    by_cases hfd : w.Closes l fd
    · rw [(hk.closed fd hfd).2 l']
      split
      · rfl
      · rename_i hl
        cases hreg : w.kernel.epoll l' fd with
        | none => rfl
        | some reg =>
          obtain ⟨r, place, _, heq⟩ := (hb.loops l').entry fd reg hreg
          exact absurd (heq ▸ hfd) (spares hb hepoll hl r place)
    · rw [(hk.kept fd hfd).2 l']
      split
      · rename_i hl
        cases hreg : w.kernel.epoll l' fd with
        | none => rfl
        | some reg =>
          rw [hl] at hreg
          obtain ⟨r, place, hp, heq⟩ := (hb.loops l).entry fd reg hreg
          exact absurd ⟨heq ▸ hb.watched_positive hp, Or.inl ⟨r, place, heq⟩⟩ hfd
      · rfl
  rcases hk' with rfl | heq
  · exact hkept
  · rw [heq]
    by_cases hl : l' = l
    · rw [hl, if_pos rfl]
      exact congrFun (Function.update_self (f := k.epoll) l (fun _ => none)) fd
    · rw [if_neg hl] at hkept ⊢
      exact (congrFun (Function.update_of_ne hl (fun _ => none) k.epoll) fd).trans hkept

theorem booked (h : Destroyed w l w') (hb : Booked w)
    (hepoll : 0 < (w.loops l).epollFd → w.Unheld (w.loops l).epollFd) : Booked w' := by
  have hfd : ∀ l' r place, l' ≠ l → w'.fdAt l' r place = w.fdAt l' r place := by
    intro l' r place hl
    unfold World.fdAt
    rw [h.otherData hl]
  have hpoll : ∀ l' r place, l' ≠ l → w'.pollDataAt l' r place = w.pollDataAt l' r place := by
    intro l' r place hl
    unfold World.pollDataAt
    rw [h.otherData hl]
  obtain ⟨execDatas, hloop⟩ := h.loop
  have hself : LoopBooked w' l := by
    refine ⟨?_, ?_, fun r _ place => h.empty hb r place, fun r place p hp => ?_, fun p hp => ?_,
      fun fd reg hreg => ?_, fun r _ => ⟨(h.empty hb r .fd1).1, (h.empty hb r .fd1).2⟩,
      fun hlive => ?_, fun hlive => ?_⟩
    · rw [hloop]
      exact sound_destroy _
    · rw [hloop]
      exact sound_destroy _
    · rw [(h.empty hb r place).2] at hp
      cases hp
    · unfold World.usedPolls at hp
      rw [hloop] at hp
      exact (nomatch hp)
    · rw [h.epoll hb hepoll, if_pos rfl] at hreg
      cases hreg
    · rw [hloop] at hlive
      dsimp only at hlive
      split at hlive <;> exact hlive.elim
    · rw [hloop] at hlive
      dsimp only at hlive
      split at hlive <;> exact hlive.elim
  have hother : ∀ l', l' ≠ l → LoopBooked w' l' := by
    intro l' hl
    have hold := hb.loops l'
    have hsame := h.others l' hl
    have hin : ∀ r, w'.InUse l' r ↔ w.InUse l' r := fun r => by
      unfold World.InUse
      rw [hsame]
    have hused : w'.usedPolls l' = w.usedPolls l' := by
      unfold World.usedPolls
      rw [hsame]
    have hitem : ∀ p, w'.pollData l' p = w.pollData l' p := fun p => by
      unfold World.pollData
      rw [hsame]
    refine ⟨by rw [hsame]; exact hold.polls, by rw [hsame]; exact hold.execs,
      fun r hr place => ?_, fun r place p hp => ?_, fun p hp => ?_, fun fd reg hreg => ?_,
      fun r hreq => ?_, fun hlive => ?_, fun hlive p hp => ?_⟩
    · rw [hfd l' r place hl, hpoll l' r place hl]
      exact hold.idle r (fun huse => hr ((hin r).mpr huse)) place
    · rw [hpoll l' r place hl] at hp
      rw [hfd l' r place hl, hused, hitem, h.epoll hb hepoll, if_neg hl]
      exact hold.slot r place p hp
    · rw [hused] at hp
      obtain ⟨r, place, hslot⟩ := hold.item p hp
      exact ⟨r, place, (hpoll l' r place hl).trans hslot⟩
    · rw [h.epoll hb hepoll, if_neg hl] at hreg
      obtain ⟨r, place, hslot, hat⟩ := hold.entry fd reg hreg
      exact ⟨r, place, (hpoll l' r place hl).trans hslot, (hfd l' r place hl).trans hat⟩
    · rw [h.otherData hl] at hreq ⊢
      exact hold.alone r hreq
    · rw [hsame] at hlive ⊢
      rw [hused]
      exact hold.count hlive
    · rw [hsame] at hlive
      rw [hused] at hp
      rw [hitem]
      exact hold.free hlive p hp
  refine ⟨fun l' => ?_, fun l' r place hpos => ?_, fun l' r place l'' r' place' hpos heq => ?_,
    fun l' r place => ?_, fun fd hneg => ?_, fun l' fd hreg => ?_⟩
  · by_cases hl : l' = l
    · rw [hl]
      exact hself
    · exact hother l' hl
  · by_cases hl : l' = l
    · rw [hl, (h.empty hb r place).1] at hpos
      exact absurd hpos (by decide)
    · rw [hfd l' r place hl] at hpos ⊢
      rw [h.openId? (spares hb hepoll hl r place)]
      exact hb.held l' r place hpos
  · by_cases hl : l' = l
    · rw [hl, (h.empty hb r place).1] at hpos
      exact absurd hpos (by decide)
    · by_cases hl' : l'' = l
      · rw [hl', (h.empty hb r' place').1] at heq
        rw [heq] at hpos
        exact absurd hpos (by decide)
      · rw [hfd l' r place hl] at hpos heq
        rw [hfd l'' r' place' hl'] at heq
        exact hb.apart l' r place l'' r' place' hpos heq
  · by_cases hl : l' = l
    · rw [hl]
      exact Or.inl (h.empty hb r place).1
    · rw [hfd l' r place hl]
      exact hb.value l' r place
  · rw [h.table (fun hc => hneg hc.1)]
    exact hb.never fd hneg
  · rw [h.epoll hb hepoll] at hreg
    by_cases hl : l' = l
    · rw [if_pos hl] at hreg
      exact absurd rfl hreg
    · rw [if_neg hl] at hreg
      cases hentry : w.kernel.epoll l' fd with
      | none => exact absurd hentry hreg
      | some reg =>
        obtain ⟨r, place, _, heq⟩ := (hb.loops l').entry fd reg hentry
        rw [h.openId? (heq ▸ spares hb hepoll hl r place)]
        exact hb.registered l' fd hreg

end Destroyed

end EpollHttp
