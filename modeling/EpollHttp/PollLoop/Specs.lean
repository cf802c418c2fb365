import EpollHttp.PollLoop.PollFds

/-
What the calls on the epoll set do to the world.

Each of them replaces the storage of `PollData`, the data of one executor, the counter and the
kernel, and nothing else.
-/

namespace EpollHttp

open Program

/-- The parts that the calls on the epoll set replace. -/
def World.rewatch (w : World) (l r : Nat) (pollDatas : BlockStorage PollData) (d : ExecutorData)
    (n : Int) (k : Kernel) : World :=
  { w with
    kernel := k
    loops := Function.update w.loops l
      { w.loops l with
        pollDatas := pollDatas
        execDatas := (w.loops l).execDatas.assign r d
        numOfPollFds := n } }

namespace World

section
variable (w : World) (l r : Nat) (pollDatas : BlockStorage PollData) (d : ExecutorData) (n : Int)
  (k : Kernel)

@[simp] theorem rewatch_kernel : (w.rewatch l r pollDatas d n k).kernel = k := rfl

@[simp] theorem rewatch_self : (w.rewatch l r pollDatas d n k).loops l =
    { w.loops l with
      pollDatas := pollDatas
      execDatas := (w.loops l).execDatas.assign r d
      numOfPollFds := n } := Function.update_self ..

theorem rewatch_other {l' : Nat} (h : l' ≠ l) :
    (w.rewatch l r pollDatas d n k).loops l' = w.loops l' := Function.update_of_ne h ..

@[simp] theorem rewatch_data_self : (w.rewatch l r pollDatas d n k).data l r = d := by
  unfold data
  rw [rewatch_self]
  simp [BlockStorage.assign]

theorem rewatch_data_other {l' r' : Nat} (h : ¬ (l' = l ∧ r' = r)) :
    (w.rewatch l r pollDatas d n k).data l' r' = w.data l' r' := by
  unfold data
  by_cases hl : l' = l
  · have hr : r' ≠ r := fun hr => h ⟨hl, hr⟩
    rw [hl, rewatch_self]
    simp [BlockStorage.assign, Function.update_of_ne hr]
  · rw [rewatch_other _ _ _ _ _ _ _ hl]

@[simp] theorem rewatch_pollData (p : Nat) :
    (w.rewatch l r pollDatas d n k).pollData l p = (pollDatas.items p).fields := by
  unfold pollData
  rw [rewatch_self]

theorem rewatch_pollData_other {l' : Nat} (h : l' ≠ l) (p : Nat) :
    (w.rewatch l r pollDatas d n k).pollData l' p = w.pollData l' p := by
  unfold pollData
  rw [rewatch_other _ _ _ _ _ _ _ h]

/-- The world with nothing replaced but the storage of `PollData`. -/
theorem setLoop_eq_rewatch :
    w.setLoop l { w.loops l with pollDatas := pollDatas, numOfPollFds := n } =
      w.rewatch l r pollDatas (w.data l r) n w.kernel := by
  unfold setLoop rewatch
  congr 2
  unfold data BlockStorage.assign
  simp

end

end World

/-! ## The calls -/

section
variable {ans : Answers} {w : World} {l r : Nat} {fd : Int} {events : Nat}

/-- The world in which `fd` was added with the item `p`. -/
structure Added (w : World) (l r : Nat) (fd : Int) (events : Nat) (p : Nat) (w' : World) :
    Prop where
  own : fd = (w.data l r).fd0 ∧ (w.data l r).pollData0 = none ∨
    fd ≠ (w.data l r).fd0 ∧ fd = (w.data l r).fd1 ∧ (w.data l r).pollData1 = none
  world : ∃ pollDatas k, (w.loops l).pollDatas.allocate blockSize = some (p, pollDatas) ∧
    w.kernel.ctlAdd l fd p (watched events) = some k ∧
    w' = w.rewatch l r (pollDatas.assign p { fd := fd, execData := some r })
      ((w.data l r).setPollDataOf fd p) ((w.loops l).numOfPollFds + 1) k

/-- The world in which an item was allocated and freed again. -/
def Refused (w : World) (l r : Nat) (w' : World) : Prop :=
  ∃ p pollDatas, (w.loops l).pollDatas.allocate blockSize = some (p, pollDatas) ∧
    w' = w.rewatch l r (pollDatas.free p) (w.data l r) (w.loops l).numOfPollFds w.kernel

theorem addPollFd_spec : Ensures (addPollFd ans l r fd events) w (fun res w' =>
    (res = 0 ∧ ∃ p, Added w l r fd events p w') ∨
      (res = -1 ∧ (w' = w ∨ Refused w l r w'))) := by
  simp only [addPollFd, ensures_bind, ensures_getData, ensures_ite, ensures_pure]
  refine ⟨fun _ => by simp, fun hown => ⟨fun _ => by simp, fun h0 => ⟨fun _ => by simp,
    fun h1 => ?_⟩⟩⟩
  simp only [allocatePollData, ensures_bind, ensures_getLoop]
  cases ha : (w.loops l).pollDatas.allocate blockSize with
  | none => simp
  | some handed =>
    obtain ⟨p, pollDatas⟩ := handed
    simp only [addToNumOfPollFds, ensures_bind, ensures_modifyLoop, ensures_pure,
      ensures_getKernel, World.setLoop_self, World.setLoop_kernel]
    cases hk : (if ans.epollAdd then w.kernel.ctlAdd l fd p (watched events) else none) with
    | none =>
      simp only [freePollData, ensures_bind, ensures_modifyLoop, ensures_pure]
      refine Or.inr ⟨trivial, Or.inr ⟨p, pollDatas, ha, ?_⟩⟩
      rw [← World.setLoop_eq_rewatch]
      simp [World.setLoop]
    | some k =>
      have hadd : w.kernel.ctlAdd l fd p (watched events) = some k := by
        by_cases hans : ans.epollAdd
        · rw [if_pos hans] at hk
          exact hk
        · rw [if_neg hans] at hk
          cases hk
      simp only [ensures_bind, ensures_modifyKernel, ensures_modify, ensures_modifyData,
        ensures_pure]
      refine Or.inl ⟨trivial, p, ?_, pollDatas, k, ha, hadd, ?_⟩
      · by_cases hfd : fd = (w.data l r).fd0
        · exact Or.inl ⟨hfd, by simpa [hfd] using h0⟩
        · have hfd1 : fd = (w.data l r).fd1 := by
            by_contra hne
            exact hown ⟨hfd, hne⟩
          exact Or.inr ⟨hfd, hfd1, by simpa [hfd1] using h1⟩
      · simp [World.setLoop, World.setKernel, World.setPollData, World.setData, World.data,
          World.rewatch]

theorem editPollFd_spec : Ensures (editPollFd ans l r fd events) w (fun res w' =>
    (res = 0 ∧ ∃ p k, (w.data l r).pollDataOf fd = some p ∧
      w.kernel.ctlMod l fd p (watched events) = some k ∧ w' = w.setKernel k) ∨
      (res = -1 ∧ w' = w)) := by
  simp only [editPollFd, ensures_bind, ensures_getData]
  cases hp : (w.data l r).pollDataOf fd with
  | none => simp
  | some p =>
    simp only [ensures_bind, ensures_getKernel]
    cases hk : (if ans.epollMod then w.kernel.ctlMod l fd p (watched events) else none) with
    | none => simp
    | some k =>
      have hmod : w.kernel.ctlMod l fd p (watched events) = some k := by
        by_cases hans : ans.epollMod
        · rw [if_pos hans] at hk
          exact hk
        · rw [if_neg hans] at hk
          cases hk
      simp only [ensures_bind, ensures_modifyKernel, ensures_pure]
      exact Or.inl ⟨trivial, p, k, rfl, hmod, rfl⟩

/-- The world in which `fd` with the item `p` was removed. -/
structure Removed (w : World) (l r : Nat) (fd : Int) (p : Nat) (w' : World) : Prop where
  ptr : (w.data l r).pollDataOf fd = some p
  world : ∃ k, w.kernel.ctlDel l fd = some k ∧
    w' = w.rewatch l r (((w.loops l).pollDatas.assign p (w.pollData l p).down).free p)
      ((w.data l r).dropPollData p) ((w.loops l).numOfPollFds - 1) k

theorem removePollFd_spec : Ensures (removePollFd l r fd) w (fun res w' =>
    (res = 0 ∧ ∃ p, Removed w l r fd p w') ∨ (res = -1 ∧ w' = w ∧
      ∀ p, (w.data l r).pollDataOf fd = some p → w.kernel.epoll l fd = none)) := by
  simp only [removePollFd, ensures_bind, ensures_getData]
  cases hp : (w.data l r).pollDataOf fd with
  | none => simp
  | some p =>
    simp only [ensures_bind, ensures_getKernel]
    cases hk : w.kernel.ctlDel l fd with
    | none =>
      have hnone : w.kernel.epoll l fd = none := by
        unfold Kernel.ctlDel at hk
        simpa using hk
      simp [hnone]
    | some k =>
      simp only [freePollData, addToNumOfPollFds, ensures_bind, ensures_modifyKernel,
        ensures_modify, ensures_modifyLoop, ensures_modifyData, ensures_pure]
      refine Or.inl ⟨trivial, p, hp, k, hk, ?_⟩
      simp [World.setLoop, World.setKernel, World.setPollData, World.setData, World.data,
        World.pollData, World.rewatch, Int.sub_eq_add_neg]

end

end EpollHttp
