import EpollHttp.Executors.Specs
import EpollHttp.Executors.ProxyExecutor

/-
A connection that is handed to a proxy executor, and its run.

Between two calls of `process` the loop serves other connections and other loops run.  Whatever
they do, the data, the items, the descriptors and the streams of this connection are its own.
-/

namespace EpollHttp

open Program

/-- The items of `PollData` that a connection holds. -/
structure Slots (w : World) (l r : Nat) : Prop where
  sound : (w.loops l).pollDatas.Sound blockSize
  used0 : ∀ p, (w.data l r).pollData0 = some p → p ∈ (w.loops l).pollDatas.usedItems blockSize
  used1 : ∀ p, (w.data l r).pollData1 = some p → p ∈ (w.loops l).pollDatas.usedItems blockSize
  distinct : ∀ p, (w.data l r).pollData0 = some p → (w.data l r).pollData1 ≠ some p

namespace Slots

variable {w w' : World} {l r : Nat} {fd : Int} {events p : Nat}

theorem congr (h : Slots w l r) (hloop : (w'.loops l).pollDatas = (w.loops l).pollDatas)
    (h0 : (w'.data l r).pollData0 = (w.data l r).pollData0)
    (h1 : (w'.data l r).pollData1 = (w.data l r).pollData1) : Slots w' l r := by
  refine ⟨by rw [hloop]; exact h.sound, fun p hp => ?_, fun p hp => ?_, fun p hp => ?_⟩
  · rw [hloop]
    exact h.used0 p (by rw [← h0]; exact hp)
  · rw [hloop]
    exact h.used1 p (by rw [← h1]; exact hp)
  · rw [h1]
    exact h.distinct p (by rw [← h0]; exact hp)

theorem setKernel (h : Slots w l r) (k : Kernel) : Slots (w.setKernel k) l r :=
  h.congr rfl rfl rfl

theorem setData (h : Slots w l r) {d : ExecutorData}
    (h0 : d.pollData0 = (w.data l r).pollData0) (h1 : d.pollData1 = (w.data l r).pollData1) :
    Slots (w.setData l r d) l r :=
  h.congr (by simp [World.setData]) (by simpa using h0) (by simpa using h1)

theorem one_le_blockSize : 1 ≤ blockSize := by decide

/-- The item that was added is not the other one. -/
theorem added (h : Slots w l r) (ha : Added w l r fd events p w') : Slots w' l r := by
  obtain ⟨hown, pollDatas, k, halloc, _, rfl⟩ := ha
  have hslot := h.sound.allocate one_le_blockSize halloc
  have hassign := hslot.sound.assign p ({ fd := fd, execData := some r } : PollData)
  have hnew : ∀ q, q ∈ (w.loops l).pollDatas.usedItems blockSize → q ≠ p := by
    intro q hq heq
    exact hslot.unused (heq ▸ hq)
  have hmem : ∀ q, q = p ∨ q ∈ (w.loops l).pollDatas.usedItems blockSize →
      q ∈ ((w.rewatch l r (pollDatas.assign p { fd := fd, execData := some r })
        ((w.data l r).setPollDataOf fd p) ((w.loops l).numOfPollFds + 1) k).loops
          l).pollDatas.usedItems blockSize := by
    intro q hq
    rw [World.rewatch_self]
    show q ∈ (pollDatas.assign p _).usedItems blockSize
    rw [hassign.2.1]
    exact (hslot.used q).mpr hq
  refine ⟨by rw [World.rewatch_self]; exact hassign.1, fun q hq => hmem q ?_,
    fun q hq => hmem q ?_, fun q hq hq' => ?_⟩
  · rw [World.rewatch_data_self] at hq
    rcases hown with ⟨hfd, _⟩ | ⟨hne, hfd, _⟩
    · simp only [ExecutorData.setPollDataOf, if_pos hfd] at hq
      exact Or.inl (Option.some.inj hq).symm
    · simp only [ExecutorData.setPollDataOf, if_neg hne, if_pos hfd] at hq
      exact Or.inr (h.used0 q hq)
  · rw [World.rewatch_data_self] at hq
    rcases hown with ⟨hfd, _⟩ | ⟨hne, hfd, _⟩
    · simp only [ExecutorData.setPollDataOf, if_pos hfd] at hq
      exact Or.inr (h.used1 q hq)
    · simp only [ExecutorData.setPollDataOf, if_neg hne, if_pos hfd] at hq
      exact Or.inl (Option.some.inj hq).symm
  · rw [World.rewatch_data_self] at hq hq'
    rcases hown with ⟨hfd, _⟩ | ⟨hne, hfd, _⟩
    · simp only [ExecutorData.setPollDataOf, if_pos hfd] at hq hq'
      exact hnew q (h.used1 q hq') (Option.some.inj hq).symm
    · simp only [ExecutorData.setPollDataOf, if_neg hne, if_pos hfd] at hq hq'
      exact hnew q (h.used0 q hq) (Option.some.inj hq').symm

theorem refused (h : Slots w l r) (hr : Refused w l r w') : Slots w' l r := by
  obtain ⟨p, pollDatas, halloc, rfl⟩ := hr
  have hslot := h.sound.allocate one_le_blockSize halloc
  have hfree := hslot.sound.free ((hslot.used p).mpr (Or.inl rfl))
  have hkeep : ∀ q, q ∈ (w.loops l).pollDatas.usedItems blockSize →
      q ∈ (pollDatas.free p).usedItems blockSize := by
    intro q hq
    exact (hfree.used q).mpr ⟨(hslot.used q).mpr (Or.inr hq), fun heq => hslot.unused (heq ▸ hq)⟩
  refine ⟨by rw [World.rewatch_self]; exact hfree.sound, fun q hq => ?_, fun q hq => ?_,
    fun q hq => ?_⟩
  · rw [World.rewatch_data_self] at hq
    rw [World.rewatch_self]
    exact hkeep q (h.used0 q hq)
  · rw [World.rewatch_data_self] at hq
    rw [World.rewatch_self]
    exact hkeep q (h.used1 q hq)
  · rw [World.rewatch_data_self] at hq ⊢
    exact h.distinct q hq

/-- What is left of the two pointers when one of them was dropped. -/
theorem dropPollData_cases (h : Slots w l r) (hp : (w.data l r).pollDataOf fd = some p) :
    (fd = (w.data l r).fd0 ∧ (w.data l r).pollData0 = some p ∧
        (w.data l r).dropPollData p = { w.data l r with pollData0 := none }) ∨
      (fd ≠ (w.data l r).fd0 ∧ fd = (w.data l r).fd1 ∧ (w.data l r).pollData1 = some p ∧
        (w.data l r).dropPollData p = { w.data l r with pollData1 := none }) := by
  by_cases hfd : fd = (w.data l r).fd0
  · have h0 : (w.data l r).pollData0 = some p := by
      simpa [ExecutorData.pollDataOf, if_pos hfd] using hp
    refine Or.inl ⟨hfd, h0, ?_⟩
    simp [ExecutorData.dropPollData, h0]
  · by_cases hfd1 : fd = (w.data l r).fd1
    · have h1 : (w.data l r).pollData1 = some p := by
        simpa only [ExecutorData.pollDataOf, if_neg hfd, if_pos hfd1] using hp
      have h0 : ¬ some p = (w.data l r).pollData0 := fun h0 => h.distinct p h0.symm h1
      refine Or.inr ⟨hfd, hfd1, h1, ?_⟩
      simp only [ExecutorData.dropPollData, if_neg h0, h1, if_true]
    · simp [ExecutorData.pollDataOf, hfd, hfd1] at hp

theorem removed (h : Slots w l r) (hr : Removed w l r fd p w') : Slots w' l r := by
  obtain ⟨hp, k, _, rfl⟩ := hr
  have hcases := h.dropPollData_cases hp
  have hpUsed : p ∈ (w.loops l).pollDatas.usedItems blockSize := by
    rcases hcases with ⟨_, h0, _⟩ | ⟨_, _, h1, _⟩
    · exact h.used0 p h0
    · exact h.used1 p h1
  have hassign := h.sound.assign p (w.pollData l p).down
  have hfree := hassign.1.free (p := p) (by rw [hassign.2.1]; exact hpUsed)
  have hkeep : ∀ q, q ∈ (w.loops l).pollDatas.usedItems blockSize → q ≠ p →
      q ∈ (((w.loops l).pollDatas.assign p (w.pollData l p).down).free p).usedItems
        blockSize := by
    intro q hq hne
    exact (hfree.used q).mpr ⟨by rw [hassign.2.1]; exact hq, hne⟩
  refine ⟨by rw [World.rewatch_self]; exact hfree.sound, fun q hq => ?_, fun q hq => ?_,
    fun q hq => ?_⟩
  · rw [World.rewatch_data_self] at hq
    rw [World.rewatch_self]
    rcases hcases with ⟨_, _, hd⟩ | ⟨_, _, h1, hd⟩
    · rw [hd] at hq
      simp at hq
    · rw [hd] at hq
      exact hkeep q (h.used0 q hq) (fun heq => h.distinct q hq (heq ▸ h1))
  · rw [World.rewatch_data_self] at hq
    rw [World.rewatch_self]
    rcases hcases with ⟨_, h0, hd⟩ | ⟨_, _, _, hd⟩
    · rw [hd] at hq
      exact hkeep q (h.used1 q hq) (fun heq => h.distinct p h0 (heq ▸ hq))
    · rw [hd] at hq
      simp at hq
  · rw [World.rewatch_data_self] at hq ⊢
    rcases hcases with ⟨_, _, hd⟩ | ⟨_, _, _, hd⟩
    · rw [hd] at hq
      simp at hq
    · rw [hd]
      simp

end Slots

/-! ## The calls on the epoll set, as the connection sees them -/

/-- No byte moved, and the connection holds its items. -/
structure Rewatched (l r : Nat) (w w' : World) : Prop where
  streams : Kernel.SameStreams w.kernel w'.kernel
  slots : Slots w' l r

/-- The registration of one descriptor was replaced. -/
def OnlyWatched (l : Nat) (fd : Int) (k k' : Kernel) : Prop :=
  ∀ fd', fd' ≠ fd → k'.epoll l fd' = k.epoll l fd'

section
variable {ans : Answers} {w : World} {l r : Nat} {fd : Int} {events : Nat}

theorem addPollFd_rewatched (hs : Slots w l r) :
    Ensures (addPollFd ans l r fd events) w (fun res w' => Rewatched l r w w' ∧
      ((res = 0 ∧ OnlyWatched l fd w.kernel w'.kernel ∧ ∃ p reg,
          w'.data l r = (w.data l r).setPollDataOf fd p ∧
          w'.kernel.epoll l fd = some reg ∧ reg.events = watched events) ∨
        (res = -1 ∧ w'.data l r = w.data l r ∧ w'.kernel = w.kernel))) := by
  refine addPollFd_spec.mono (fun res w' h => ?_)
  rcases h with ⟨hres, p, hadded⟩ | ⟨hres, rfl | hrefused⟩
  · have hslots := hs.added hadded
    obtain ⟨_, pollDatas, k, _, hk, rfl⟩ := hadded
    have hset := (Kernel.ctlAdd_some hk).2.2
    refine ⟨⟨Kernel.SameStreams.ctlAdd hk, hslots⟩, Or.inl ⟨hres, fun fd' hne => ?_, p,
      { ptr := p, events := watched events, serial := w.kernel.nextSerial },
      World.rewatch_data_self .., ?_, rfl⟩⟩
    · rw [World.rewatch_kernel, hset]
      exact Kernel.setRegistration_other _ (fun h => hne h.2)
    · rw [World.rewatch_kernel, hset]
      exact Kernel.setRegistration_self _
  · exact ⟨⟨Kernel.SameStreams.refl _, hs⟩, Or.inr ⟨hres, rfl, rfl⟩⟩
  · have hslots := hs.refused hrefused
    obtain ⟨p, pollDatas, _, rfl⟩ := hrefused
    exact ⟨⟨Kernel.SameStreams.refl _, hslots⟩,
      Or.inr ⟨hres, World.rewatch_data_self .., rfl⟩⟩

theorem removePollFd_rewatched (hs : Slots w l r) :
    Ensures (removePollFd l r fd) w (fun res w' => Rewatched l r w w' ∧
      ((res = 0 ∧ OnlyWatched l fd w.kernel w'.kernel ∧ ∃ p,
          (w.data l r).pollDataOf fd = some p ∧
          w'.data l r = (w.data l r).dropPollData p) ∨
        (res = -1 ∧ w' = w))) := by
  refine removePollFd_spec.mono (fun res w' h => ?_)
  rcases h with ⟨hres, p, hremoved⟩ | ⟨hres, rfl, _⟩
  · have hslots := hs.removed hremoved
    obtain ⟨hp, k, hk, rfl⟩ := hremoved
    obtain ⟨_, _, hset⟩ := Kernel.ctlDel_some hk
    refine ⟨⟨Kernel.SameStreams.ctlDel hk, hslots⟩, Or.inl ⟨hres, fun fd' hne => ?_, p, hp,
      World.rewatch_data_self ..⟩⟩
    rw [World.rewatch_kernel, hset]
    exact Kernel.setRegistration_other _ (fun h => hne h.2)
  · exact ⟨⟨Kernel.SameStreams.refl _, hs⟩, Or.inr ⟨hres, rfl⟩⟩

/-- The descriptor of the upstream server was closed. -/
structure ClosedUpstream (w : World) (l r : Nat) (w' : World) : Prop where
  slots : Slots w' l r
  data : ∃ p1, w'.data l r = { w.data l r with fd1 := -1, pollData1 := p1 }
  opened : ∀ fd, fd ≠ (w.data l r).fd1 → w'.kernel.openId? fd = w.kernel.openId? fd
  watching : OnlyWatched l (w.data l r).fd1 w.kernel w'.kernel
  taken : w'.kernel.taken = w.kernel.taken
  ended : w'.kernel.ended = w.kernel.ended
  sent : w'.kernel.sent = w.kernel.sent
  pipes : w'.kernel.pipes = w.kernel.pipes
  readEnd : w'.kernel.readEnd = w.kernel.readEnd

theorem close_streams (k : Kernel) (fd : Int) :
    (k.close fd).taken = k.taken ∧ (k.close fd).ended = k.ended ∧ (k.close fd).sent = k.sent ∧
      (k.close fd).pipes = k.pipes ∧ (k.close fd).readEnd = k.readEnd := by
  unfold Kernel.close
  split <;> exact ⟨rfl, rfl, rfl, rfl, rfl⟩

theorem closeFd1_spec (hs : Slots w l r) (hne : (w.data l r).fd1 ≠ (w.data l r).fd0) :
    Ensures (closeFd l r (w.data l r).fd1) w (fun _ w' => ClosedUpstream w l r w') := by
  -- The descriptor is closed once its registration is gone.
  have hclose : ∀ w1, Rewatched l r w w1 →
      (∃ p1, w1.data l r = { w.data l r with pollData1 := p1 }) →
      OnlyWatched l (w.data l r).fd1 w.kernel w1.kernel →
      ClosedUpstream w l r ((w1.setKernel (w1.kernel.close (w.data l r).fd1)).setData l r
        { w1.data l r with fd1 := -1 }) := by
    intro w1 hw hdata honly
    obtain ⟨p1, hp1⟩ := hdata
    obtain ⟨htaken, hended, hsent, hpipes, hreadEnd⟩ :=
      close_streams w1.kernel (w.data l r).fd1
    refine ⟨(hw.slots.setKernel _).setData rfl rfl, ⟨p1, ?_⟩, fun fd hfd => ?_,
      fun fd hfd => ?_, htaken.trans hw.streams.taken, hended.trans hw.streams.ended,
      hsent.trans hw.streams.sent, hpipes.trans hw.streams.pipes,
      hreadEnd.trans hw.streams.readEnd⟩
    · rw [World.setData_self, hp1]
    · exact (Kernel.openId?_close_of_ne hfd).trans (hw.streams.openId? fd)
    · exact (Kernel.epoll_close_of_ne hfd).trans (honly fd hfd)
  simp only [closeFd, ensures_bind, ensures_getData, ensures_ite, ensures_when, ensures_pure,
    ensures_close, ensures_modifyData]
  refine ⟨fun heq => absurd heq hne, fun _ => ⟨fun _ => ⟨fun _ => ?_, fun _ => ?_⟩,
    fun h => absurd trivial h⟩⟩
  · refine (removePollFd_rewatched hs).mono (fun res w1 h => ?_)
    obtain ⟨hw, hcases⟩ := h
    refine hclose w1 hw ?_ ?_
    · rcases hcases with ⟨_, _, p, hp, hd⟩ | ⟨_, rfl⟩
      · rcases hs.dropPollData_cases hp with ⟨heq, _, _⟩ | ⟨_, _, _, hdrop⟩
        · exact absurd heq hne
        · exact ⟨none, hd.trans hdrop⟩
      · exact ⟨_, rfl⟩
    · rcases hcases with ⟨_, honly, _⟩ | ⟨_, rfl⟩
      · exact honly
      · exact fun _ _ => rfl
  · exact hclose w ⟨Kernel.SameStreams.refl _, hs⟩ ⟨_, rfl⟩ (fun _ _ => rfl)

end

/-! ## Watching and forgetting the two descriptors -/

/-- A call on the epoll set for `fd` that leaves `d` as the data. -/
structure Rewatch (l r : Nat) (fd : Int) (w : World) (d : ExecutorData) (w' : World) : Prop where
  base : Rewatched l r w w'
  data : w'.data l r = d
  only : OnlyWatched l fd w.kernel w'.kernel

namespace ProxyExecutor

section
variable {ans : Answers} {w : World} {l r : Nat} {next : Prog ProcessResult}
  {Q : ProcessResult → World → Prop}

theorem addClient_rule (hs : Slots w l r)
    (hskip : (w.data l r).pollData0 ≠ none → Ensures next w Q)
    (hadd : ∀ w' p reg,
      Rewatch l r (w.data l r).fd0 w { w.data l r with pollData0 := some p } w' →
      w'.kernel.epoll l (w.data l r).fd0 = some reg → hasEvent reg.events EPOLLOUT = true →
      Ensures next w' Q)
    (hfail : ∀ w', Rewatch l r (w.data l r).fd0 w (w.data l r) w' → Q .removeExecutorError w') :
    Ensures (addClient ans l r next) w Q := by
  simp only [addClient, ensures_bind, ensures_getData, ensures_ite, ensures_pure]
  refine ⟨fun _ => (addPollFd_rewatched hs).mono (fun res w' h => ?_), hskip⟩
  obtain ⟨hw, ⟨hres, honly, p, reg, hd, hreg, hevents⟩ | ⟨hres, hd, hk⟩⟩ := h
  · have hset : w'.data l r = { w.data l r with pollData0 := some p } := by
      rw [hd]
      simp [ExecutorData.setPollDataOf]
    have hout : hasEvent reg.events EPOLLOUT = true := by
      rw [hevents]
      decide
    exact ⟨fun hne => absurd hres hne, fun _ => hadd w' p reg ⟨hw, hset, honly⟩ hreg hout⟩
  · exact ⟨fun _ => hfail w' ⟨hw, hd, fun _ _ => by rw [hk]⟩, fun h => by omega⟩

theorem addUpstream_rule (hs : Slots w l r) (hne : (w.data l r).fd1 ≠ (w.data l r).fd0)
    (hskip : (w.data l r).pollData1 ≠ none → Ensures next w Q)
    (hadd : ∀ w' p reg,
      Rewatch l r (w.data l r).fd1 w { w.data l r with pollData1 := some p } w' →
      w'.kernel.epoll l (w.data l r).fd1 = some reg → hasEvent reg.events EPOLLIN = true →
      Ensures next w' Q)
    (hfail : ∀ w', Rewatch l r (w.data l r).fd1 w (w.data l r) w' → Q .removeExecutorError w') :
    Ensures (addUpstream ans l r next) w Q := by
  simp only [addUpstream, ensures_bind, ensures_getData, ensures_ite, ensures_pure]
  refine ⟨fun _ => (addPollFd_rewatched hs).mono (fun res w' h => ?_), hskip⟩
  obtain ⟨hw, ⟨hres, honly, p, reg, hd, hreg, hevents⟩ | ⟨hres, hd, hk⟩⟩ := h
  · have hset : w'.data l r = { w.data l r with pollData1 := some p } := by
      rw [hd]
      simp [ExecutorData.setPollDataOf, hne]
    have hin : hasEvent reg.events EPOLLIN = true := by
      rw [hevents]
      decide
    exact ⟨fun hne => absurd hres hne, fun _ => hadd w' p reg ⟨hw, hset, honly⟩ hreg hin⟩
  · exact ⟨fun _ => hfail w' ⟨hw, hd, fun _ _ => by rw [hk]⟩, fun h => by omega⟩

theorem removeClient_rule (hs : Slots w l r)
    (hskip : (w.data l r).pollData0 = none → Ensures next w Q)
    (hremove : ∀ w', Rewatch l r (w.data l r).fd0 w { w.data l r with pollData0 := none } w' →
      Ensures next w' Q)
    (hfail : Q .removeExecutorError w) :
    Ensures (removeClient l r next) w Q := by
  simp only [removeClient, ensures_bind, ensures_getData, ensures_ite, ensures_pure]
  refine ⟨fun _ => (removePollFd_rewatched hs).mono (fun res w' h => ?_),
    fun h => hskip (not_not.mp h)⟩
  obtain ⟨hw, ⟨hres, honly, p, hp, hd⟩ | ⟨hres, rfl⟩⟩ := h
  · rcases hs.dropPollData_cases hp with ⟨_, _, hdrop⟩ | ⟨hself, _⟩
    · exact ⟨fun hne => absurd hres hne, fun _ => hremove w' ⟨hw, hd.trans hdrop, honly⟩⟩
    · exact absurd rfl hself
  · exact ⟨fun _ => hfail, fun h => by omega⟩

theorem removeUpstream_rule (hs : Slots w l r) (hne : (w.data l r).fd1 ≠ (w.data l r).fd0)
    (hskip : (w.data l r).pollData1 = none → Ensures next w Q)
    (hremove : ∀ w', Rewatch l r (w.data l r).fd1 w { w.data l r with pollData1 := none } w' →
      Ensures next w' Q)
    (hfail : Q .removeExecutorError w) :
    Ensures (removeUpstream l r next) w Q := by
  simp only [removeUpstream, ensures_bind, ensures_getData, ensures_ite, ensures_pure]
  refine ⟨fun _ => (removePollFd_rewatched hs).mono (fun res w' h => ?_),
    fun h => hskip (not_not.mp h)⟩
  obtain ⟨hw, ⟨hres, honly, p, hp, hd⟩ | ⟨hres, rfl⟩⟩ := h
  · rcases hs.dropPollData_cases hp with ⟨hself, _⟩ | ⟨_, _, _, hdrop⟩
    · exact absurd hself hne
    · exact ⟨fun hne => absurd hres hne, fun _ => hremove w' ⟨hw, hd.trans hdrop, honly⟩⟩
  · exact ⟨fun _ => hfail, fun h => by omega⟩

end

end ProxyExecutor

/-! ## Runs -/

/-- A connection as the request executors hand it over: the request lies at the start of the
buffer, and the client is the only descriptor. -/
structure Handed (w : World) (l r : Nat) (request : Bytes) (id0 : Nat) : Prop where
  client : w.kernel.openId? (w.data l r).fd0 = some id0
  slots : Slots w l r
  upstream : (w.data l r).pollData1 = none
  buffer : (w.data l r).buffer.WellFormed
  size : (w.data l r).buffer.bufSize = ExecutorData.REQUEST_BUFFER_SIZE
  front : (w.data l r).buffer.readHead = 0
  held : (w.data l r).buffer.unread = request
  pipe : (w.data l r).bytesInPipe = 0

/-- A connection behind a successful `up`.  `id1` is the upstream socket. -/
structure Started (w : World) (l r : Nat) (id0 id1 : Nat) (w' : World) : Prop where
  client : w'.kernel.openId? (w'.data l r).fd0 = some id0
  server : w'.kernel.openId? (w'.data l r).fd1 = some id1
  ids : id0 ≠ id1
  slots : Slots w' l r
  buffer : (w'.data l r).buffer = (w.data l r).buffer
  state : (w'.data l r).state = .forwardRequest ∨ (w'.data l r).state = .waitConnect
  pipe : (w'.data l r).bytesInPipe = (w.data l r).bytesInPipe
  unwatched : (w'.data l r).pollData0 = none
  watching : (w'.data l r).pollData1 ≠ none
  sent0 : w'.kernel.sent id0 = w.kernel.sent id0
  sent1 : w'.kernel.sent id1 = []
  taken1 : w'.kernel.taken id1 = []

theorem Started.ne {w w' : World} {l r id0 id1 : Nat} (h : Started w l r id0 id1 w') :
    (w'.data l r).fd1 ≠ (w'.data l r).fd0 := by
  intro heq
  have hserver := h.server
  rw [heq, h.client] at hserver
  exact h.ids (Option.some.inj hserver)

namespace ProxyExecutor

theorem watchUpstream_spec {ans : Answers} {w : World} {l r : Nat} {connected : Bool}
    (hs : Slots w l r) (hne : (w.data l r).fd1 ≠ (w.data l r).fd0) :
    Ensures (watchUpstream ans l r connected) w (fun res w' => res = 0 →
      Slots w' l r ∧ Kernel.SameStreams w.kernel w'.kernel ∧ ∃ p, w'.data l r =
        { w.data l r with
          pollData0 := none
          pollData1 := some p
          state := if connected then .forwardRequest else .waitConnect }) := by
  simp only [watchUpstream, ensures_bind, ensures_getData, ensures_ite, ensures_pure,
    ensures_setState]
  refine (addPollFd_rewatched hs).mono (fun res1 w1 h1 => ?_)
  obtain ⟨hw1, hadd⟩ := h1
  refine ⟨fun _ h => by omega, fun hres1 => ?_⟩
  rcases hadd with ⟨_, _, p, _, hd1, _, _⟩ | ⟨hbad, _⟩
  · have hset : w1.data l r = { w.data l r with pollData1 := some p } := by
      rw [hd1]
      simp [ExecutorData.setPollDataOf, hne]
    have hfd0 : (w.data l r).fd0 = (w1.data l r).fd0 := by rw [hset]
    rw [hfd0]
    refine (removePollFd_rewatched hw1.slots).mono (fun res2 w2 h2 => ?_)
    obtain ⟨hw2, hremove⟩ := h2
    refine ⟨fun _ h => by omega, fun hres2 _ => ?_⟩
    rcases hremove with ⟨_, _, q, hq, hd2⟩ | ⟨hbad, _⟩
    · rcases hw1.slots.dropPollData_cases hq with ⟨_, _, hdrop⟩ | ⟨hself, _⟩
      · refine ⟨hw2.slots.setData rfl rfl, hw1.streams.trans hw2.streams, p, ?_⟩
        rw [World.setData_self, hd2, hdrop, hset]
      · exact absurd rfl hself
    · exact absurd hbad (by omega)
  · exact absurd hbad (by omega)

/-- `up` opens the upstream socket, watches it and forgets the client. -/
theorem up_spec {ans : Answers} {w : World} {l r : Nat} {request : Bytes} {id0 : Nat}
    (h : Handed w l r request id0) :
    Ensures (up ans l r) w (fun res w' => res = 0 → ∃ id1, Started w l r id0 id1 w') := by
  simp only [up, ensures_bind, ensures_modifyData, ensures_getData, World.setData_self]
  split
  · exact ensures_pure.mpr (fun h => by omega)
  · rename_i proxy _
    simp only [ensures_ite, ensures_bind, ensures_pure, ensures_modifyData]
    refine ⟨fun _ h => by omega, fun _ => connect_spec.mono (fun res w1 hsock => ?_)⟩
    refine ⟨fun _ h => by omega, fun hpos => ?_⟩
    rcases hsock with ⟨hneg, _⟩ | ⟨havail, rfl⟩
    · exact absurd (by omega) hpos
    · have hopen0 : w.kernel.openId? (w.data l r).fd0 = some id0 := h.client
      have havail' : w.kernel.Available res.1 := havail
      have hne : res.1 ≠ (w.data l r).fd0 := by
        intro heq
        have hnone := havail'.2
        rw [heq, hopen0] at hnone
        cases hnone
      have hids : id0 ≠ w.kernel.nextId := Nat.ne_of_lt (Kernel.openId?_below hopen0)
      generalize hw2 : World.setData _ l r _ = w2
      have hdata : w2.data l r =
          { w.data l r with removeOnTimeout := true, fd1 := res.1 } := by
        rw [← hw2]
        simp
      have hkernel : w2.kernel = w.kernel.opened res.1 false := by
        rw [← hw2]
        rfl
      have hslots : Slots w2 l r :=
        h.slots.congr (by rw [← hw2]; simp [World.setData]) (by rw [hdata]) (by rw [hdata])
      refine (watchUpstream_spec hslots (by rw [hdata]; exact hne)).mono
        (fun res2 w3 h3 hres2 => ?_)
      obtain ⟨hslots3, hstreams, p, hd⟩ := h3 hres2
      rw [hdata] at hd
      refine ⟨w.kernel.nextId, ?_, ?_, hids, hslots3, by rw [hd], ?_, by rw [hd], by rw [hd], ?_,
        ?_, ?_, ?_⟩
      · rw [hstreams.openId?, hd, hkernel, Kernel.openId?_opened_of_ne (Ne.symm hne), hopen0]
      · rw [hstreams.openId?, hd, hkernel, Kernel.openId?_opened_self]
      · rw [hd]
        by_cases hc : res.2 = true
        · exact Or.inl (if_pos hc)
        · exact Or.inr (if_neg hc)
      · rw [hd]
        exact Option.some_ne_none p
      · rw [hstreams.sent, hkernel]
        exact Function.update_of_ne hids _ _
      · rw [hstreams.sent, hkernel]
        exact Function.update_self ..
      · rw [hstreams.taken, hkernel]
        exact Function.update_self ..

end ProxyExecutor

/-- The descriptors of a connection. -/
def ExecutorData.Holds (d : ExecutorData) (fd : Int) : Prop :=
  fd = d.fd0 ∨ fd = d.fd1 ∨ fd = d.pipeReadFd ∨ fd = d.pipeWriteFd

/-- What the rest of the server leaves alone.  `ids` are the two ends of the connection, which it
still names after they are closed. -/
structure Untouched (l r : Nat) (ids : List Nat) (w w' : World) : Prop where
  data : w'.data l r = w.data l r
  slots : Slots w' l r
  table : ∀ fd, (w.data l r).Holds fd → w'.kernel.table fd = w.kernel.table fd
  epoll : ∀ fd, (w.data l r).Holds fd → w'.kernel.epoll l fd = w.kernel.epoll l fd
  taken : ∀ id ∈ ids, w'.kernel.taken id = w.kernel.taken id
  ended : ∀ id ∈ ids, w'.kernel.ended id = w.kernel.ended id
  sent : ∀ id ∈ ids, w'.kernel.sent id = w.kernel.sent id
  pipes : ∀ fd, (w.data l r).Holds fd → ∀ id, w.kernel.openId? fd = some id →
    w'.kernel.pipes id = w.kernel.pipes id ∧ w'.kernel.readEnd id = w.kernel.readEnd id

/-- The world and the result of the last call for the connection. -/
structure ProxyRun where
  world : World
  last : ProcessResult

namespace ProxyRun

/-- A call of `process`, made as long as the calls return `ok`, or whatever else the server does.
`meets` restricts the calls that are considered. -/
inductive Step (process : Answers → Int → Nat → Prog ProcessResult) (l r : Nat) (ids : List Nat)
    (meets : World → Answers → Int → Nat → Prop) : ProxyRun → ProxyRun → Prop
  | call {w w' : World} {res : ProcessResult} (ans : Answers) (fd : Int) (events : Nat)
      (hmeets : meets w ans fd events) (hrun : process ans fd events w = some (res, w')) :
      Step process l r ids meets ⟨w, .ok⟩ ⟨w', res⟩
  | elsewhere {w w' : World} {res : ProcessResult} (h : Untouched l r ids w w') :
      Step process l r ids meets ⟨w, res⟩ ⟨w', res⟩

/-- A run from the end of `up`. -/
def Reach (process : Answers → Int → Nat → Prog ProcessResult) (l r : Nat) (ids : List Nat)
    (meets : World → Answers → Int → Nat → Prop) (w : World) (s : ProxyRun) : Prop :=
  Relation.ReflTransGen (Step process l r ids meets) ⟨w, .ok⟩ s

/-- What holds after `up`, after every call that returned `ok` and is kept by the rest of the
server holds all along, and every call ends with what it ensures. -/
theorem Reach.ensures {process : Answers → Int → Nat → Prog ProcessResult} {l r : Nat}
    {ids : List Nat} {meets : World → Answers → Int → Nat → Prop} {w : World} {s : ProxyRun}
    (I : World → Prop) (Q : ProcessResult → World → Prop)
    (hcall : ∀ w ans fd events, I w → meets w ans fd events →
      Ensures (process ans fd events) w (fun res w' => Q res w' ∧ (res = .ok → I w')))
    (helse : ∀ w w' res, Q res w → Untouched l r ids w w' → Q res w')
    (helseInv : ∀ w w', I w → Untouched l r ids w w' → I w')
    (h0 : I w) (hq : Q .ok w) (h : Reach process l r ids meets w s) :
    Q s.last s.world ∧ (s.last = .ok → I s.world) := by
  induction h with
  | refl => exact ⟨hq, fun _ => h0⟩
  | tail _ hstep ih =>
    cases hstep with
    | call ans fd events hmeets hrun =>
      exact hcall _ ans fd events (ih.2 rfl) hmeets _ _ hrun
    | elsewhere hu => exact ⟨helse _ _ _ ih.1 hu, fun hok => helseInv _ _ (ih.2 hok) hu⟩

/-- An entry for one of the descriptors, and the answers that the system gives meanwhile. -/
structure Call where
  answers : Answers
  fd : Int
  events : Nat

/-- The calls one after the other, as long as they return `ok` and are considered. -/
def calls (process : Answers → Int → Nat → Prog ProcessResult)
    (meets : World → Answers → Int → Nat → Prop)
    [∀ w ans fd events, Decidable (meets w ans fd events)] :
    List Call → ProxyRun → Option ProxyRun
  | [], s => some s
  | c :: cs, s =>
    if s.last = .ok ∧ meets s.world c.answers c.fd c.events then
      match process c.answers c.fd c.events s.world with
      | some (res, w') => calls process meets cs ⟨w', res⟩
      | none => none
    else none

theorem reach_of_calls {process : Answers → Int → Nat → Prog ProcessResult} (l r : Nat)
    (ids : List Nat) {meets : World → Answers → Int → Nat → Prop}
    [∀ w ans fd events, Decidable (meets w ans fd events)] {s' : ProxyRun} :
    ∀ {cs : List Call} {s : ProxyRun}, calls process meets cs s = some s' →
      Relation.ReflTransGen (Step process l r ids meets) s s' := by
  intro cs
  induction cs with
  | nil =>
    intro s h
    cases h
    exact Relation.ReflTransGen.refl
  | cons c cs ih =>
    intro s h
    unfold calls at h
    split at h
    · rename_i hgo
      cases hp : process c.answers c.fd c.events s.world with
      | none =>
        rw [hp] at h
        cases h
      | some out =>
        rw [hp] at h
        obtain ⟨w, last⟩ := s
        obtain ⟨rfl, hmeets⟩ := hgo
        exact Relation.ReflTransGen.head (Step.call c.answers c.fd c.events hmeets hp) (ih h)
    · cases h

/-- A successful `up` and the calls that follow it. -/
def session (up : Answers → Prog Int) (process : Answers → Int → Nat → Prog ProcessResult)
    (meets : World → Answers → Int → Nat → Prop)
    [∀ w ans fd events, Decidable (meets w ans fd events)] (ans : Answers) (cs : List Call)
    (w0 : World) : Option (World × ProxyRun) :=
  match up ans w0 with
  | some (0, w) => (calls process meets cs ⟨w, .ok⟩).map (fun s => (w, s))
  | _ => none

theorem session_some {up : Answers → Prog Int} {process : Answers → Int → Nat → Prog ProcessResult}
    (l r : Nat) (ids : List Nat) {meets : World → Answers → Int → Nat → Prop}
    [∀ w ans fd events, Decidable (meets w ans fd events)] {ans : Answers} {cs : List Call}
    {w0 w : World} {s : ProxyRun} (h : session up process meets ans cs w0 = some (w, s)) :
    up ans w0 = some (0, w) ∧ Reach process l r ids meets w s := by
  unfold session at h
  split at h
  · rename_i w1 hup
    obtain ⟨s1, hcalls, heq⟩ := Option.map_eq_some_iff.mp h
    cases heq
    exact ⟨hup, reach_of_calls l r ids hcalls⟩
  · cases h

end ProxyRun

/-! ## A connection to begin with

The runs below start from a loop that watches one client and holds its request. -/

def clientWorld (request : Bytes) : World where
  parameters := { rootFolder := [] }
  loops := fun _ =>
    { execDatas := BlockStorage.empty.assign 0
        { fd0 := 5
          buffer :=
            { buf := request ++
                List.replicate (ExecutorData.REQUEST_BUFFER_SIZE - request.length) 0
              readHead := 0
              writeHead := request.length }
          proxy := some { urlPrefix := [], socketType := .tcp } } }
  kernel := Kernel.fresh.opened 5 true

def handedWorld (request : Bytes) : World :=
  match addPollFd {} 0 0 5 EPOLLIN (clientWorld request) with
  | some (_, w) => w
  | none => clientWorld request

theorem handedWorld_slots (request : Bytes) : Slots (handedWorld request) 0 0 := by
  have hempty : Slots (clientWorld request) 0 0 :=
    ⟨BlockStorage.sound_empty, fun p hp => (by cases hp), fun p hp => (by cases hp),
      fun p hp => (by cases hp)⟩
  unfold handedWorld
  split
  · rename_i w hrun
    exact ((addPollFd_rewatched hempty) _ _ hrun).1.slots
  · exact hempty

def getBytes : Bytes := [71, 69, 84]

theorem handedWorld_handed : Handed (handedWorld getBytes) 0 0 getBytes 0 where
  client := by decide +kernel
  slots := handedWorld_slots _
  upstream := by decide +kernel
  buffer := ⟨by decide +kernel, by decide +kernel⟩
  size := by decide +kernel
  front := by decide +kernel
  held := by decide +kernel
  pipe := by decide +kernel

end EpollHttp
