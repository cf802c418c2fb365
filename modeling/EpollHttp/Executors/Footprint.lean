import EpollHttp.PollLoop.BooksKept

/-
Every call of an executor is a chain of effects on its own data.

The class of the executor is part of what is kept; `setExecutor` alone replaces it.
-/

namespace EpollHttp

open Program

/-- What the executor `r` of the loop `l`, of the class `x`, did since `w0`. -/
structure Did (l r : Nat) (x : Option Executor) (w0 w : World) : Prop where
  effects : Effects l r w0 w
  booked : Booked w
  inUse : w.InUse l r
  exec : (w.data l r).pExecutor = x

section
variable {ans : Answers} {l r : Nat} {x : Option Executor} {w0 w w' : World}

theorem Did.step (h : Did l r x w0 w) (he : Effect l r w w')
    (hexec : (w'.data l r).pExecutor = (w.data l r).pExecutor) : Did l r x w0 w' :=
  ⟨h.effects.tail he, he.booked h.booked, (he.inUse h.booked l r).mpr h.inUse,
    hexec.trans h.exec⟩

theorem Did.bytes (h : Did l r x w0 w) {k : Kernel} (hk : w.kernel.SameTables k) :
    Did l r x w0 (w.setKernel k) := h.step (.bytes k hk) rfl

theorem Did.data (h : Did l r x w0 w) {d : ExecutorData} (hheld : (w.data l r).SameHolding d)
    (hexec : d.pExecutor = (w.data l r).pExecutor) : Did l r x w0 (w.setData l r d) :=
  h.step (.data d hheld (Or.inl hexec)) (by rw [World.setData_self, hexec])

/-- The class of the executor is replaced. -/
theorem Did.become (h : Did l r x w0 w) {d : ExecutorData}
    (hheld : (w.data l r).SameHolding d) (halone : d.Requester → d.Alone) :
    Did l r d.pExecutor w0 (w.setData l r d) := by
  have he : Effect l r w (w.setData l r d) := .data d hheld (Or.inr halone)
  exact ⟨h.effects.tail he, he.booked h.booked, (he.inUse h.booked l r).mpr h.inUse,
    by rw [World.setData_self]⟩

/-! ## Calls on the world -/

theorem did_getData : Preserves (Did l r x w0) (getData l r) := fun _ h => ensures_getData.mpr h

theorem did_getKernel : Preserves (Did l r x w0) getKernel := fun _ h => ensures_getKernel.mpr h

theorem did_modifyData {f : ExecutorData → ExecutorData}
    (hf : ∀ d, d.SameHolding (f d) ∧ (f d).pExecutor = d.pExecutor) :
    Preserves (Did l r x w0) (modifyData l r f) :=
  fun _ h => ensures_modifyData.mpr (h.data (hf _).1 (hf _).2)

theorem did_setState {state : ExecutorData.State} :
    Preserves (Did l r x w0) (setState l r state) :=
  did_modifyData (fun _ => ⟨⟨fun _ => rfl, fun _ => rfl⟩, rfl⟩)

theorem did_countRetry : Preserves (Did l r x w0) (countRetry l r) :=
  did_modifyData (fun _ => ⟨⟨fun _ => rfl, fun _ => rfl⟩, rfl⟩)

theorem did_clearRetries : Preserves (Did l r x w0) (clearRetries l r) :=
  did_modifyData (fun _ => ⟨⟨fun _ => rfl, fun _ => rfl⟩, rfl⟩)

theorem did_modifyKernel {f : Kernel → Kernel} (hf : ∀ k : Kernel, k.SameTables (f k)) :
    Preserves (Did l r x w0) (modifyKernel f) :=
  fun _ h => ensures_modifyKernel.mpr (h.bytes (hf _))

/-! ## Bytes -/

theorem did_receive {id count : Nat} {answer : ReadAnswer} :
    Preserves (Did l r x w0) (receive id count answer) := by
  unfold receive
  cases answer.bytes with
  | none => exact Preserves.pure
  | some bytes =>
    exact Preserves.bind (did_modifyKernel (fun k => Kernel.SameTables.take k _ _))
      (fun _ => Preserves.pure)

theorem did_sendSome {id : Nat} {bytes : Bytes} {count : Int} :
    Preserves (Did l r x w0) (sendSome id bytes count) :=
  did_modifyKernel (fun k => Kernel.SameTables.send k _ _)

theorem did_read {fd : Int} {count : Nat} : Preserves (Did l r x w0) (read ans fd count) := by
  refine Preserves.bind did_getKernel (fun k => ?_)
  cases k.openId? fd with
  | none => exact Preserves.pure
  | some id => exact did_receive

theorem did_write {fd : Int} {bytes : Bytes} : Preserves (Did l r x w0) (write ans fd bytes) := by
  refine Preserves.bind did_getKernel (fun k => ?_)
  cases k.openId? fd with
  | none => exact Preserves.pure
  | some id => exact Preserves.bind did_sendSome (fun _ => Preserves.pure)

theorem did_sendfile {outFd inFd count : Int} :
    Preserves (Did l r x w0) (sendfile ans outFd inFd count) := by
  refine Preserves.bind did_getKernel (fun k => ?_)
  cases k.openId? outFd with
  | none => exact Preserves.pure
  | some outId =>
    cases k.openId? inFd with
    | none => exact Preserves.pure
    | some inId =>
      refine Preserves.bind did_receive (fun received => ?_)
      exact Preserves.bind did_sendSome (fun _ => Preserves.pure)

theorem did_spliceIn {fd pipeWriteFd : Int} {count : Nat} :
    Preserves (Did l r x w0) (spliceIn ans fd pipeWriteFd count) := by
  refine Preserves.bind did_getKernel (fun k => ?_)
  cases k.openId? fd with
  | none => exact Preserves.pure
  | some id =>
    cases k.openId? pipeWriteFd with
    | none => exact Preserves.pure
    | some pipeId =>
      refine Preserves.bind did_receive (fun received => ?_)
      exact Preserves.bind (did_modifyKernel (fun k => Kernel.SameTables.setPipe k _ _))
        (fun _ => Preserves.pure)

theorem did_spliceOut {pipeReadFd fd : Int} {count : Nat} :
    Preserves (Did l r x w0) (spliceOut ans pipeReadFd fd count) := by
  refine Preserves.bind did_getKernel (fun k => ?_)
  cases k.openId? pipeReadFd with
  | none => exact Preserves.pure
  | some pipeId =>
    cases k.openId? fd with
    | none => exact Preserves.pure
    | some id =>
      refine Preserves.bind did_sendSome (fun _ => ?_)
      exact Preserves.bind (did_modifyKernel (fun k => Kernel.SameTables.setPipe k _ _))
        (fun _ => Preserves.pure)

theorem did_sslRead {fd : Int} {count : Nat} :
    Preserves (Did l r x w0) (sslRead ans fd count) := by
  refine Preserves.bind did_getKernel (fun k => ?_)
  split
  · exact Preserves.bind (did_modifyKernel (fun k => Kernel.SameTables.take k _ _))
      (fun _ => Preserves.pure)
  · exact Preserves.pure

theorem did_sslWrite {fd : Int} {bytes : Bytes} :
    Preserves (Did l r x w0) (sslWrite ans fd bytes) := by
  refine Preserves.bind did_getKernel (fun k => ?_)
  cases k.openId? fd with
  | none => exact Preserves.pure
  | some id => exact Preserves.bind did_sendSome (fun _ => Preserves.pure)

/-! ## The epoll set -/

theorem did_addPollFd {fd : Int} {events : Nat} :
    Preserves (Did l r x w0) (addPollFd ans l r fd events) := by
  intro w h
  refine addPollFd_spec.mono (fun res w' hadd => ?_)
  rcases hadd with ⟨_, p, hadded⟩ | ⟨_, rfl | hrefused⟩
  · refine h.step (.added fd events p w' h.inUse hadded) ?_
    obtain ⟨_, _, _, _, _, rfl⟩ := hadded
    rw [World.rewatch_data_self, setPollDataOf_pExecutor]
  · exact h
  · refine h.step (.refused w' hrefused) ?_
    obtain ⟨_, _, _, rfl⟩ := hrefused
    rw [World.rewatch_data_self]

theorem did_editPollFd {fd : Int} {events : Nat} :
    Preserves (Did l r x w0) (editPollFd ans l r fd events) := by
  intro w h
  refine editPollFd_spec.mono (fun res w' hedit => ?_)
  rcases hedit with ⟨_, p, k, hp, hk, rfl⟩ | ⟨_, rfl⟩
  · exact h.step (.edited fd events p k hp hk) rfl
  · exact h

theorem did_removePollFd {fd : Int} : Preserves (Did l r x w0) (removePollFd l r fd) := by
  intro w h
  refine removePollFd_spec.mono (fun res w' hremove => ?_)
  rcases hremove with ⟨_, p, hremoved⟩ | ⟨_, rfl, _⟩
  · refine h.step (.removed fd p w' hremoved) ?_
    obtain ⟨_, _, _, rfl⟩ := hremoved
    rw [World.rewatch_data_self, dropPollData_pExecutor]
  · exact h

theorem dropPollData_cleared (d : ExecutorData) (p : Nat) :
    (d.dropPollData p).cleared = d.cleared := by
  unfold ExecutorData.dropPollData
  split
  · rfl
  · split <;> rfl

/-- A descriptor that is watched can be removed, and nothing else changes in the data. -/
theorem removePollFd_watched (place : Place) (h : Did l r x w0 w)
    (hslot : w.pollDataAt l r place ≠ none) :
    Ensures (removePollFd l r (w.fdAt l r place)) w (fun res w' => res = 0 ∧ Did l r x w0 w' ∧
      (w'.data l r).cleared = (w.data l r).cleared ∧
      (∀ place', w'.fdAt l r place' = w.fdAt l r place') ∧
      ∀ place', w'.pollDataAt l r place' =
        if place' = place then none else w.pollDataAt l r place') := by
  obtain ⟨p, hp⟩ := Option.ne_none_iff_exists'.mp hslot
  have hl := h.booked.loops l
  obtain ⟨_, _, reg, hreg, _⟩ := hl.slot r place p hp
  have hpos := h.booked.watched_positive hp
  -- The other descriptor is not the same number.
  have hptr : (w.data l r).pollDataOf (w.fdAt l r place) = some p := by
    unfold ExecutorData.pollDataOf
    cases place with
    | fd0 =>
      exact (if_pos rfl).trans hp
    | fd1 =>
      have hne : ¬ w.fdAt l r .fd1 = (w.data l r).fd0 := fun heq =>
        nomatch (h.booked.apart l r .fd1 l r .fd0 hpos heq).2.2
      rw [if_neg hne]
      exact (if_pos rfl).trans hp
    | pipeRead => cases hp
    | pipeWrite => cases hp
  refine ((removePollFd_spec).and (did_removePollFd w h)).mono (fun res w' hboth => ?_)
  obtain ⟨hremove, hdid⟩ := hboth
  rcases hremove with ⟨hres, q, hremoved⟩ | ⟨_, _, hnone⟩
  · obtain rfl : p = q := Option.some.inj (hptr.symm.trans hremoved.ptr)
    obtain ⟨place', hat, hslot', hd⟩ := h.booked.removed_place hremoved.ptr
    obtain rfl : place = place' := (h.booked.slot_unique hp hslot').2
    obtain ⟨_, _, _, rfl⟩ := hremoved
    refine ⟨hres, hdid, ?_, fun place' => ?_, fun place' => ?_⟩
    · rw [World.rewatch_data_self, dropPollData_cleared]
    · rw [World.rewatch_fdAt, if_pos ⟨rfl, rfl⟩]
      exact (hd place').1
    · rw [World.rewatch_pollDataAt, if_pos ⟨rfl, rfl⟩]
      exact (hd place').2
  · rw [hnone p hptr] at hreg
    cases hreg

/-! ## Closing -/

/-- A place that is not watched is closed. -/
theorem Did.closed (h : Did l r x w0 w) (place : Place) (hpoll : w.pollDataAt l r place = none) :
    Did l r x w0 ((w.setKernel (w.kernel.close (w.fdAt l r place))).setData l r
      ((w.data l r).withFd place (-1))) :=
  h.step (.closed place hpoll) (by rw [World.setData_self, ExecutorData.withFd_pExecutor])

theorem did_closeFd {fd : Int} : Preserves (Did l r x w0) (closeFd l r fd) := by
  intro w h
  simp only [closeFd, ensures_bind, ensures_getData, ensures_ite, ensures_when, ensures_pure,
    ensures_close, ensures_modifyData]
  refine ⟨fun _ => ⟨fun hslot => ?_, fun hslot => ?_⟩, fun _ => ⟨fun _ =>
    ⟨fun hslot => ?_, fun hslot => ?_⟩, fun _ => h⟩⟩
  · have hremoved := removePollFd_watched .fd0 h hslot
    refine Ensures.mono hremoved (fun res w1 h1 => ?_)
    obtain ⟨_, hdid, _, hfd, hpoll⟩ := h1
    have hclosed := hdid.closed .fd0 ((hpoll .fd0).trans (if_pos rfl))
    rw [hfd .fd0] at hclosed
    exact hclosed
  · exact h.closed .fd0 (not_not.mp hslot)
  · have hremoved := removePollFd_watched .fd1 h hslot
    refine Ensures.mono hremoved (fun res w1 h1 => ?_)
    obtain ⟨_, hdid, _, hfd, hpoll⟩ := h1
    have hclosed := hdid.closed .fd1 ((hpoll .fd1).trans (if_pos rfl))
    rw [hfd .fd1] at hclosed
    exact hclosed
  · exact h.closed .fd1 (not_not.mp hslot)

theorem World.setData_setKernel (w : World) (l r : Nat) (d : ExecutorData) (k : Kernel) :
    (w.setData l r d).setKernel k = (w.setKernel k).setData l r d := rfl

/-- The world in which a place was closed. -/
def World.closedAt (w : World) (l r : Nat) (place : Place) : World :=
  (w.setKernel (w.kernel.close (w.fdAt l r place))).setData l r ((w.data l r).withFd place (-1))

theorem World.closedAt_fdAt (place place' : Place) : (w.closedAt l r place).fdAt l r place' =
    if place' = place then -1 else w.fdAt l r place' := by
  unfold World.closedAt
  rw [World.setData_fdAt, if_pos ⟨rfl, rfl⟩]
  split
  · rename_i heq
    rw [heq, ExecutorData.withFd_fdAt_self]
  · rename_i hne
    rw [ExecutorData.withFd_fdAt_of_ne _ _ _ hne]
    rfl

theorem World.closedAt_pollDataAt (place place' : Place) :
    (w.closedAt l r place).pollDataAt l r place' = w.pollDataAt l r place' := by
  unfold World.closedAt
  rw [World.setData_pollDataAt, if_pos ⟨rfl, rfl⟩, ExecutorData.withFd_pollDataAt]
  rfl

/-- Up to the data of the executor, closing a place is a call of `close`. -/
theorem World.closedAt_setData (place : Place) {d : ExecutorData} {k : Kernel}
    (h : w'.setData l r d = (w.setKernel k).setData l r d) :
    (w'.closedAt l r place).setData l r d =
      (w.setKernel (w'.closedAt l r place).kernel).setData l r d := by
  unfold World.closedAt
  rw [World.setData_setData, ← World.setData_setKernel, h]
  rfl

theorem ExecutorData.cleared_holding (d : ExecutorData)
    (hvalue : ∀ place, d.fdAt place = -1 ∨ 0 < d.fdAt place) (place : Place) :
    d.cleared.fdAt place = -1 ∧ d.cleared.pollDataAt place = none := by
  have hfd : ∀ fd : Int, fd = -1 ∨ 0 < fd → (if 0 < fd then -1 else fd) = -1 := by
    intro fd h
    split
    · rfl
    · omega
  have hplace := hvalue place
  cases place
  · exact ⟨hfd _ hplace, rfl⟩
  · exact ⟨hfd _ hplace, rfl⟩
  · exact ⟨hfd _ hplace, rfl⟩
  · exact ⟨hfd _ hplace, rfl⟩

/-- `down` closes the places in the kernel and assigns the data at its end. -/
theorem closePositive_spec (place : Place) {fd : Int} {u : World} (h : Did l r x w0 w')
    (hfd : w'.fdAt l r place = fd) (hu : u = w.setKernel w'.kernel) :
    Ensures (closePositive fd) u (fun _ u' =>
      u' = w.setKernel (w'.closedAt l r place).kernel) := by
  unfold closePositive
  rw [ensures_when, ensures_close, ← hfd, hu]
  refine ⟨fun _ => rfl, fun hneg => ?_⟩
  unfold World.closedAt
  rw [World.setData_kernel, World.setKernel_kernel,
    Kernel.close_never (h.booked.never _ hneg)]

/-- All descriptors are closed, once none of them is watched. -/
theorem down_spec (h : Did l r x w0 w) (hpoll : ∀ place, w.pollDataAt l r place = none) :
    Ensures (down l r) w (fun _ w' => Did l r none w0 w' ∧
      w'.data l r = (w.data l r).cleared) := by
  have h1 : Did l r x w0 (w.closedAt l r .fd0) := h.closed .fd0 (hpoll .fd0)
  have h2 : Did l r x w0 ((w.closedAt l r .fd0).closedAt l r .fd1) :=
    h1.closed .fd1 ((World.closedAt_pollDataAt .fd0 .fd1).trans (hpoll .fd1))
  have h3 : Did l r x w0 (((w.closedAt l r .fd0).closedAt l r .fd1).closedAt l r .pipeRead) :=
    h2.closed .pipeRead rfl
  have h4 : Did l r x w0 ((((w.closedAt l r .fd0).closedAt l r .fd1).closedAt l r
      .pipeRead).closedAt l r .pipeWrite) := h3.closed .pipeWrite rfl
  have hheld : ((((((w.closedAt l r .fd0).closedAt l r .fd1).closedAt l r .pipeRead).closedAt l r
      .pipeWrite)).data l r).SameHolding (w.data l r).cleared := by
    have hcleared := (w.data l r).cleared_holding (h.booked.value l r)
    refine ⟨fun place => (hcleared place).1.trans ?_, fun place => (hcleared place).2.trans ?_⟩
    · symm
      cases place
      · exact (World.closedAt_fdAt ..).trans ((World.closedAt_fdAt ..).trans
          ((World.closedAt_fdAt ..).trans (World.closedAt_fdAt ..)))
      · exact (World.closedAt_fdAt ..).trans ((World.closedAt_fdAt ..).trans
          (World.closedAt_fdAt ..))
      · exact (World.closedAt_fdAt ..).trans (World.closedAt_fdAt ..)
      · exact World.closedAt_fdAt ..
    · exact ((World.closedAt_pollDataAt .pipeWrite place).trans
        ((World.closedAt_pollDataAt .pipeRead place).trans
          ((World.closedAt_pollDataAt .fd1 place).trans
            ((World.closedAt_pollDataAt .fd0 place).trans (hpoll place))))).symm
  have hdid := h4.become hheld (fun hreq => by rcases hreq with heq | heq <;> cases heq)
  simp only [down, ensures_bind, ensures_getData, ensures_modifyData]
  refine (closePositive_spec .fd0 h rfl rfl).mono (fun _ u1 hu1 => ?_)
  refine (closePositive_spec .fd1 h1 (World.closedAt_fdAt ..) hu1).mono (fun _ u2 hu2 => ?_)
  refine (closePositive_spec .pipeRead h2
    ((World.closedAt_fdAt ..).trans (World.closedAt_fdAt ..)) hu2).mono (fun _ u3 hu3 => ?_)
  refine (closePositive_spec .pipeWrite h3 ((World.closedAt_fdAt ..).trans
    ((World.closedAt_fdAt ..).trans (World.closedAt_fdAt ..))) hu3).mono (fun _ u4 hu4 => ?_)
  rw [hu4]
  refine ⟨?_, World.setData_self ..⟩
  have hworld := World.closedAt_setData .pipeWrite (World.closedAt_setData .pipeRead
    (World.closedAt_setData .fd1 (World.closedAt_setData .fd0
      (rfl : w.setData l r (w.data l r).cleared =
        (w.setKernel w.kernel).setData l r (w.data l r).cleared))))
  rw [World.setKernel_data, ← hworld]
  exact hdid

/-- The data was cleared and handed back. -/
structure TakenBack (l r : Nat) (w w' : World) : Prop where
  booked : Booked w'
  world : ∃ w1, Did l r none w w1 ∧ w1.data l r = (w.data l r).cleared ∧
    w' = w1.setLoop l { w1.loops l with execDatas := (w1.loops l).execDatas.free r }

theorem removeExecutorData_spec (hb : Booked w) (huse : w.InUse l r) :
    Ensures (removeExecutorData l r) w (fun _ w' => TakenBack l r w w') := by
  have h0 : Did l r (w.data l r).pExecutor w w := ⟨.refl, hb, huse, rfl⟩
  -- The rest of the call once a place is watched no longer.
  have hend : ∀ w1, Did l r (w.data l r).pExecutor w w1 →
      (w1.data l r).cleared = (w.data l r).cleared → w1.pollDataAt l r .fd0 = none →
      w1.pollDataAt l r .fd1 = none → Ensures (down l r) w1 (fun _ w2 =>
        TakenBack l r w (w2.setLoop l
          { w2.loops l with execDatas := (w2.loops l).execDatas.free r })) := by
    intro w1 h1 hcleared hpoll0 hpoll1
    have hpoll : ∀ place, w1.pollDataAt l r place = none := by
      intro place
      cases place
      · exact hpoll0
      · exact hpoll1
      · rfl
      · rfl
    refine (down_spec h1 hpoll).mono (fun _ w2 h2 => ?_)
    obtain ⟨hdid, hdata⟩ := h2
    refine ⟨hdid.booked.freed hdid.inUse (fun place => ?_), w2, hdid, hdata.trans hcleared, rfl⟩
    unfold World.fdAt World.pollDataAt
    rw [hdata]
    exact (w1.data l r).cleared_holding (h1.booked.value l r) place
  simp only [removeExecutorData, ensures_bind, ensures_getData, ensures_when, freeExecData,
    ensures_modifyLoop, ensures_pure]
  refine ⟨fun h0slot => ?_, fun h0none => ?_⟩
  · refine (removePollFd_watched .fd0 h0 h0slot).mono (fun _ w1 h1 => ?_)
    obtain ⟨_, hdid, hcleared, hfd, hpoll⟩ := h1
    have hpoll0 : w1.pollDataAt l r .fd0 = none := hpoll .fd0
    refine ⟨fun h1slot => ?_, fun h1none => hend w1 hdid hcleared hpoll0 (not_not.mp h1none)⟩
    refine (removePollFd_watched .fd1 hdid h1slot).mono (fun _ w2 h2 => ?_)
    obtain ⟨_, hdid2, hcleared2, _, hpoll2⟩ := h2
    exact hend w2 hdid2 (hcleared2.trans hcleared) ((hpoll2 .fd0).trans hpoll0) (hpoll2 .fd1)
  · have hpoll0 : w.pollDataAt l r .fd0 = none := not_not.mp h0none
    refine ⟨fun h1slot => ?_, fun h1none => hend w h0 rfl hpoll0 (not_not.mp h1none)⟩
    refine (removePollFd_watched .fd1 h0 h1slot).mono (fun _ w2 h2 => ?_)
    obtain ⟨_, hdid2, hcleared2, _, hpoll2⟩ := h2
    exact hend w2 hdid2 hcleared2 ((hpoll2 .fd0).trans hpoll0) (hpoll2 .fd1)

end

end EpollHttp
