import EpollHttp.Executors.Stance

/-
The calls of the executors and the stance they leave.

Reading and writing keep the stance.  The calls on the epoll set replace one mask when they succeed
and nothing when they fail.
-/

namespace EpollHttp

open Program

abbrev Stanced (l r : Nat) (s : Stance) (w : World) : Prop := w.stance l r = s

/-- The executor `r` of the loop `l` came from `w0` to the stance `s`. -/
structure Stands (l r : Nat) (w0 : World) (s : Stance) (w : World) : Prop where
  did : Did l r s.exec w0 w
  stance : Stanced l r s w

section
variable {ans : Answers} {w0 w w' : World} {l r : Nat} {s : Stance} {place : Place} {fd : Int}
variable {events : Nat} {α : Type}

theorem Stands.start (hb : Booked w) (huse : w.InUse l r) :
    Stands l r w (w.stance l r) w := ⟨⟨.refl, hb, huse, rfl⟩, rfl⟩

theorem Preserves.stands {m : Prog α} (hd : Preserves (Did l r s.exec w0) m)
    (hk : Preserves (Stanced l r s) m) : Preserves (Stands l r w0 s) m :=
  fun w h => ((hd w h.did).and (hk w h.stance)).mono (fun _ _ both => ⟨both.1, both.2⟩)

/-! ## Reading the stance -/

theorem Stands.exec (h : Stands l r w0 s w) : (w.data l r).pExecutor = s.exec := h.did.exec

theorem Stands.state (h : Stands l r w0 s w) : (w.data l r).state = s.state :=
  congrArg Stance.state h.stance

theorem Stands.upstream (h : Stands l r w0 s w) : w.mask l r .fd1 = s.upstream :=
  congrArg Stance.upstream h.stance

theorem Stands.upstream_none (h : Stands l r w0 s w) :
    s.upstream = none ↔ (w.data l r).pollData1 = none := by
  rw [← h.upstream]
  exact h.did.booked.mask_eq_none

/-! ## Calls that keep the stance -/

theorem keeps_modifyKernel {f : Kernel → Kernel} (hf : ∀ k, (f k).epoll = k.epoll) :
    Preserves (Stanced l r s) (modifyKernel f) :=
  fun _ h => ensures_modifyKernel.mpr ((setKernel_stance_epoll (hf _)).trans h)

/-- The fields of the data that belong to the stance. -/
theorem setData_stance {d : ExecutorData} (h0 : d.fd0 = (w.data l r).fd0)
    (h1 : d.fd1 = (w.data l r).fd1) (hp0 : d.pollData0 = (w.data l r).pollData0)
    (hp1 : d.pollData1 = (w.data l r).pollData1) : (w.setData l r d).stance l r =
      { w.stance l r with exec := d.pExecutor, state := d.state } := by
  have hdata : (w.setData l r d).data l r = d := World.setData_self ..
  have hclient : (w.setData l r d).mask l r .fd0 = w.mask l r .fd0 := by
    refine mask_congr ((congrArg ExecutorData.pollData0 hdata).trans hp0) (fun _ => ?_)
    rw [show (w.setData l r d).fdAt l r .fd0 = w.fdAt l r .fd0 from
      (congrArg ExecutorData.fd0 hdata).trans h0]
    rfl
  have hupstream : (w.setData l r d).mask l r .fd1 = w.mask l r .fd1 := by
    refine mask_congr ((congrArg ExecutorData.pollData1 hdata).trans hp1) (fun _ => ?_)
    rw [show (w.setData l r d).fdAt l r .fd1 = w.fdAt l r .fd1 from
      (congrArg ExecutorData.fd1 hdata).trans h1]
    rfl
  unfold World.stance
  rw [hdata, hclient, hupstream]

/-- An assignment that changes neither the stance nor what is held. -/
theorem Stands.assigned {d : ExecutorData} (h : Stands l r w0 s w)
    (hheld : (w.data l r).SameHolding d) (hexec : d.pExecutor = (w.data l r).pExecutor)
    (hstate : d.state = (w.data l r).state) : Stands l r w0 s (w.setData l r d) := by
  refine ⟨h.did.data hheld hexec, ?_⟩
  unfold Stanced
  rw [setData_stance (hheld.1 .fd0) (hheld.1 .fd1) (hheld.2 .fd0) (hheld.2 .fd1), hexec, hstate]
  exact h.stance

theorem stands_assign {f : ExecutorData → ExecutorData}
    (hfd : ∀ d place, (f d).fdAt place = d.fdAt place)
    (hpoll : ∀ d place, (f d).pollDataAt place = d.pollDataAt place)
    (hexec : ∀ d, (f d).pExecutor = d.pExecutor) (hstate : ∀ d, (f d).state = d.state) :
    Preserves (Stands l r w0 s) (modifyData l r f) :=
  fun _ h => ensures_modifyData.mpr (h.assigned ⟨hfd _, hpoll _⟩ (hexec _) (hstate _))

theorem stands_countRetry : Preserves (Stands l r w0 s) (countRetry l r) :=
  stands_assign (fun _ _ => rfl) (fun _ _ => rfl) (fun _ => rfl) (fun _ => rfl)

theorem stands_clearRetries : Preserves (Stands l r w0 s) (clearRetries l r) :=
  stands_assign (fun _ _ => rfl) (fun _ _ => rfl) (fun _ => rfl) (fun _ => rfl)

theorem stands_getData : Preserves (Stands l r w0 s) (getData l r) :=
  fun _ h => ensures_getData.mpr h

theorem stands_setState (h : Stands l r w0 s w) (state : ExecutorData.State) :
    Stands l r w0 { s with state := state }
      (w.setData l r { w.data l r with state := state }) := by
  refine ⟨h.did.data ⟨fun _ => rfl, fun _ => rfl⟩ rfl, ?_⟩
  unfold Stanced
  rw [setData_stance (d := { w.data l r with state := state }) rfl rfl rfl rfl, h.stance, h.exec]

/-! ## Bytes -/

theorem keeps_getKernel : Preserves (Stanced l r s) getKernel :=
  fun _ h => ensures_getKernel.mpr h

theorem keeps_sendSome {id : Nat} {bytes : Bytes} {count : Int} :
    Preserves (Stanced l r s) (sendSome id bytes count) := keeps_modifyKernel (fun _ => rfl)

theorem keeps_receive {id count : Nat} {answer : ReadAnswer} :
    Preserves (Stanced l r s) (receive id count answer) := by
  unfold receive
  cases answer.bytes with
  | none => exact Preserves.pure
  | some bytes => exact Preserves.bind (keeps_modifyKernel (fun _ => rfl)) (fun _ => Preserves.pure)

theorem stands_read {count : Nat} : Preserves (Stands l r w0 s) (read ans fd count) := by
  refine Preserves.stands did_read (Preserves.bind keeps_getKernel (fun k => ?_))
  cases k.openId? fd with
  | none => exact Preserves.pure
  | some id => exact keeps_receive

theorem stands_write {bytes : Bytes} : Preserves (Stands l r w0 s) (write ans fd bytes) := by
  refine Preserves.stands did_write (Preserves.bind keeps_getKernel (fun k => ?_))
  cases k.openId? fd with
  | none => exact Preserves.pure
  | some id => exact Preserves.bind keeps_sendSome (fun _ => Preserves.pure)

theorem stands_sendfile {inFd count : Int} :
    Preserves (Stands l r w0 s) (sendfile ans fd inFd count) := by
  refine Preserves.stands did_sendfile (Preserves.bind keeps_getKernel (fun k => ?_))
  cases k.openId? fd with
  | none => exact Preserves.pure
  | some outId =>
    cases k.openId? inFd with
    | none => exact Preserves.pure
    | some inId =>
      refine Preserves.bind keeps_receive (fun received => ?_)
      exact Preserves.bind keeps_sendSome (fun _ => Preserves.pure)

theorem stands_spliceIn {pipeWriteFd : Int} {count : Nat} :
    Preserves (Stands l r w0 s) (spliceIn ans fd pipeWriteFd count) := by
  refine Preserves.stands did_spliceIn (Preserves.bind keeps_getKernel (fun k => ?_))
  cases k.openId? fd with
  | none => exact Preserves.pure
  | some id =>
    cases k.openId? pipeWriteFd with
    | none => exact Preserves.pure
    | some pipeId =>
      refine Preserves.bind keeps_receive (fun received => ?_)
      exact Preserves.bind (keeps_modifyKernel (fun _ => rfl)) (fun _ => Preserves.pure)

theorem stands_spliceOut {pipeReadFd : Int} {count : Nat} :
    Preserves (Stands l r w0 s) (spliceOut ans pipeReadFd fd count) := by
  refine Preserves.stands did_spliceOut (Preserves.bind keeps_getKernel (fun k => ?_))
  cases k.openId? pipeReadFd with
  | none => exact Preserves.pure
  | some pipeId =>
    cases k.openId? fd with
    | none => exact Preserves.pure
    | some id =>
      refine Preserves.bind keeps_sendSome (fun _ => ?_)
      exact Preserves.bind (keeps_modifyKernel (fun _ => rfl)) (fun _ => Preserves.pure)

theorem stands_sslRead {count : Nat} : Preserves (Stands l r w0 s) (sslRead ans fd count) := by
  refine Preserves.stands did_sslRead (Preserves.bind keeps_getKernel (fun k => ?_))
  split
  · exact Preserves.bind (keeps_modifyKernel (fun _ => rfl)) (fun _ => Preserves.pure)
  · exact Preserves.pure

theorem stands_sslWrite {bytes : Bytes} : Preserves (Stands l r w0 s) (sslWrite ans fd bytes) := by
  refine Preserves.stands did_sslWrite (Preserves.bind keeps_getKernel (fun k => ?_))
  cases k.openId? fd with
  | none => exact Preserves.pure
  | some id => exact Preserves.bind keeps_sendSome (fun _ => Preserves.pure)

theorem stands_plainReadFd0 {count : Nat} :
    Preserves (Stands l r w0 s) (Executor.plainReadFd0 ans l r count) := by
  refine Preserves.bind stands_getData (fun data => ?_)
  exact Preserves.bind stands_read (fun _ => Preserves.pure)

theorem stands_plainWriteFd0 {bytes : Bytes} :
    Preserves (Stands l r w0 s) (Executor.plainWriteFd0 ans l r bytes) := by
  refine Preserves.bind stands_getData (fun data => ?_)
  exact Preserves.bind stands_write (fun _ => Preserves.pure)

theorem keeps_newDescriptor {accepted : Bool} :
    Preserves (Stanced l r s) (newDescriptor fd accepted) := by
  refine Preserves.bind keeps_getKernel (fun k => ?_)
  refine Preserves.ite Preserves.pure ?_
  refine Preserves.ite ?_ Preserves.fail
  exact Preserves.bind (keeps_modifyKernel (fun _ => rfl)) (fun _ => Preserves.pure)

/-- Bytes are moved by the kernel alone. -/
theorem loops_sendSome {loops : Nat → PollLoop} {id : Nat} {bytes : Bytes} {count : Int} :
    Preserves (fun w : World => w.loops = loops) (sendSome id bytes count) :=
  fun _ h => ensures_modifyKernel.mpr h

theorem loops_receive {loops : Nat → PollLoop} {id count : Nat} {answer : ReadAnswer} :
    Preserves (fun w : World => w.loops = loops) (receive id count answer) := by
  unfold receive
  cases answer.bytes with
  | none => exact Preserves.pure
  | some bytes =>
    exact Preserves.bind (fun _ h => ensures_modifyKernel.mpr h) (fun _ => Preserves.pure)

theorem read_data {count : Nat} : Ensures (read ans fd count) w (fun _ w' =>
    w'.data = w.data) := by
  have hloops : Preserves (fun w' : World => w'.loops = w.loops) (read ans fd count) := by
    refine Preserves.bind (fun _ h => ensures_getKernel.mpr h) (fun k => ?_)
    cases k.openId? fd with
    | none => exact Preserves.pure
    | some id => exact loops_receive
  refine (hloops w rfl).mono (fun _ w' h => ?_)
  unfold World.data
  rw [h]

/-- A read fails, or takes what came up to the count. -/
theorem read_cases {count : Nat} : Ensures (read ans fd count) w (fun received _ =>
    received.result = -1 ∨ ∃ came, ans.read.bytes = some came ∧
      received.bytes = came.take count ∧ received.result = received.bytes.length) := by
  simp only [read, ensures_bind, ensures_getKernel]
  cases w.kernel.openId? fd with
  | none => exact ensures_pure.mpr (Or.inl rfl)
  | some id =>
    dsimp only
    unfold receive
    cases ans.read.bytes with
    | none => exact ensures_pure.mpr (Or.inl rfl)
    | some came =>
      simp only [ensures_bind, ensures_modifyKernel, ensures_pure]
      exact Or.inr ⟨came, rfl, rfl, trivial⟩

theorem sslWrite_data {bytes : Bytes} : Ensures (sslWrite ans fd bytes) w (fun _ w' =>
    w'.data = w.data) := by
  have hloops : Preserves (fun w' : World => w'.loops = w.loops) (sslWrite ans fd bytes) := by
    refine Preserves.bind (fun _ h => ensures_getKernel.mpr h) (fun k => ?_)
    cases k.openId? fd with
    | none => exact Preserves.pure
    | some id => exact Preserves.bind loops_sendSome (fun _ => Preserves.pure)
  refine (hloops w rfl).mono (fun _ w' h => ?_)
  unfold World.data
  rw [h]

theorem spliceIn_data {pipeWriteFd : Int} {count : Nat} :
    Ensures (spliceIn ans fd pipeWriteFd count) w (fun _ w' => w'.data = w.data) := by
  have hloops : Preserves (fun w' : World => w'.loops = w.loops)
      (spliceIn ans fd pipeWriteFd count) := by
    refine Preserves.bind (fun _ h => ensures_getKernel.mpr h) (fun k => ?_)
    cases k.openId? fd with
    | none => exact Preserves.pure
    | some id =>
      cases k.openId? pipeWriteFd with
      | none => exact Preserves.pure
      | some pipeId =>
        refine Preserves.bind loops_receive (fun received => ?_)
        exact Preserves.bind (fun _ h => ensures_modifyKernel.mpr h) (fun _ => Preserves.pure)
  refine (hloops w rfl).mono (fun _ w' h => ?_)
  unfold World.data
  rw [h]

/-! ## The epoll set -/

theorem watch_exec (s : Stance) (place : Place) (mask : Option Nat) :
    (s.watch place mask).exec = s.exec := by
  cases place <;> rfl

theorem watch_state (s : Stance) (place : Place) (mask : Option Nat) :
    (s.watch place mask).state = s.state := by
  cases place <;> rfl

/-- What is left of a stance when one mask is replaced. -/
theorem stance_watch {mask : Option Nat} (hplace : place = .fd0 ∨ place = .fd1)
    (hexec : (w'.data l r).pExecutor = (w.data l r).pExecutor)
    (hstate : (w'.data l r).state = (w.data l r).state)
    (hmask : ∀ place', w'.mask l r place' =
      if At l r place l r place' then mask else w.mask l r place') :
    w'.stance l r = (w.stance l r).watch place mask := by
  unfold World.stance
  rw [hexec, hstate, hmask .fd0, hmask .fd1]
  rcases hplace with rfl | rfl <;> simp [At, Stance.watch]

theorem setPollDataOf_state (d : ExecutorData) (fd : Int) (p : Nat) :
    (d.setPollDataOf fd p).state = d.state := by
  unfold ExecutorData.setPollDataOf
  split
  · rfl
  · split <;> rfl

theorem dropPollData_state (d : ExecutorData) (p : Nat) : (d.dropPollData p).state = d.state := by
  unfold ExecutorData.dropPollData
  split
  · rfl
  · split <;> rfl

theorem refused_stance (hr : Refused w l r w') : w'.stance l r = w.stance l r := by
  obtain ⟨p, pollDatas, _, rfl⟩ := hr
  have hmask : ∀ place, (w.rewatch l r (pollDatas.free p) (w.data l r) (w.loops l).numOfPollFds
      w.kernel).mask l r place = w.mask l r place := by
    intro place
    refine mask_congr ?_ (fun _ => ?_)
    · rw [World.rewatch_pollDataAt, if_pos ⟨rfl, rfl⟩]
      rfl
    · rw [World.rewatch_fdAt, if_pos ⟨rfl, rfl⟩]
      rfl
  refine stance_congr ?_ ?_ (hmask .fd0) (hmask .fd1)
  · rw [World.rewatch_data_self]
  · rw [World.rewatch_data_self]

/-- A call on the epoll set, by its result. -/
def MaskSet (l r : Nat) (w0 : World) (s : Stance) (place : Place) (mask : Option Nat)
    (result : Int) (w' : World) : Prop :=
  (result = 0 ∧ Stands l r w0 (s.watch place mask) w') ∨ (result = -1 ∧ Stands l r w0 s w')

theorem stands_addPollFd (h : Stands l r w0 s w) (hplace : place = .fd0 ∨ place = .fd1)
    (hat : w.fdAt l r place = fd) : Ensures (addPollFd ans l r fd events) w (fun result w' =>
      MaskSet l r w0 s place (some (watched events)) result w') := by
  refine (addPollFd_spec.and (did_addPollFd w h.did)).mono (fun result w' hboth => ?_)
  obtain ⟨hadd, hdid⟩ := hboth
  rcases hadd with ⟨hresult, p, ha⟩ | ⟨hresult, rfl | hr⟩
  · refine Or.inl ⟨hresult, by rw [watch_exec]; exact hdid, ?_⟩
    have hmask := ha.mask h.did.booked hat l r
    rw [← h.stance]
    refine stance_watch hplace (hdid.exec.trans h.exec.symm) ?_ hmask
    obtain ⟨_, _, _, _, _, rfl⟩ := ha
    rw [World.rewatch_data_self, setPollDataOf_state]
  · exact Or.inr ⟨hresult, h⟩
  · exact Or.inr ⟨hresult, hdid, (refused_stance hr).trans h.stance⟩

theorem stands_editPollFd (h : Stands l r w0 s w) (hplace : place = .fd0 ∨ place = .fd1)
    (hat : w.fdAt l r place = fd) : Ensures (editPollFd ans l r fd events) w (fun result w' =>
      MaskSet l r w0 s place (some (watched events)) result w') := by
  refine (editPollFd_spec.and (did_editPollFd w h.did)).mono (fun result w' hboth => ?_)
  obtain ⟨hedit, hdid⟩ := hboth
  rcases hedit with ⟨hresult, p, k, hp, hk, rfl⟩ | ⟨hresult, rfl⟩
  · refine Or.inl ⟨hresult, by rw [watch_exec]; exact hdid, ?_⟩
    rw [← h.stance]
    exact stance_watch hplace rfl rfl (edited_mask h.did.booked hp hk hat l r)
  · exact Or.inr ⟨hresult, h⟩

/-- The calls on the epoll set leave the descriptors at their places. -/
theorem addPollFd_fdAt : Ensures (addPollFd ans l r fd events) w (fun _ w' =>
    ∀ place, w'.fdAt l r place = w.fdAt l r place) := by
  refine addPollFd_spec.mono (fun result w' hadd => ?_)
  rcases hadd with ⟨_, p, ha⟩ | ⟨_, rfl | ⟨p, pollDatas, _, rfl⟩⟩
  · obtain ⟨_, _, _, _, hd⟩ := ha.place
    obtain ⟨_, _, _, _, _, rfl⟩ := ha
    intro place
    rw [World.rewatch_fdAt, if_pos ⟨rfl, rfl⟩]
    exact (hd place).1
  · exact fun _ => rfl
  · intro place
    rw [World.rewatch_fdAt, if_pos ⟨rfl, rfl⟩]
    rfl

theorem stands_removePollFd (h : Stands l r w0 s w) (hplace : place = .fd0 ∨ place = .fd1)
    (hat : w.fdAt l r place = fd) : Ensures (removePollFd l r fd) w (fun result w' =>
      MaskSet l r w0 s place none result w') := by
  refine (removePollFd_spec.and (did_removePollFd w h.did)).mono (fun result w' hboth => ?_)
  obtain ⟨hremove, hdid⟩ := hboth
  rcases hremove with ⟨hresult, p, hr⟩ | ⟨hresult, rfl, _⟩
  · refine Or.inl ⟨hresult, by rw [watch_exec]; exact hdid, ?_⟩
    have hmask := hr.mask h.did.booked hat l r
    rw [← h.stance]
    refine stance_watch hplace (hdid.exec.trans h.exec.symm) ?_ hmask
    obtain ⟨_, _, _, rfl⟩ := hr
    rw [World.rewatch_data_self, dropPollData_state]
  · exact Or.inr ⟨hresult, h⟩

end

end EpollHttp
