import EpollHttp.PollLoop.Custody

/-
What the thread of a loop may make of an executor without calling its `process`.

Everything is kept, or the executor is removed, or a new one is set up on cleared data, which has
moved no byte yet.
-/

namespace EpollHttp

open Program

/-! ## New executors -/

namespace ExecutorData

/-- Nothing is left of an earlier use. -/
def Idle (d : ExecutorData) : Prop := d.cleared = d

/-- The data but for what is watched. -/
def unwatched (d : ExecutorData) : ExecutorData := { d with pollData0 := none, pollData1 := none }

/-- What `up` assigns for a client before the descriptor is watched. -/
def prepared (d : ExecutorData) (connectionType : Nat) (memory : Bytes) : ExecutorData :=
  { d with
    removeOnTimeout := true
    connectionType := connectionType
    buffer := d.buffer.init memory
    request := d.request.reset }

/-- Nothing was counted, moved or found so far. -/
structure Begins (d : ExecutorData) (e : Executor) : Prop where
  exec : d.pExecutor = some e
  retries : d.retryCounter = 0
  times : d.lastProcessTime = d.createTime
  proxy : d.proxy = none
  places : ∀ place, place ≠ .fd0 → d.fdAt place = -1
  bytesInPipe : d.bytesInPipe = 0
  bytesToSend : d.bytesToSend = 0
  filePosition : d.filePosition = 0

/-- A connection of the type is ready to read a request. -/
structure Admits (d : ExecutorData) (connectionType : Nat) (ssl : Bool) : Prop where
  connectionType : d.connectionType = connectionType
  ssl : d.ssl = ssl
  removeOnTimeout : d.removeOnTimeout = true
  request : ∃ request : HttpRequest, d.request = request.reset
  state : d.state = .readRequest ∨ (d.ssl = true ∧ d.state = .sslHandshake)
  buffer : ∃ (buffer : TransferRingBuffer) (memory : Bytes),
    memory.length = REQUEST_BUFFER_SIZE ∧ d.buffer = buffer.init memory

end ExecutorData

/-- An executor was set up. -/
inductive Novel (l r : Nat) (w : World) : Prop
  | request (hbegins : (w.data l r).Begins .request)
      (hadmits : (w.data l r).Admits ConnectionType.clear false)
      (hblank : ∀ id, w.HoldsAt l r .fd0 id → w.kernel.Blank id)
  | sslRequest (hbegins : (w.data l r).Begins .sslRequest)
      (hadmits : (w.data l r).Admits ConnectionType.ssl true)
      (hblank : ∀ id, w.HoldsAt l r .fd0 id → w.kernel.Blank id)
  | service (e : Executor) (he : e = .newFd ∨ e = .server ∨ e = .sslServer)
      (hbegins : (w.data l r).Begins e) (hstays : (w.data l r).removeOnTimeout = false)

/-! ## Changes -/

/-- What a step makes of an executor that `process` was not called for. -/
inductive Change (l r : Nat) (w w' : World) : Prop
  | kept (h : Retained l r w w')
  /-- The executor was removed. -/
  | gone (h : (w'.data l r).Idle)
  | novel (huse : w'.InUse l r) (h : Novel l r w')

structure Changes (w w' : World) : Prop where
  each : ∀ l r, Change l r w w'
  blank : w.QueueBlank → w'.QueueBlank
  calm : w.kernel.Calm w'.kernel

/-- The same of all but one. -/
structure Apart (l r : Nat) (w w' : World) : Prop where
  each : ∀ l' r', ¬ (l' = l ∧ r' = r) → Change l' r' w w'
  blank : w.QueueBlank → w'.QueueBlank

section
variable {a : Access} {ans : Answers} {w w0 w1 w' w'' : World} {l r l' r' : Nat} {e : Executor}
variable {fd : Int} {t : Terms} {events : Nat}

theorem Novel.kept (h : Novel l r w) (hk : Retained l r w w') : Novel l r w' := by
  have hdata := hk.undisturbed.data
  have hclient : (∀ id, w.HoldsAt l r .fd0 id → w.kernel.Blank id) →
      ∀ id, w'.HoldsAt l r .fd0 id → w'.kernel.Blank id := by
    intro hblank id hid
    have hbefore := (hk.holds .fd0 id).mp hid
    exact (hk.objects .fd0 id hbefore).blank (hblank id hbefore)
  cases h with
  | request hbegins hadmits hblank =>
    refine .request ?_ ?_ (hclient hblank)
    · rw [hdata]
      exact hbegins
    · rw [hdata]
      exact hadmits
  | sslRequest hbegins hadmits hblank =>
    refine .sslRequest ?_ ?_ (hclient hblank)
    · rw [hdata]
      exact hbegins
    · rw [hdata]
      exact hadmits
  | service e he hbegins hstays =>
    refine .service e he ?_ ?_
    · rw [hdata]
      exact hbegins
    · rw [hdata]
      exact hstays

theorem Change.trans (h : Change l r w w') (h' : Change l r w' w'') : Change l r w w'' := by
  cases h' with
  | gone hidle => exact .gone hidle
  | novel huse hnovel => exact .novel huse hnovel
  | kept hkept =>
    cases h with
    | kept hbefore => exact .kept (hbefore.trans hkept)
    | novel huse hnovel => exact .novel (hkept.inUse.mpr huse) (hnovel.kept hkept)
    | gone hidle =>
      refine .gone ?_
      rw [hkept.undisturbed.data]
      exact hidle

theorem Changes.trans (h : Changes w w') (h' : Changes w' w'') : Changes w w'' :=
  ⟨fun l r => (h.each l r).trans (h'.each l r), fun hblank => h'.blank (h.blank hblank),
    h.calm.trans h'.calm⟩

theorem Apart.trans (h : Apart l r w w') (h' : Apart l r w' w'') : Apart l r w w'' :=
  ⟨fun l' r' hne => (h.each l' r' hne).trans (h'.each l' r' hne),
    fun hblank => h'.blank (h.blank hblank)⟩

theorem Apart.changes (h : Apart l r w w') (hself : Change l r w w')
    (hcalm : w.kernel.Calm w'.kernel) : Changes w w' := by
  refine ⟨fun l' r' => ?_, h.blank, hcalm⟩
  by_cases hsame : l' = l ∧ r' = r
  · rw [hsame.1, hsame.2]
    exact hself
  · exact h.each l' r' hsame

theorem Changes.apart (h : Changes w w') (l r : Nat) : Apart l r w w' :=
  ⟨fun l' r' _ => h.each l' r', h.blank⟩

theorem Changes.refl (hb : Booked w) : Changes w w :=
  ⟨fun _ _ => .kept (.refl hb), fun h => h, .refl w.kernel⟩

/-- Everything that is not in use was cleared. -/
def World.Tidy (w : World) : Prop := ∀ l r, ¬ w.InUse l r → (w.data l r).Idle

theorem Change.idle (h : Change l r w w') (hidle : ¬ w.InUse l r → (w.data l r).Idle)
    (huse : ¬ w'.InUse l r) : (w'.data l r).Idle := by
  cases h with
  | kept hkept =>
    rw [hkept.undisturbed.data]
    exact hidle (fun hin => huse (hkept.inUse.mpr hin))
  | gone hgone => exact hgone
  | novel hin _ => exact absurd hin huse

theorem Changes.tidy (h : Changes w w') (htidy : w.Tidy) : w'.Tidy :=
  fun l r huse => (h.each l r).idle (htidy l r) huse

/-! ## What changes the executors -/

theorem Handled.apart (H : Handled a l r w t w') (hl : Ledger none w) : Apart l r w w' :=
  ⟨fun _ _ hne => .kept (H.kept hl.booked hl.kernel hne),
    H.queueBlank hl.booked hl.kernel hl.queue⟩

theorem TakenBack.idle (ht : TakenBack l r w w') : (w'.data l r).Idle := by
  rw [ht.data_self]
  exact cleared_cleared _

theorem TakenBack.changes (ht : TakenBack l r w w') (hb : Booked w)
    (hk : w.kernel.OnlyClosed w'.kernel) : Changes w w' := by
  have hothers : Apart l r w w' := by
    refine ⟨fun l' r' hne => .kept (.ofClosed hb (ht.undisturbed hb hne) ?_ hk),
      fun hblank => hblank.closed ht.frame.newFdsQueue hk⟩
    rw [ht.inUse hb]
    exact ⟨fun h => h.1, fun h => ⟨h, hne⟩⟩
  exact hothers.changes (.gone ht.idle) hk.calm

theorem removeExecutorData_changes (hb : Booked w) (huse : w.InUse l r) :
    Ensures (removeExecutorData l r) w (fun _ w' =>
      TakenBack l r w w' ∧ Changes w w' ∧ w.kernel.OnlyClosed w'.kernel) :=
  ((removeExecutorData_spec hb huse).and (onlyClosed_removeExecutorData w (.refl w.kernel))).mono
    (fun _ _ h => ⟨h.1, h.1.changes hb h.2, h.2⟩)

theorem HandedOut.apart (hh : HandedOut w l r w') (hb : Booked w) : Apart l r w w' := by
  have hb' := hb.handedOut hh
  refine ⟨fun l' r' hne => ?_, fun hblank => ?_⟩
  · rcases hh.data hb l' r' with hdata | ⟨_, hdata⟩
    · refine .kept (.ofClosed hb (.ofBooks hb hb' hdata (fun _ _ => ?_)) ?_ ?_)
      · rw [hh.kernel]
        exact ⟨fun _ => rfl, rfl⟩
      · rw [hh.inUse hb]
        exact ⟨fun h => h.resolve_right hne, Or.inl⟩
      · rw [hh.kernel]
        exact .refl w.kernel
    · refine .gone ?_
      rw [hdata]
      rfl
  · refine hblank.closed hh.frame.newFdsQueue ?_
    rw [hh.kernel]
    exact .refl w.kernel

/-- The data of another executor is assigned. -/
theorem setData_apart {d : ExecutorData} (hb : Booked w) (hb' : Booked (w.setData l r d)) :
    Apart l r w (w.setData l r d) := by
  refine ⟨fun l' r' hne => .kept (.ofClosed hb (.ofBooks hb hb' (World.setData_other _ _ hne d)
    (fun _ _ => ⟨fun _ => rfl, rfl⟩)) ?_ (.refl w.kernel)), fun hblank => ?_⟩
  · exact inUse_setData (fun l => (hb.loops l).execs) l' r'
  · exact hblank.closed (SameFrame.setData w d).newFdsQueue (.refl w.kernel)

theorem Adopted.kernel (ha : Adopted w l r fd e w') : w'.kernel = w.kernel := by
  obtain ⟨w1, millis, hh, rfl⟩ := ha
  exact hh.kernel

theorem Adopted.apart (ha : Adopted w l r fd e w') (hb : Booked w) (hb' : Booked w') :
    Apart l r w w' := by
  obtain ⟨w1, millis, hh, rfl⟩ := ha
  exact (hh.apart hb).trans (setData_apart (hb.handedOut hh) hb')

/-- Fields of a loop are assigned that are not for the executors. -/
theorem setLoop_kept {loop : PollLoop} (hb : Booked w)
    (hexecs : loop.execDatas = (w.loops l).execDatas)
    (hpolls : loop.pollDatas = (w.loops l).pollDatas) (l' r' : Nat) :
    Retained l' r' w (w.setLoop l loop) := by
  have hdata : (w.setLoop l loop).data l' r' = w.data l' r' :=
    World.setLoop_data _ _ (fun _ => by rw [hexecs]) l' r'
  refine .ofClosed hb ⟨hdata, fun place p hp => ?_, fun _ _ _ => rfl, fun _ _ => rfl⟩ ?_
    (.refl w.kernel)
  · have hstorage := setLoop_field (w := w) (l := l) PollLoop.pollDatas hpolls l'
    obtain ⟨hused, _⟩ := (hb.loops l').slot r' place p hp
    refine ⟨?_, ?_⟩
    · unfold World.usedPolls
      rw [hstorage]
      exact hused
    · unfold World.pollData
      rw [hstorage]
  · unfold World.InUse
    rw [setLoop_field (w := w) (l := l) PollLoop.execDatas hexecs l']

theorem setLoop_changes {loop : PollLoop} (hb : Booked w)
    (hexecs : loop.execDatas = (w.loops l).execDatas)
    (hpolls : loop.pollDatas = (w.loops l).pollDatas)
    (hqueue : ∀ d ∈ loop.newFdsQueue, d ∈ (w.loops l).newFdsQueue ∨
      ∀ id, w.kernel.openId? d.fd = some id → w.kernel.Blank id) :
    Changes w (w.setLoop l loop) := by
  refine ⟨fun l' r' => .kept (setLoop_kept hb hexecs hpolls l' r'), fun hblank l' d hd id hid => ?_,
    .refl w.kernel⟩
  by_cases heq : l' = l
  · subst heq
    rw [World.setLoop_self] at hd
    rcases hqueue d hd with hold | hnew
    · exact hblank l' d hold id hid
    · exact hnew id hid
  · rw [World.setLoop_other _ _ heq] at hd
    exact hblank l' d hd id hid

theorem setPhase_kept {phase : Phase} (hb : Booked w) :
    Ensures (setPhase l phase) w (fun _ w' =>
      Changes w w' ∧ (∀ l' r', Retained l' r' w w') ∧ w'.kernel = w.kernel) :=
  ensures_modifyLoop.mpr ⟨setLoop_changes hb rfl rfl (fun _ hd => Or.inl hd),
    setLoop_kept hb rfl rfl, rfl⟩

theorem setPhase_changes {phase : Phase} (hb : Booked w) :
    Ensures (setPhase l phase) w (fun _ w' => Changes w w') :=
  (setPhase_kept hb).mono (fun _ _ h => h.1)

/-- A descriptor comes up that nobody holds yet. -/
theorem opened_changes (hl : Ledger none w) (havail : w.kernel.Available fd) (accepted : Bool) :
    Changes w (w.setKernel (w.kernel.opened fd accepted)) := by
  have hne : ∀ fd', w.kernel.openId? fd' ≠ none → fd' ≠ fd := by
    rintro fd' hopen rfl
    exact hopen havail.2
  refine ⟨fun l' r' => .kept ⟨⟨rfl, fun place p hp => ?_, fun _ _ _ => rfl, fun place hpos => ?_⟩,
    Iff.rfl, fun place id => ?_, fun place id hid => ?_, fun id hdead => ?_⟩,
    fun hblank l' d hd id hid => ?_, Kernel.opened_calm fd accepted⟩
  · exact ⟨((hl.booked.loops l').slot r' place p hp).1, rfl⟩
  · exact Kernel.openId?_opened_of_ne (hne _ (hl.booked.held l' r' place hpos)) accepted
  · have hother : w.fdAt l' r' place ≠ fd :=
      hl.booked.unheld_of_closed havail.1 havail.2 l' r' place
    exact ⟨fun hid => (Kernel.openId?_opened_of_ne hother accepted).symm.trans hid,
      fun hid => (Kernel.openId?_opened_of_ne hother accepted).trans hid⟩
  · exact Kernel.opened_object fd accepted (Kernel.openId?_below hid)
  · exact ⟨Kernel.opened_dead fd accepted hdead, Kernel.opened_object fd accepted hdead.1⟩
  · obtain ⟨id0, hloose⟩ := hl.queue.loose l' d hd
    have hsame : (w.kernel.opened fd accepted).openId? d.fd = some id0 := by
      rw [Kernel.openId?_opened_of_ne (hne d.fd ?_) accepted]
      · exact hloose.1
      · rw [hloose.1]
        exact Option.some_ne_none id0
    obtain rfl : id0 = id := Option.some.inj (hsame.symm.trans hid)
    exact (Kernel.opened_object fd accepted (Kernel.openId?_below hloose.1)).blank
      (hblank l' d hd id0 hloose.1)

/-- A descriptor that nobody holds is closed. -/
theorem closed_changes (hb : Booked w) (hun : w.Unheld fd) :
    Changes w (w.setKernel (w.kernel.close fd)) := by
  have hk := Kernel.OnlyClosed.close w.kernel fd
  refine ⟨fun l' r' => .kept (.ofClosed hb ⟨rfl, fun place p hp => ?_, fun place hpos l'' => ?_,
    fun place hpos => ?_⟩ Iff.rfl hk), fun hblank => hblank.closed (fun _ => rfl) hk, hk.calm⟩
  · exact ⟨((hb.loops l').slot r' place p hp).1, rfl⟩
  · exact Kernel.epoll_close_of_ne (hun l' r' place)
  · exact Kernel.openId?_close_of_ne (hun l' r' place)

theorem Destroyed.changes (hd : Destroyed w l w') (hl : Ledger none w) (htidy : w.Tidy)
    (hk : w.kernel.OnlyClosed w'.kernel) : Changes w w' := by
  have hunheld : 0 < (w.loops l).epollFd → w.Unheld (w.loops l).epollFd := by
    intro hpos
    obtain ⟨id, hloose⟩ := hl.looseEpoll hpos
    exact hloose.2
  refine ⟨fun l' r' => ?_, fun hblank => hblank.closed (fun l' => ?_) hk, hk.calm⟩
  · by_cases heq : l' = l
    · subst heq
      refine .gone ?_
      rcases hd.data r' with hcleared | ⟨hidle, hdata⟩
      · rw [hcleared]
        exact cleared_cleared _
      · rw [hdata]
        exact htidy l' r' hidle
    · have hb := hl.booked
      refine .kept (.ofClosed hb (.ofBooks hb (hd.booked hb hunheld) (hd.otherData heq r')
        (fun place hpos => ⟨fun l'' => ?_, hd.openId? (Destroyed.spares hb hunheld heq r' place)⟩))
        ?_ hk)
      · rw [hd.epoll hb hunheld]
        split
        · rename_i hsame
          -- The destroyed loop does not watch what another one holds.
          cases hreg : w.kernel.epoll l'' (w.fdAt l' r' place) with
          | none => rfl
          | some reg =>
            obtain ⟨r'', place', _, hat⟩ := (hb.loops l'').entry _ reg hreg
            have hboth := (hb.apart l' r' place l'' r'' place' hpos hat.symm).1
            exact absurd (hboth.trans hsame) heq
        · rfl
      · unfold World.InUse
        rw [hd.others l' heq]
  · by_cases heq : l' = l
    · obtain ⟨_, hloop⟩ := hd.loop
      rw [heq, hloop]
    · rw [hd.others l' heq]

theorem destroy_changes (hl : Ledger none w) (htidy : w.Tidy) :
    Ensures (destroy l) w (fun _ w' => Changes w w') :=
  ((destroy_spec hl.booked hl.kernel hl.looseEpoll).and (onlyClosed_destroy w (.refl w.kernel))).mono
    (fun _ _ h => h.1.changes hl htidy h.2)

/-! ## Setting up -/

theorem ExecutorData.unwatched_setPollDataOf (d : ExecutorData) (fd : Int) (p : Nat) :
    (d.setPollDataOf fd p).unwatched = d.unwatched := by
  unfold ExecutorData.setPollDataOf
  split
  · rfl
  · split <;> rfl

theorem addPollFd_unwatched : Ensures (addPollFd ans l r fd events) w (fun _ w' =>
    (w'.data l r).unwatched = (w.data l r).unwatched ∧
      Kernel.SameStreams w.kernel w'.kernel) := by
  refine addPollFd_spec.mono (fun res w' h => ?_)
  rcases h with ⟨_, p, _, pollDatas, k, _, hk, rfl⟩ | ⟨_, rfl | ⟨p, pollDatas, _, rfl⟩⟩
  · rw [World.rewatch_data_self]
    exact ⟨ExecutorData.unwatched_setPollDataOf _ fd p, Kernel.SameStreams.ctlAdd hk⟩
  · exact ⟨rfl, .refl _⟩
  · rw [World.rewatch_data_self]
    exact ⟨rfl, .refl _⟩

namespace ExecutorData

variable {d d' : ExecutorData} {connectionType : Nat} {ssl : Bool}

theorem unwatched_fdAt (d : ExecutorData) (place : Place) :
    d.unwatched.fdAt place = d.fdAt place := by
  cases place <;> rfl

theorem unwatched_begins : d.unwatched.Begins e ↔ d.Begins e := by
  constructor
  · intro h
    refine ⟨h.exec, h.retries, h.times, h.proxy, fun place hne => ?_, h.bytesInPipe, h.bytesToSend,
      h.filePosition⟩
    rw [← unwatched_fdAt]
    exact h.places place hne
  · intro h
    refine ⟨h.exec, h.retries, h.times, h.proxy, fun place hne => ?_, h.bytesInPipe, h.bytesToSend,
      h.filePosition⟩
    rw [unwatched_fdAt]
    exact h.places place hne

theorem unwatched_admits : d.unwatched.Admits connectionType ssl ↔ d.Admits connectionType ssl :=
  ⟨fun h => ⟨h.connectionType, h.ssl, h.removeOnTimeout, h.request, h.state, h.buffer⟩,
    fun h => ⟨h.connectionType, h.ssl, h.removeOnTimeout, h.request, h.state, h.buffer⟩⟩

theorem Begins.congr (h : d.Begins e) (heq : d'.unwatched = d.unwatched) : d'.Begins e := by
  rw [← unwatched_begins, heq, unwatched_begins]
  exact h

theorem Admits.congr (h : d.Admits connectionType ssl) (heq : d'.unwatched = d.unwatched) :
    d'.Admits connectionType ssl := by
  rw [← unwatched_admits, heq, unwatched_admits]
  exact h

/-- Cleared data that holds nothing begins with the class it is given. -/
theorem Idle.begins (h : d.Idle) (hfd : ∀ place, d.fdAt place = -1) (millis : Int) (fd : Int) :
    ({ d with createTime := millis, lastProcessTime := millis, pExecutor := some e,
              fd0 := fd } : ExecutorData).Begins e := by
  refine ⟨rfl, ?_, rfl, ?_, fun place hne => ?_, ?_, ?_, ?_⟩
  · show d.retryCounter = 0
    rw [← h]
    rfl
  · show d.proxy = none
    rw [← h]
    rfl
  · rw [← hfd place]
    cases place with
    | fd0 => exact absurd rfl hne
    | _ => rfl
  · show d.bytesInPipe = 0
    rw [← h]
    rfl
  · show d.bytesToSend = 0
    rw [← h]
    rfl
  · show d.filePosition = 0
    rw [← h]
    rfl

/-- What is prepared for a client admits it once the state is set. -/
theorem Begins.admits {state : State} {memory : Bytes} (h : d.Begins e)
    (hmemory : memory.length = REQUEST_BUFFER_SIZE)
    (hstate : state = .readRequest ∨ (ssl = true ∧ state = .sslHandshake))
    (heq : d'.unwatched = ({ d.prepared connectionType memory with
      ssl := ssl, state := state } : ExecutorData).unwatched) :
    d'.Begins e ∧ d'.Admits connectionType ssl ∧ d'.fd0 = d.fd0 := by
  have hfd := congrArg fd0 heq
  refine ⟨Begins.congr ?_ heq, Admits.congr ?_ heq, hfd⟩
  · refine ⟨h.exec, h.retries, h.times, h.proxy, fun place hne => ?_, h.bytesInPipe,
      h.bytesToSend, h.filePosition⟩
    rw [← h.places place hne]
    cases place <;> rfl
  · exact ⟨rfl, rfl, rfl, ⟨d.request, rfl⟩, hstate, ⟨d.buffer, memory, hmemory, rfl⟩⟩

/-- What is assigned to an executor that listens. -/
theorem Begins.listens (h : d.Begins e) (fd : Int) :
    ({ d with removeOnTimeout := false, state := .ok, fd0 := fd } : ExecutorData).Begins e := by
  refine ⟨h.exec, h.retries, h.times, h.proxy, fun place hne => ?_, h.bytesInPipe,
    h.bytesToSend, h.filePosition⟩
  rw [← h.places place hne]
  cases place with
  | fd0 => exact absurd rfl hne
  | _ => rfl

theorem unwatched_state {state : State} (h : d'.unwatched = d.unwatched) :
    ({ d' with state := state } : ExecutorData).unwatched =
      ({ d with state := state } : ExecutorData).unwatched :=
  congrArg (fun d : ExecutorData => { d with state := state }) h

end ExecutorData

theorem RequestExecutor.prepare_spec {connectionType : Nat} :
    Ensures (prepare l r connectionType) w (fun _ w' => ∃ memory : Bytes,
      memory.length = ExecutorData.REQUEST_BUFFER_SIZE ∧
        w' = w.setData l r ((w.data l r).prepared connectionType memory)) := by
  unfold prepare
  rw [ensures_modifyData]
  have hlength : (List.replicate ExecutorData.REQUEST_BUFFER_SIZE (0 : UInt8)).length =
      ExecutorData.REQUEST_BUFFER_SIZE := List.length_replicate
  generalize List.replicate ExecutorData.REQUEST_BUFFER_SIZE (0 : UInt8) = memory at hlength
  exact ⟨memory, hlength, rfl⟩

/-- `up` of an executor that reads a request. -/
theorem RequestExecutor.up_admits (h : (w.data l r).Begins e) (hssl : (w.data l r).ssl = false) :
    Ensures (RequestExecutor.up ans l r) w (fun result w' => result = 0 →
      ((w'.data l r).Begins e ∧ (w'.data l r).Admits ConnectionType.clear false ∧
        (w'.data l r).fd0 = (w.data l r).fd0) ∧ Kernel.SameStreams w.kernel w'.kernel) := by
  rw [RequestExecutor.up, ensures_bind]
  refine prepare_spec.mono (fun _ w0 h0 => ?_)
  obtain ⟨memory, hmemory, rfl⟩ := h0
  rw [ensures_bind, ensures_getData, ensures_bind]
  refine addPollFd_unwatched.mono (fun added w1 h1 => ?_)
  obtain ⟨hdata, hkernel⟩ := h1
  rw [World.setData_self] at hdata
  simp only [ensures_ite, ensures_pure, ensures_bind, ensures_setState]
  refine ⟨fun _ hneg => absurd hneg (by decide), fun _ _ => ⟨?_, hkernel⟩⟩
  rw [World.setData_self]
  refine h.admits hmemory (Or.inl rfl) ((ExecutorData.unwatched_state hdata).trans ?_)
  rw [← hssl]
  rfl

/-- The handshake is not over, or the client is watched. -/
theorem SslRequestExecutor.up_admits (h : (w.data l r).Begins e) :
    Ensures (SslRequestExecutor.up ans l r) w (fun result w' => result = 0 →
      ((w'.data l r).Begins e ∧ (w'.data l r).Admits ConnectionType.ssl true ∧
        (w'.data l r).fd0 = (w.data l r).fd0) ∧ Kernel.SameStreams w.kernel w'.kernel) := by
  rw [SslRequestExecutor.up, ensures_bind]
  refine RequestExecutor.prepare_spec.mono (fun _ w0 h0 => ?_)
  obtain ⟨memory, hmemory, rfl⟩ := h0
  simp only [sslInit, ensures_bind, ensures_ite, ensures_modifyData, ensures_pure,
    World.setData_self, World.setData_setData]
  refine ⟨fun _ => ⟨fun hne => absurd rfl hne, fun _ => ?_⟩,
    fun _ => ⟨fun _ hneg => absurd hneg (by decide), fun heq => absurd (by decide) heq⟩⟩
  generalize hw1 : w.setData l r { (w.data l r).prepared ConnectionType.ssl memory with
    ssl := true } = w1
  have hdata1 : w1.data l r = { (w.data l r).prepared ConnectionType.ssl memory with
      ssl := true } := by
    rw [← hw1, World.setData_self]
  have hkernel1 : w1.kernel = w.kernel := by
    rw [← hw1]
    rfl
  -- What was watched since matters to none of the fields.
  have hend : ∀ (w2 : World) (state : ExecutorData.State),
      state = .readRequest ∨ state = .sslHandshake →
      (w2.data l r).unwatched = (w1.data l r).unwatched →
      Kernel.SameStreams w1.kernel w2.kernel →
      (((w2.setData l r { w2.data l r with state := state }).data l r).Begins e ∧
        ((w2.setData l r { w2.data l r with state := state }).data l r).Admits
          ConnectionType.ssl true ∧
        ((w2.setData l r { w2.data l r with state := state }).data l r).fd0 = (w.data l r).fd0) ∧
      Kernel.SameStreams w.kernel w2.kernel := by
    intro w2 state hstate hdata hkernel
    refine ⟨?_, hkernel1 ▸ hkernel⟩
    rw [World.setData_self]
    refine h.admits hmemory (hstate.imp_right (fun hs => ⟨rfl, hs⟩))
      ((ExecutorData.unwatched_state hdata).trans ?_)
    rw [hdata1]
  rw [upHandshake, ensures_bind]
  unfold handleHandshake
  cases ans.sslDoHandshake with
  | none =>
    rw [ensures_pure]
    simp only [ensures_bind, ensures_getData, ensures_ite, ensures_pure, ensures_setState]
    refine addPollFd_unwatched.mono (fun added w2 h2 => ?_)
    exact ⟨fun _ hneg => absurd hneg (by decide), fun _ _ => hend w2 _ (Or.inl rfl) h2.1 h2.2⟩
  | some error =>
    cases error with
    | other =>
      rw [ensures_pure]
      exact ensures_pure.mpr (fun hneg => absurd hneg (by decide))
    | wantRead =>
      simp only [watchHandshake, if_true, ensures_bind, ensures_getData, ensures_pure,
        ensures_setState]
      exact addPollFd_unwatched.mono (fun added w2 h2 _ => hend w2 _ (Or.inr rfl) h2.1 h2.2)
    | wantWrite =>
      simp only [watchHandshake, if_true, ensures_bind, ensures_getData, ensures_pure,
        ensures_setState]
      exact addPollFd_unwatched.mono (fun added w2 h2 _ => hend w2 _ (Or.inr rfl) h2.1 h2.2)

theorem serverUp_begins (h : (w.data l r).Begins e) : Ensures (serverUp ans l r) w (fun _ w' =>
    (w'.data l r).Begins e ∧ (w'.data l r).removeOnTimeout = false) := by
  have hserves : ∀ (d : ExecutorData) (fd : Int), d.unwatched = ({ w.data l r with
      removeOnTimeout := false, state := .ok, fd0 := fd } : ExecutorData).unwatched →
      d.Begins e ∧ d.removeOnTimeout = false := by
    intro d fd heq
    have hstays := congrArg ExecutorData.removeOnTimeout heq
    exact ⟨(h.listens fd).congr heq, hstays⟩
  simp only [serverUp, ensures_bind, ensures_modifyData]
  refine socketListen_spec.mono (fun fd w1 hs => ?_)
  have hdata : w1.data l r = { w.data l r with removeOnTimeout := false, state := .ok } := by
    rcases hs with ⟨_, rfl | ⟨_, _, rfl⟩⟩ | ⟨_, rfl⟩
    · exact World.setData_self _ _ _ _
    · exact World.setData_self _ _ _ _
    · exact World.setData_self _ _ _ _
  simp only [ensures_ite, ensures_pure, ensures_bind]
  refine ⟨fun _ => ?_, fun _ => addPollFd_unwatched.mono (fun added w2 h2 => ?_)⟩
  · rw [World.setData_self, hdata]
    exact hserves _ fd rfl
  · have hnew := hserves (w2.data l r) fd (by rw [h2.1, World.setData_self, hdata])
    exact ⟨fun _ => hnew, fun _ => hnew⟩

/-- What was adopted is cleared data but for the class, the descriptor and the time. -/
theorem Adopted.begins (ha : Adopted w l r fd e w') (hb : Booked w) (htidy : w.Tidy) :
    (w'.data l r).Begins e ∧ (w'.data l r).ssl = false := by
  obtain ⟨w1, millis, hh, rfl⟩ := ha
  have hidle : (w1.data l r).Idle := by
    rcases hh.data hb l r with heq | ⟨_, heq⟩
    · rw [heq]
      exact htidy l r (hh.spec hb).1
    · rw [heq]
      rfl
  have hfd : ∀ place, (w1.data l r).fdAt place = -1 := fun place =>
    (hh.fdAt hb l r place).trans ((hb.loops l).idle r (hh.spec hb).1 place).1
  rw [World.setData_self]
  refine ⟨hidle.begins hfd millis fd, ?_⟩
  show (w1.data l r).ssl = false
  rw [← hidle]
  rfl

/-- `up` of cleared data that adopted a descriptor. -/
theorem upCreated_novel (ha : Adopted w l r fd e w1) (hb : Booked w) (htidy : w.Tidy)
    (hat : w1.fdAt l r .fd0 = fd) (hkernel : w1.kernel = w.kernel)
    (hclient : ∀ id, w.kernel.openId? fd = some id → w.kernel.Blank id) :
    Ensures (upCreated e ans l r) w1 (fun result w2 => result = 0 → Novel l r w2) := by
  obtain ⟨hbegins, hssl⟩ := ha.begins hb htidy
  -- The client is the one that was adopted.
  have hblank : ∀ w2 : World, (w2.data l r).fd0 = (w1.data l r).fd0 →
      Kernel.SameStreams w1.kernel w2.kernel →
      ∀ id, w2.HoldsAt l r .fd0 id → w2.kernel.Blank id := by
    intro w2 hfd hstreams id hid
    refine (hstreams.onlyClosed.objects id).blank ?_
    rw [hkernel]
    refine hclient id ?_
    have hopen : w2.kernel.openId? (w2.data l r).fd0 = some id := hid
    rw [hfd, hstreams.openId?, hkernel] at hopen
    rw [← hat]
    exact hopen
  cases e with
  | request =>
    refine (RequestExecutor.up_admits hbegins hssl).mono (fun result w2 h2 hok => ?_)
    obtain ⟨⟨hbegins2, hadmits, hfd⟩, hstreams⟩ := h2 hok
    exact .request hbegins2 hadmits (hblank w2 hfd hstreams)
  | sslRequest =>
    refine (SslRequestExecutor.up_admits hbegins).mono (fun result w2 h2 hok => ?_)
    obtain ⟨⟨hbegins2, hadmits, hfd⟩, hstreams⟩ := h2 hok
    exact .sslRequest hbegins2 hadmits (hblank w2 hfd hstreams)
  | server =>
    exact (serverUp_begins hbegins).mono (fun _ _ h2 _ =>
      .service .server (Or.inr (Or.inl rfl)) h2.1 h2.2)
  | sslServer =>
    exact (serverUp_begins hbegins).mono (fun _ _ h2 _ =>
      .service .sslServer (Or.inr (Or.inr rfl)) h2.1 h2.2)
  | _ => exact ensures_fail.mpr trivial

end

end EpollHttp
